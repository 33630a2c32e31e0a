/-
**What is read is read again.**

A path that has been read need not be written as it stood in the expression: the blanks around that
are gone, a position has no plus sign and no zeros in front, and brackets that another pair replaced
are left out.  What is written for it is an expression of its own: each node gives a segment, whose
brackets stand for the mark of the node.

* `Path.Node.segment`, `Path.Segment.restated` — the segment that a node is written as, and that of
  the node of a segment.
* `Path.toList_joinNodes_nodes` — the written form of nodes is spelled by their segments.
* `Path.parse_text_of_parse` — **reading the written form of a path that has been read gives that
  path**.
-/
import Mathlib.Data.List.DropRight
import GraphValidation.Proofs.Segments

namespace GraphValidation

namespace Text

/-- What is left of a text does not start with a blank. -/
theorem isBlank_of_head?_trim {text : List Char} {c : Char} (isHead : (trim text).head? = some c) :
    isBlank c = false := by
  have front := List.head?_dropWhile_not isBlank text
  obtain ⟨dropped, split⟩ : trim text <+: text.dropWhile isBlank :=
    List.rdropWhile_prefix isBlank (text.dropWhile isBlank)
  rw [← split, List.head?_append, isHead] at front
  exact front

/-- What is left of a text does not end with a blank. -/
theorem isBlank_of_getLast?_trim {text : List Char} {c : Char}
    (isLast : (trim text).getLast? = some c) : isBlank c = false := by
  have back := List.head?_dropWhile_not isBlank (text.dropWhile isBlank).reverse
  rw [trim, List.getLast?_reverse] at isLast
  rw [isLast] at back
  exact back

end Text

namespace Path

/-! ### The segment of a node -/

/-- What the brackets of a mark hold. -/
def Mark.content? : Mark → Option (List Char)
  | plain => none
  | element => some []
  | index position => some (toString position).toList
  | key k => some k.text.toList

/-- The segment that a node is written as. -/
def Node.segment (node : Node) : Segment := ⟨(node.name.getD "").toList, node.mark.content?⟩

/-- A node is written as its segment. -/
theorem Node.toList_text (node : Node) : node.text.toList = node.segment.chars := by
  obtain ⟨name, mark⟩ := node
  rw [text, String.toList_append, segment, Segment.chars]
  cases mark <;> simp [Mark.text, Mark.content?]

/-- The segment that the node of a segment is written as. -/
def Segment.restated (segment : Segment) : Segment := ⟨segment.name, segment.mark.content?⟩

/-- The brackets of a mark that has been read are read as that mark. -/
theorem StandsFor.restated {content : List Char} {mark : Mark}
    (stands : StandsFor (some content) mark) (inside : ']' ∉ content) :
    ∃ restated, mark.content? = some restated ∧ ']' ∉ restated
      ∧ markOfContent restated = mark := by
  cases stands with
  | element => exact ⟨[], rfl, by simp, rfl⟩
  | index number =>
    obtain ⟨outside, same⟩ := brackets_of_position number.fits
    exact ⟨_, rfl, outside, same⟩
  | key nonempty noNumber =>
    have text : (Key.written (String.ofList content)).text.toList = content :=
      String.toList_ofList
    refine ⟨_, rfl, ?_, ?_⟩
    · rwa [text]
    · rw [text]
      exact standsFor_iff.mp (.key nonempty noNumber)

variable {segment : Segment}

theorem Segment.WellFormed.mark_restated (wellFormed : segment.WellFormed) {content : List Char}
    (brackets : segment.content? = some content) :
    ∃ restated, segment.restated.content? = some restated ∧ ']' ∉ restated
      ∧ markOfContent restated = segment.mark := by
  have stands : Path.StandsFor (some content) segment.mark := by
    rw [standsFor_iff, mark, brackets]
  exact stands.restated (wellFormed.content content brackets)

theorem Segment.restated_of_unmarked (unmarked : segment.content? = none) :
    segment.restated.content? = none := by
  simp [restated, mark, unmarked, Mark.content?]

theorem Segment.WellFormed.restated (wellFormed : segment.WellFormed) :
    segment.restated.WellFormed := by
  refine ⟨wellFormed.name, ?_, ?_⟩
  · intro other isOther
    cases brackets : segment.content? with
    | none =>
      rw [restated_of_unmarked brackets] at isOther
      cases isOther
    | some content =>
      obtain ⟨restated, same, outside, -⟩ := wellFormed.mark_restated brackets
      rw [same] at isOther
      exact Option.some.inj isOther ▸ outside
  · refine wellFormed.nonempty.imp_right fun marked => ?_
    obtain ⟨content, brackets⟩ := Option.ne_none_iff_exists'.mp marked
    obtain ⟨restated, same, -⟩ := wellFormed.mark_restated brackets
    rw [same]
    exact nofun

/-- The written form of a node stands for that node. -/
theorem Segment.WellFormed.node_restated (wellFormed : segment.WellFormed) :
    segment.restated.node = segment.node := by
  have marks : segment.restated.mark = segment.mark := by
    cases brackets : segment.content? with
    | none =>
      rw [mark, mark, restated_of_unmarked brackets, brackets]
    | some content =>
      obtain ⟨restated, same, -, isMark⟩ := wellFormed.mark_restated brackets
      rw [← isMark, mark, same]
  rw [node, node, marks]
  rfl

/-! ### The segments of a path -/

theorem Segment.segment_node (segment : Segment) : segment.node.segment = segment.restated := by
  have name : (segment.node.name.getD "").toList = segment.name := by
    by_cases noName : segment.name = [] <;> simp [node, noName]
  rw [Node.segment, name, restated]
  rfl

section Joined

variable {nodes : List Node}

/-- The written form of named nodes behind others is spelled by their segments. -/
theorem toList_joinNodes_later (real : ∀ node ∈ nodes, node.isPlaceholder = false)
    (named : ∀ node ∈ nodes, node.name ≠ none) :
    (joinNodes false nodes).toList = spellAfter (nodes.map Node.segment) := by
  induction nodes with
  | nil => rfl
  | cons node rest ih =>
    obtain ⟨isReal, laterReal⟩ := List.forall_mem_cons.mp real
    obtain ⟨hasName, laterNamed⟩ := List.forall_mem_cons.mp named
    have isNamed : node.name.isSome = true := Option.isSome_iff_ne_none.mpr hasName
    rw [joinNodes, if_neg (by simp [isReal]), String.toList_append, String.toList_append,
      node.toList_text, ih laterReal laterNamed, isNamed]
    rfl

/-- The written form of nodes, of which the first one may lack a name, is spelled by their
segments. -/
theorem toList_joinNodes_nodes (real : ∀ node ∈ nodes, node.isPlaceholder = false)
    (named : ∀ node ∈ nodes.tail, node.name ≠ none) :
    (joinNodes true nodes).toList = spell (nodes.map Node.segment) := by
  cases nodes with
  | nil => rfl
  | cons node rest =>
    obtain ⟨isReal, laterReal⟩ := List.forall_mem_cons.mp real
    rw [joinNodes, if_neg (by simp [isReal]), String.toList_append, String.toList_append,
      node.toList_text, toList_joinNodes_later laterReal named, List.map_cons, spell_cons]
    rfl

end Joined

/-- The written form of the nodes of segments is spelled by the restated segments. -/
theorem toList_joinNodes {segments : List Segment}
    (wellFormed : ∀ segment ∈ segments, segment.WellFormed) (named : LaterNamed segments) :
    (joinNodes true (segments.map Segment.node)).toList
      = spell (segments.map Segment.restated) := by
  rw [toList_joinNodes_nodes, List.map_map]
  · exact congrArg spell (List.map_congr_left fun segment _ => segment.segment_node)
  · intro node member
    obtain ⟨segment, inside, rfl⟩ := List.mem_map.mp member
    exact (wellFormed segment inside).not_placeholder
  · intro node member
    rw [← List.map_tail] at member
    obtain ⟨segment, inside, rfl⟩ := List.mem_map.mp member
    simp [Segment.node, named segment inside]

/-- Paths of the same nodes are equal. -/
theorem eq_of_nodes {path other : Path} (same : path.nodes = other.nodes) : path = other := by
  obtain ⟨leaf, above⟩ := path
  obtain ⟨otherLeaf, otherAbove⟩ := other
  obtain ⟨rfl, rfl⟩ := List.cons.inj (List.reverse_inj.mp same)
  rfl

/-! ### The ends of an expression -/

theorem Segment.WellFormed.chars_ne_nil (wellFormed : segment.WellFormed) :
    segment.chars ≠ [] := by
  obtain ⟨name, content?⟩ := segment
  cases content? with
  | none => exact wellFormed.nonempty.resolve_right (not_not.mpr rfl)
  | some content => simp [chars]

/-- An expression whose first segment has a name starts with that. -/
theorem head?_spell {rest : List Segment} {c : Char} {chars : List Char}
    (name : segment.name = c :: chars) : (spell (segment :: rest)).head? = some c := by
  rw [spell_cons, Segment.chars, name]
  cases segment.content? <;> rfl

/-- An expression ends with its last segment. -/
theorem getLast?_spell {segments : List Segment} {last : Segment}
    (isLast : segments.getLast? = some last) (wellFormed : last.WellFormed) :
    (spell segments).getLast? = last.chars.getLast? := by
  obtain ⟨before, rfl⟩ := List.getLast?_eq_some_iff.mp isLast
  have ending : ∃ front, spell (before ++ [last]) = front ++ last.chars := by
    cases before with
    | nil => exact ⟨[], by simp [spell_cons, spellAfter]⟩
    | cons first rest =>
      refine ⟨first.chars ++ spellAfter rest ++ ['.'], ?_⟩
      simp [spell_cons, spellAfter]
  obtain ⟨front, shape⟩ := ending
  obtain ⟨c, ends⟩ := Option.isSome_iff_exists.mp
    (List.getLast?_isSome.mpr wellFormed.chars_ne_nil)
  rw [shape, List.getLast?_append, ends, Option.some_or]

/-- The last segment without brackets has been the last one all along. -/
theorem getLast?_of_settleFrom {first last : Segment} {rest : List Segment}
    (wellFormed : ∀ other ∈ rest, other.WellFormed)
    (isLast : (settleFrom first rest).getLast? = some last) (unmarked : last.content? = none) :
    (first :: rest).getLast? = some last := by
  induction rest generalizing first with
  | nil => exact isLast
  | cons next rest ih =>
    obtain ⟨isNext, later⟩ := List.forall_mem_cons.mp wellFormed
    rw [List.getLast?_cons_cons]
    rw [settleFrom] at isLast
    split_ifs at isLast with noName
    · have goesOn := ih later isLast
      cases rest with
      | nil =>
        have brackets := isNext.nonempty.resolve_left (not_not.mpr noName)
        cases goesOn
        exact absurd unmarked brackets
      | cons other rest => rwa [List.getLast?_cons_cons] at goesOn ⊢
    · obtain ⟨head, tail, shape, -, -⟩ := laterNamed_settleFrom next rest
      refine ih later ?_
      rwa [shape, List.getLast?_cons_cons, ← shape] at isLast

/-- An expression has no blanks at its ends if neither the name in front nor one at the end, where
no brackets follow it, has one there. -/
theorem trim_spell {segments : List Segment} (accepted : Accepted segments)
    (front : ∀ first c, segments.head? = some first → first.name.head? = some c →
      Text.isBlank c = false)
    (back : ∀ last c, segments.getLast? = some last → last.content? = none →
      last.name.getLast? = some c → Text.isBlank c = false) :
    Text.trim (spell segments) = spell segments := by
  obtain ⟨nonempty, wellFormed⟩ := accepted
  apply Text.trim_eq_self
  · intro c isHead
    cases segments with
    | nil => exact absurd rfl nonempty
    | cons first rest =>
      cases chars : first.name with
      | cons d name =>
        rw [head?_spell chars] at isHead
        exact front first c rfl (by rw [chars]; exact isHead)
      | nil =>
        have marked := (wellFormed first List.mem_cons_self).nonempty.resolve_left
          (not_not.mpr chars)
        obtain ⟨content, brackets⟩ := Option.ne_none_iff_exists'.mp marked
        rw [spell_cons, Segment.chars, brackets, chars] at isHead
        obtain rfl : '[' = c := by simpa using isHead
        decide
  · intro c isLast
    obtain ⟨last, ends⟩ := Option.isSome_iff_exists.mp (List.getLast?_isSome.mpr nonempty)
    rw [getLast?_spell ends (wellFormed last (List.mem_of_getLast? ends)), Segment.chars] at isLast
    cases brackets : last.content? with
    | none =>
      rw [brackets] at isLast
      exact back last c ends brackets isLast
    | some content =>
      rw [brackets, List.getLast?_append] at isLast
      obtain rfl : ']' = c := by simpa using isLast
      decide

/-- The written form of settled segments has no blanks at its ends where their expression has none
there. -/
theorem trim_restated {first : Segment} {rest : List Segment} (isFirst : first.WellFormed)
    (isLater : ∀ other ∈ rest, other.WellFormed) {text : List Char}
    (spelled : Text.trim text = spell (first :: rest)) :
    Text.trim (spell ((settleFrom first rest).map Segment.restated))
      = spell ((settleFrom first rest).map Segment.restated) := by
  obtain ⟨head, later, shape, sameName, -⟩ := laterNamed_settleFrom first rest
  have settled := wellFormed_settleFrom isFirst isLater
  apply trim_spell
  · refine ⟨by simp [shape], fun other member => ?_⟩
    obtain ⟨segment, inside, rfl⟩ := List.mem_map.mp member
    exact (settled segment inside).restated
  · intro segment c isHead starts
    -- The first segment keeps its name, with which the expression starts.
    rw [shape, List.map_cons] at isHead
    cases isHead
    obtain ⟨name, chars⟩ := List.head?_eq_some_iff.mp (sameName ▸ starts : first.name.head? = some c)
    exact Text.isBlank_of_head?_trim (by rw [spelled, head?_spell chars])
  · intro segment c isLast unmarked ending
    obtain ⟨last, ends, rfl⟩ := Option.map_eq_some_iff.mp (List.getLast?_map ▸ isLast)
    have wellFormed := settled last (List.mem_of_getLast? ends)
    cases brackets : last.content? with
    | none =>
      -- A last segment without brackets ends the expression as well.
      have whole : (Text.trim text).getLast? = some c := by
        rw [spelled, getLast?_spell (getLast?_of_settleFrom isLater ends brackets) wellFormed,
          Segment.chars, brackets]
        exact ending
      exact Text.isBlank_of_getLast?_trim whole
    | some content =>
      obtain ⟨restated, same, -⟩ := wellFormed.mark_restated brackets
      rw [unmarked] at same
      cases same

/-- **Reading the written form of a path that has been read gives that path**: its names, marks,
positions and keys. -/
theorem parse_text_of_parse {expression : String} {path : Path}
    (reads : parse expression = .ok path) : parse path.text = .ok path := by
  rcases spelled_of_parse reads with ⟨-, rfl⟩ | ⟨segments, accepted, spelled, rfl⟩
  · rfl
  · have nodes := nodes_of_accepted accepted
    obtain ⟨nonempty, wellFormed⟩ := accepted
    cases segments with
    | nil => exact absurd rfl nonempty
    | cons first rest =>
      obtain ⟨isFirst, isLater⟩ := List.forall_mem_cons.mp wellFormed
      obtain ⟨head, later, shape, -, named⟩ := laterNamed_settleFrom first rest
      have settled := wellFormed_settleFrom isFirst isLater
      have trimmed := trim_restated isFirst isLater spelled
      rw [settle] at nodes
      rw [shape] at settled trimmed nodes
      have restated : Accepted ((head :: later).map Segment.restated) := by
        refine ⟨by simp, fun other member => ?_⟩
        obtain ⟨segment, inside, rfl⟩ := List.mem_map.mp member
        exact (settled segment inside).restated
      have stillNamed : LaterNamed ((head :: later).map Segment.restated) := by
        intro other member
        obtain ⟨segment, inside, rfl⟩ := List.mem_map.mp member
        exact named segment inside
      have sameNodes : ((head :: later).map Segment.restated).map Segment.node
          = (head :: later).map Segment.node := by
        rw [List.map_map]
        exact List.map_congr_left fun segment inside => (settled segment inside).node_restated
      have text : ((first :: rest).foldl place root).text.toList
          = spell ((head :: later).map Segment.restated) := by
        rw [Path.text, nodes]
        exact toList_joinNodes settled named
      rw [parse_of_spelled restated (by rw [text, trimmed])]
      refine congrArg Except.ok (eq_of_nodes ?_)
      rw [nodes_of_accepted restated, settle_of_laterNamed stillNamed, sameNodes, nodes]

/-- Blanks around an expression, a replaced pair of brackets and a signed position are not kept, and
what is written instead is read as the same path. -/
theorem parse_text_of_parse_untidy :
    parse " [].a .[x].[+007].b[x y] "
        = .ok ⟨⟨some "b", .key (.written "x y")⟩, [⟨some "a ", .index 7⟩, ⟨none, .element⟩]⟩
      ∧ parse "[].a [7].b[x y]"
        = .ok ⟨⟨some "b", .key (.written "x y")⟩, [⟨some "a ", .index 7⟩, ⟨none, .element⟩]⟩ :=
  have reads : parse " [].a .[x].[+007].b[x y] "
      = .ok ⟨⟨some "b", .key (.written "x y")⟩, [⟨some "a ", .index 7⟩, ⟨none, .element⟩]⟩ := rfl
  ⟨reads, parse_text_of_parse reads⟩

end Path

end GraphValidation
