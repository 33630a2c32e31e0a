/-
**Which expressions are paths, and of which nodes.**

A path expression is a list of segments with dots between them.  A segment is a name, brackets that
hold something, or a name with brackets behind it.  Each segment gives a node, with one exception: a
segment without a name that follows another one marks the node of the segment before it again, so
that what the brackets there held is lost.

* `Path.Segment`, `Path.spell` — segments and the expression that they are written as.
* `Path.Segment.StandsFor`, `Path.StandsFor` — the node of a segment and the mark of brackets.
* `Path.settle` — segments with those that mark the node before them joined to it.
* `Path.parse_of_spelled`, `Path.spelled_of_parse` — what is read, and that nothing else is.
* `Path.parse_accepts` — **the expressions that are read are the lists of segments, and each settled
  segment stands for one node**.
* `Path.parse_takes_nameless` — brackets without a name are taken behind a dot.
-/
import GraphValidation.Proofs.Spelling

namespace GraphValidation

namespace Path

/-! ### Segments -/

/-- A part of an expression between two dots: a name, empty where there is none, and what its
brackets hold, where it has any. -/
structure Segment where
  name : List Char
  content? : Option (List Char)
  deriving DecidableEq, Repr

namespace Segment

/-- The written form. -/
def chars (segment : Segment) : List Char :=
  match segment.content? with
  | none => segment.name
  | some content => segment.name ++ '[' :: content ++ [']']

/-- A name has no dots and brackets, what brackets hold has no closing bracket, and something of the
two is there. -/
structure WellFormed (segment : Segment) : Prop where
  name : ∀ c ∈ segment.name, c ≠ '.' ∧ c ≠ '[' ∧ c ≠ ']'
  content : ∀ content, segment.content? = some content → ']' ∉ content
  nonempty : segment.name ≠ [] ∨ segment.content? ≠ none

end Segment

/-- The expression of segments. -/
def spell (segments : List Segment) : List Char :=
  ['.'].intercalate (segments.map Segment.chars)

/-- Segments of which an expression may consist. -/
structure Accepted (segments : List Segment) : Prop where
  nonempty : segments ≠ []
  wellFormed : ∀ segment ∈ segments, segment.WellFormed

/-- Every segment behind the first one has a name. -/
def LaterNamed (segments : List Segment) : Prop := ∀ later ∈ segments.tail, later.name ≠ []

/-! ### What segments stand for -/

/-- The mark that brackets stand for: a number is a position, anything else is a key, and brackets
that hold nothing stand for an element without position. -/
inductive StandsFor : Option (List Char) → Mark → Prop
  | plain : StandsFor none .plain
  | element : StandsFor (some []) .element
  | index {content : List Char} {position : Nat} (number : IsPosition content position) :
      StandsFor (some content) (.index position)
  | key {content : List Char} (nonempty : content ≠ [])
      (noNumber : ∀ position, ¬ IsPosition content position) :
      StandsFor (some content) (.key (.written (String.ofList content)))

/-- The node that a segment stands for: it has the name and the mark of the segment. -/
structure Segment.StandsFor (segment : Segment) (node : Node) : Prop where
  named : segment.name ≠ [] → node.name = some (String.ofList segment.name)
  nameless : segment.name = [] → node.name = none
  mark : Path.StandsFor segment.content? node.mark

/-- The mark of brackets. -/
def Segment.mark (segment : Segment) : Mark :=
  match segment.content? with
  | none => .plain
  | some content => markOfContent content

/-- The node of a segment. -/
def Segment.node (segment : Segment) : Node :=
  ⟨if segment.name = [] then none else some (String.ofList segment.name), segment.mark⟩

/-- Brackets are read as the mark that they stand for, and they stand for one mark only. -/
theorem standsFor_iff {content : List Char} {mark : Mark} :
    StandsFor (some content) mark ↔ markOfContent content = mark := by
  unfold markOfContent
  constructor
  · intro stands
    cases stands with
    | element => rfl
    | index number => simp [number.ne_nil, readIndex?_eq_some.mpr number]
    | key nonempty noNumber =>
      have notRead : readIndex? content = none :=
        Option.eq_none_iff_forall_ne_some.mpr fun position found =>
          noNumber position (readIndex?_eq_some.mp found)
      simp [nonempty, notRead]
  · rintro rfl
    split_ifs with empty
    · rw [List.isEmpty_iff.mp empty]
      exact .element
    · cases number : readIndex? content with
      | some position => exact .index (readIndex?_eq_some.mp number)
      | none =>
        refine .key (fun isNil => empty (List.isEmpty_iff.mpr isNil)) fun position isPosition => ?_
        rw [readIndex?_eq_some.mpr isPosition] at number
        cases number

theorem Segment.standsFor_node (segment : Segment) : segment.StandsFor segment.node where
  named hasName := by simp [node, hasName]
  nameless noName := by simp [node, noName]
  mark := by
    obtain ⟨name, content?⟩ := segment
    cases content? with
    | none => exact .plain
    | some content => exact standsFor_iff.mpr rfl

/-! ### Reading segments -/

/-- The path with one more segment: a name adds a node, and brackets mark the leaf. -/
def place (path : Path) (segment : Segment) : Path :=
  let named := if segment.name = [] then path else path.add (String.ofList segment.name)
  match segment.content? with
  | none => named
  | some content => named.markLeaf (markOfContent content)

/-- The written form of segments that follow others. -/
def spellAfter (segments : List Segment) : List Char :=
  segments.flatMap fun segment => '.' :: segment.chars

theorem spell_cons (segment : Segment) (segments : List Segment) :
    spell (segment :: segments) = segment.chars ++ spellAfter segments := by
  induction segments generalizing segment with
  | nil => simp [spell, spellAfter, List.intercalate]
  | cons next rest ih =>
    have step : spell (segment :: next :: rest)
        = segment.chars ++ '.' :: spell (next :: rest) := by
      simp [spell, List.intercalate]
    rw [step, ih]
    simp [spellAfter]

theorem continues_spellAfter (segments : List Segment) : Continues (spellAfter segments) := by
  cases segments with
  | nil => exact .inl rfl
  | cons segment rest => exact .inr ⟨_, rfl⟩

/-- Brackets without a name mark the leaf. -/
theorem readFrom_nameless (path : Path) {content : List Char} (inside : ']' ∉ content)
    (tail : List Char) (offset : Nat) :
    ∃ next, readFrom path .start offset ('[' :: content ++ ']' :: tail)
      = readFrom (path.markLeaf (markOfContent content)) .closed next tail := by
  obtain ⟨next, reads⟩ := readFrom_content path inside [] (']' :: tail) offset
    (offset + '['.utf8Size)
  refine ⟨next + ']'.utf8Size, ?_⟩
  rw [List.cons_append, readFrom, if_neg (by decide), if_pos rfl, reads, readFrom, if_pos rfl,
    List.append_nil, List.reverse_reverse]

/-- A segment is read at its written form. -/
theorem readFrom_segment (path : Path) {segment : Segment} (wellFormed : segment.WellFormed)
    {tail : List Char} (continues : Continues tail) (offset : Nat) :
    ∃ next, readFrom path .start offset (segment.chars ++ tail)
      = readFrom (path.place segment) .closed next tail := by
  obtain ⟨name, content?⟩ := segment
  by_cases noName : name = []
  · subst noName
    cases content? with
    | none => exact absurd wellFormed.nonempty (by simp)
    | some content =>
      obtain ⟨next, reads⟩ := readFrom_nameless path (wellFormed.content content rfl) tail offset
      refine ⟨next, ?_⟩
      simpa [Segment.chars, place] using reads
  · cases content? with
    | none =>
      obtain ⟨next, reads⟩ := readFrom_start path noName wellFormed.name tail offset
      refine ⟨next, ?_⟩
      simp only [Segment.chars, place, if_neg noName]
      rw [reads, readFrom_named path continues, addReversed_reverse]
    | some content =>
      obtain ⟨middle, reads⟩ := readFrom_start path noName wellFormed.name
        ('[' :: content ++ ']' :: tail) offset
      obtain ⟨next, closes⟩ :=
        readFrom_brackets path (wellFormed.content content rfl) name.reverse tail middle
      refine ⟨next, ?_⟩
      have shape : Segment.chars ⟨name, some content⟩ ++ tail
          = name ++ ('[' :: content ++ ']' :: tail) := by
        simp [Segment.chars]
      simp only [place, if_neg noName]
      rw [shape, reads, closes, addReversed_reverse]

/-- Segments behind others are read one after the other. -/
theorem readFrom_spellAfter (path : Path) {segments : List Segment}
    (wellFormed : ∀ segment ∈ segments, segment.WellFormed) (offset : Nat) :
    readFrom path .closed offset (spellAfter segments) = .ok (segments.foldl place path) := by
  induction segments generalizing path offset with
  | nil => rfl
  | cons segment rest ih =>
    have later := fun other member => wellFormed other (List.mem_cons_of_mem _ member)
    have shape : spellAfter (segment :: rest) = '.' :: (segment.chars ++ spellAfter rest) := rfl
    obtain ⟨next, reads⟩ := readFrom_segment path (wellFormed segment List.mem_cons_self)
      (continues_spellAfter rest) (offset + '.'.utf8Size)
    rw [shape, readFrom, if_pos rfl, reads, ih (path.place segment) later]
    rfl

/-! ### Nothing else is read -/

/-- What is left to read, where a reading ends well: the rest of a segment that has been begun, and
the segments behind it. -/
def Leaves (path : Path) (chars : List Char) (result : Path) : Progress → Prop
  | .start => ∃ segment segments, segment.WellFormed ∧ (∀ other ∈ segments, other.WellFormed)
      ∧ chars = segment.chars ++ spellAfter segments
      ∧ result = segments.foldl place (path.place segment)
  | .name reversed => reversed ≠ [] → ∃ name content? segments,
      (∀ c ∈ name, c ≠ '.' ∧ c ≠ '[' ∧ c ≠ ']')
      ∧ (∀ content, content? = some content → ']' ∉ content)
      ∧ (∀ other ∈ segments, other.WellFormed)
      ∧ chars = Segment.chars ⟨name, content?⟩ ++ spellAfter segments
      ∧ result = segments.foldl place (path.place ⟨reversed.reverse ++ name, content?⟩)
  | .content _ reversed => ∃ content segments, ']' ∉ content
      ∧ (∀ other ∈ segments, other.WellFormed)
      ∧ chars = content ++ ']' :: spellAfter segments
      ∧ result = segments.foldl place (path.markLeaf (markOfContent (reversed.reverse ++ content)))
  | .closed => ∃ segments, (∀ other ∈ segments, other.WellFormed)
      ∧ chars = spellAfter segments ∧ result = segments.foldl place path

/-- A name without brackets that has been read adds its node. -/
theorem place_name (path : Path) {reversed : List Char} (nonempty : reversed ≠ []) :
    path.place ⟨reversed.reverse ++ [], none⟩ = path.addReversed reversed := by
  simp [place, addReversed, nonempty]

/-- Brackets behind a name that has been read mark its node. -/
theorem place_brackets (path : Path) {reversed : List Char} (nonempty : reversed ≠ [])
    (content : List Char) :
    path.place ⟨reversed.reverse ++ [], some content⟩
      = (path.addReversed reversed).markLeaf (markOfContent content) := by
  simp [place, addReversed, nonempty]

/-- A reading that ends well has read segments: by induction on what is left, where each character
goes on with the segment that has been begun, closes it or begins the next one. -/
theorem leaves_of_readFrom {path result : Path} {progress : Progress} {offset : Nat}
    {chars : List Char} (reads : readFrom path progress offset chars = .ok result) :
    Leaves path chars result progress := by
  induction chars generalizing path progress offset with
  | nil =>
    cases progress with
    | start => cases reads
    | name reversed =>
      cases reads
      intro begun
      exact ⟨[], none, [], by simp, by simp, by simp, rfl, (place_name path begun).symm⟩
    | content opened reversed => cases reads
    | closed =>
      cases reads
      exact ⟨[], by simp, rfl, rfl⟩
  | cons c rest ih =>
    cases progress with
    | start =>
      rw [readFrom] at reads
      split_ifs at reads with dot opens closes
      · obtain ⟨content, segments, inside, wellFormed, rfl, rfl⟩ := ih reads
        refine ⟨⟨[], some content⟩, segments, ⟨by simp, ?_, .inr (by simp)⟩, wellFormed, ?_, rfl⟩
        · rintro other ⟨⟩
          exact inside
        · simp [Segment.chars, opens]
      · obtain ⟨name, content?, segments, plain, inside, wellFormed, rfl, rfl⟩ :=
          ih reads (List.cons_ne_nil c [])
        have plain := List.forall_mem_cons.mpr ⟨⟨dot, opens, closes⟩, plain⟩
        refine ⟨⟨c :: name, content?⟩, segments, ⟨plain, inside, .inl (by simp)⟩, wellFormed,
          ?_, rfl⟩
        cases content? <;> rfl
    | name reversed =>
      intro begun
      rw [readFrom] at reads
      split_ifs at reads with dot opens closes
      · obtain ⟨segment, segments, first, later, rfl, rfl⟩ := ih reads
        refine ⟨[], none, segment :: segments, by simp, by simp,
          List.forall_mem_cons.mpr ⟨first, later⟩, ?_, ?_⟩
        · rw [dot]
          rfl
        · rw [place_name path begun]
          rfl
      · obtain ⟨content, segments, inside, wellFormed, rfl, rfl⟩ := ih reads
        refine ⟨[], some content, segments, by simp, ?_, wellFormed, ?_, ?_⟩
        · rintro other ⟨⟩
          exact inside
        · simp [Segment.chars, opens]
        · rw [place_brackets path begun]
          rfl
      · obtain ⟨name, content?, segments, plain, inside, wellFormed, rfl, rfl⟩ :=
          ih reads (List.cons_ne_nil c reversed)
        have plain := List.forall_mem_cons.mpr ⟨⟨dot, opens, closes⟩, plain⟩
        refine ⟨c :: name, content?, segments, plain, inside, wellFormed, ?_, ?_⟩
        · cases content? <;> rfl
        · rw [List.reverse_cons, List.append_assoc, List.singleton_append]
    | content opened reversed =>
      rw [readFrom] at reads
      split_ifs at reads with closes
      · obtain ⟨segments, wellFormed, rfl, rfl⟩ := ih reads
        refine ⟨[], segments, by simp, wellFormed, ?_, ?_⟩
        · rw [closes, List.nil_append]
        · rw [List.append_nil]
      · obtain ⟨content, segments, inside, wellFormed, rfl, rfl⟩ := ih reads
        refine ⟨c :: content, segments, ?_, wellFormed, rfl, ?_⟩
        · rw [List.mem_cons, not_or]
          exact ⟨Ne.symm closes, inside⟩
        · rw [List.reverse_cons, List.append_assoc, List.singleton_append]
    | closed =>
      rw [readFrom] at reads
      split_ifs at reads with dot
      obtain ⟨segment, segments, first, later, rfl, rfl⟩ := ih reads
      refine ⟨segment :: segments, List.forall_mem_cons.mpr ⟨first, later⟩, ?_, rfl⟩
      rw [dot]
      rfl

/-! ### Whole expressions -/

theorem Accepted.spell_ne_nil {segments : List Segment} (accepted : Accepted segments) :
    spell segments ≠ [] := by
  obtain ⟨nonempty, wellFormed⟩ := accepted
  cases segments with
  | nil => exact absurd rfl nonempty
  | cons segment rest =>
    obtain ⟨name, content?⟩ := segment
    have some := (wellFormed _ List.mem_cons_self).nonempty
    rw [spell_cons]
    cases content? with
    | none => simp_all [Segment.chars]
    | some content => simp [Segment.chars]

/-- An expression of segments is read, segment by segment. -/
theorem parse_of_spelled {expression : String} {segments : List Segment}
    (accepted : Accepted segments) (spelled : Text.trim expression.toList = spell segments) :
    parse expression = .ok (segments.foldl place root) := by
  have nonempty := accepted.spell_ne_nil
  cases segments with
  | nil => exact absurd rfl accepted.nonempty
  | cons segment rest =>
    have first := accepted.wellFormed segment List.mem_cons_self
    have later := fun other member => accepted.wellFormed other (List.mem_cons_of_mem _ member)
    obtain ⟨next, reads⟩ := readFrom_segment root first (continues_spellAfter rest) 0
    have whole : readFrom root .start 0 (spell (segment :: rest))
        = .ok ((segment :: rest).foldl place root) := by
      rw [spell_cons, reads, readFrom_spellAfter _ later]
      rfl
    unfold parse
    rw [spelled]
    split
    · rename_i empty
      exact absurd empty nonempty
    · rw [whole]

/-- What is read is the empty expression or an expression of segments. -/
theorem spelled_of_parse {expression : String} {path : Path}
    (reads : parse expression = .ok path) :
    Text.trim expression.toList = [] ∧ path = root
      ∨ ∃ segments, Accepted segments ∧ Text.trim expression.toList = spell segments
        ∧ path = segments.foldl place root := by
  unfold parse at reads
  split at reads
  · rename_i empty
    cases reads
    exact .inl ⟨empty, rfl⟩
  · split at reads
    · rename_i result whole
      cases reads
      obtain ⟨segment, segments, first, later, spelled, placed⟩ := leaves_of_readFrom whole
      refine .inr ⟨segment :: segments, ⟨nofun, ?_⟩, ?_, placed⟩
      · intro other member
        rcases List.mem_cons.mp member with rfl | member
        · exact first
        · exact later other member
      · rw [spelled, spell_cons]
    · cases reads

/-! ### The nodes of a path -/

/-- A segment and those behind it, with each that has no name joined to the one before it: its own
brackets give way to theirs. -/
def settleFrom (segment : Segment) : List Segment → List Segment
  | [] => [segment]
  | next :: rest =>
    if next.name = [] then settleFrom ⟨segment.name, next.content?⟩ rest
    else segment :: settleFrom next rest

/-- Segments with those joined that stand for one node. -/
def settle : List Segment → List Segment
  | [] => []
  | segment :: rest => settleFrom segment rest

theorem settleFrom_of_named {segment : Segment} {rest : List Segment}
    (named : ∀ later ∈ rest, later.name ≠ []) : settleFrom segment rest = segment :: rest := by
  induction rest generalizing segment with
  | nil => rfl
  | cons next rest ih =>
    obtain ⟨hasName, later⟩ := List.forall_mem_cons.mp named
    rw [settleFrom, if_neg hasName, ih later]

/-- Where only the first segment lacks a name, each one stands for a node of its own. -/
theorem settle_of_laterNamed {segments : List Segment} (named : LaterNamed segments) :
    settle segments = segments := by
  cases segments with
  | nil => rfl
  | cons segment rest => exact settleFrom_of_named named

theorem laterNamed_settleFrom (segment : Segment) (rest : List Segment) :
    ∃ first later, settleFrom segment rest = first :: later ∧ first.name = segment.name
      ∧ ∀ other ∈ later, other.name ≠ [] := by
  induction rest generalizing segment with
  | nil => exact ⟨segment, [], rfl, rfl, nofun⟩
  | cons next rest ih =>
    rw [settleFrom]
    split_ifs with noName
    · exact ih ⟨segment.name, next.content?⟩
    · obtain ⟨first, later, shape, name, named⟩ := ih next
      refine ⟨segment, settleFrom next rest, rfl, rfl, ?_⟩
      rw [shape]
      exact List.forall_mem_cons.mpr ⟨name ▸ noName, named⟩

theorem wellFormed_settleFrom {segment : Segment} {rest : List Segment}
    (first : segment.WellFormed) (later : ∀ other ∈ rest, other.WellFormed) :
    ∀ other ∈ settleFrom segment rest, other.WellFormed := by
  induction rest generalizing segment with
  | nil => simpa [settleFrom] using first
  | cons next rest ih =>
    obtain ⟨isNext, later⟩ := List.forall_mem_cons.mp later
    rw [settleFrom]
    split_ifs with noName
    · refine ih ⟨first.name, isNext.content, .inr ?_⟩ later
      exact isNext.nonempty.resolve_left (not_not.mpr noName)
    · exact List.forall_mem_cons.mpr ⟨first, ih isNext later⟩

/-- Brackets that mark the leaf again leave nothing of those before. -/
theorem place_place (path : Path) (segment : Segment) {next : Segment} (noName : next.name = [])
    (brackets : next.content? ≠ none) :
    (path.place segment).place next = path.place ⟨segment.name, next.content?⟩ := by
  obtain ⟨name, content?⟩ := segment
  obtain ⟨_, nextContent?⟩ := next
  subst noName
  cases nextContent? with
  | none => exact absurd rfl brackets
  | some content => cases content? <;> rfl

theorem foldl_place_settleFrom (path : Path) {segment : Segment} {rest : List Segment}
    (later : ∀ other ∈ rest, other.WellFormed) :
    (settleFrom segment rest).foldl place path = (segment :: rest).foldl place path := by
  induction rest generalizing path segment with
  | nil => rfl
  | cons next rest ih =>
    obtain ⟨isNext, later⟩ := List.forall_mem_cons.mp later
    rw [settleFrom]
    split_ifs with noName
    · have brackets := isNext.nonempty.resolve_left (not_not.mpr noName)
      rw [ih path later, List.foldl_cons, ← place_place path segment noName brackets]
      rfl
    · exact ih (path.place segment) later

/-- A named segment adds its node. -/
theorem place_of_named (path : Path) {segment : Segment} (named : segment.name ≠ []) :
    path.place segment = path.push segment.node := by
  obtain ⟨name, content?⟩ := segment
  cases content? with
  | none => simp [place, Segment.node, Segment.mark, named, add, Node.named]
  | some content => simp [place, Segment.node, Segment.mark, named, markLeaf_add]

/-- The first segment takes the place of the root. -/
theorem place_root {segment : Segment} : root.place segment = ⟨segment.node, []⟩ := by
  obtain ⟨name, content?⟩ := segment
  by_cases noName : name = []
  · subst noName
    cases content? <;> rfl
  · rw [place_of_named root noName, push_of_isRoot _ isRoot_root]

theorem Segment.WellFormed.not_placeholder {segment : Segment} (wellFormed : segment.WellFormed) :
    segment.node.isPlaceholder = false := by
  obtain ⟨name, content?⟩ := segment
  cases content? with
  | none =>
    have hasName : name ≠ [] := wellFormed.nonempty.resolve_right (not_not.mpr rfl)
    simp [node, Node.isPlaceholder, hasName]
  | some content =>
    have stands : Path.StandsFor (some content) (markOfContent content) := standsFor_iff.mpr rfl
    have marked : (markOfContent content).isElement = true := by
      generalize markOfContent content = mark at stands
      cases stands <;> rfl
    simp [node, Node.isPlaceholder, Segment.mark, marked]

theorem isRoot_eq_false {path : Path} (real : path.leaf.isPlaceholder = false) :
    path.isRoot = false := by
  simp [isRoot, real]

/-- Named segments add a node each. -/
theorem nodes_foldl_place (path : Path) (real : path.leaf.isPlaceholder = false)
    {segments : List Segment} (wellFormed : ∀ segment ∈ segments, segment.WellFormed)
    (named : ∀ segment ∈ segments, segment.name ≠ []) :
    (segments.foldl place path).nodes = path.nodes ++ segments.map Segment.node := by
  induction segments generalizing path with
  | nil => simp
  | cons segment rest ih =>
    obtain ⟨first, later⟩ := List.forall_mem_cons.mp wellFormed
    obtain ⟨hasName, laterNamed⟩ := List.forall_mem_cons.mp named
    have below : path.isRoot = false := isRoot_eq_false real
    have added : (path.place segment).nodes = path.nodes ++ [segment.node] := by
      rw [place_of_named path hasName, push, if_neg (by simp [below])]
      simp [nodes]
    have realNow : (path.place segment).leaf.isPlaceholder = false := by
      rw [place_of_named path hasName, leaf_push]
      exact first.not_placeholder
    rw [List.foldl_cons, ih (path.place segment) realNow later laterNamed, added,
      List.map_cons, List.append_assoc, List.singleton_append]

/-- **A path that is read has one node for each settled segment.** -/
theorem nodes_of_accepted {segments : List Segment} (accepted : Accepted segments) :
    (segments.foldl place root).nodes = (settle segments).map Segment.node := by
  obtain ⟨nonempty, wellFormed⟩ := accepted
  cases segments with
  | nil => exact absurd rfl nonempty
  | cons segment rest =>
    obtain ⟨isFirst, isLater⟩ := List.forall_mem_cons.mp wellFormed
    obtain ⟨first, later, shape, -, named⟩ := laterNamed_settleFrom segment rest
    have settled := wellFormed_settleFrom isFirst isLater
    rw [← foldl_place_settleFrom root isLater, settle, shape, List.foldl_cons, place_root]
    rw [shape] at settled
    obtain ⟨firstWell, laterWell⟩ := List.forall_mem_cons.mp settled
    rw [nodes_foldl_place _ firstWell.not_placeholder laterWell named]
    rfl

/-- **The expressions that are read are the empty one and the lists of segments with dots between
them.**  Blanks around an expression carry no meaning.  Each segment stands for one node, in order,
where only the first may lack a name; a later one without a name marks the node of the segment
before it again. -/
theorem parse_accepts (expression : String) :
    ((∃ path, parse expression = .ok path) ↔
      Text.trim expression.toList = []
        ∨ ∃ segments, Accepted segments ∧ Text.trim expression.toList = spell segments)
    ∧ (Text.trim expression.toList = [] → parse expression = .ok root)
    ∧ ∀ segments, Accepted segments → Text.trim expression.toList = spell segments →
        (LaterNamed segments → settle segments = segments)
        ∧ ∃ path, parse expression = .ok path
          ∧ List.Forall₂ Segment.StandsFor (settle segments) path.nodes := by
  have blank : Text.trim expression.toList = [] → parse expression = .ok root := by
    intro empty
    unfold parse
    rw [empty]
  refine ⟨⟨?_, ?_⟩, blank, ?_⟩
  · rintro ⟨path, reads⟩
    rcases spelled_of_parse reads with ⟨empty, -⟩ | ⟨segments, accepted, spelled, -⟩
    · exact .inl empty
    · exact .inr ⟨segments, accepted, spelled⟩
  · rintro (empty | ⟨segments, accepted, spelled⟩)
    · exact ⟨root, blank empty⟩
    · exact ⟨_, parse_of_spelled accepted spelled⟩
  · intro segments accepted spelled
    refine ⟨settle_of_laterNamed, _, parse_of_spelled accepted spelled, ?_⟩
    rw [nodes_of_accepted accepted, List.forall₂_map_right_iff]
    exact List.forall₂_same.mpr fun segment _ => segment.standsFor_node

/-- A segment has at most one closing bracket. -/
theorem Segment.WellFormed.count_closing {segment : Segment} (wellFormed : segment.WellFormed) :
    segment.chars.count ']' ≤ 1 := by
  obtain ⟨name, content?⟩ := segment
  have outside : name.count ']' = 0 :=
    List.count_eq_zero.mpr fun member => (wellFormed.name _ member).2.2 rfl
  cases content? with
  | none => simp [chars, outside]
  | some content =>
    have inside : content.count ']' = 0 := List.count_eq_zero.mpr (wellFormed.content content rfl)
    simp [chars, outside, inside]

/-- **Brackets without a name are taken behind a dot**: they mark the node of the segment before
them again, although no list of segments in which only the first may lack a name is written so, and
what the first brackets held is lost. -/
theorem parse_takes_nameless :
    parse "a[0].[1]" = .ok ⟨⟨some "a", .index 1⟩, []⟩
      ∧ Text.trim "a[0].[1]".toList ≠ []
      ∧ ¬ ∃ segments, Accepted segments ∧ LaterNamed segments
          ∧ Text.trim "a[0].[1]".toList = spell segments := by
  have reads : parse "a[0].[1]" = .ok ⟨⟨some "a", .index 1⟩, []⟩ := by rfl
  have trimmed : Text.trim "a[0].[1]".toList = ['a', '[', '0', ']', '.', '[', '1', ']'] := by rfl
  refine ⟨reads, by rw [trimmed]; exact nofun, ?_⟩
  rintro ⟨segments, accepted, named, spelled⟩
  have placed := parse_of_spelled accepted spelled
  rw [reads] at placed
  have stands := nodes_of_accepted accepted
  rw [← Except.ok.inj placed, settle_of_laterNamed named] at stands
  have single : segments.length = 1 := by
    have lengths := congrArg List.length stands
    simpa [nodes] using lengths.symm
  obtain ⟨segment, rfl⟩ := List.length_eq_one_iff.mp single
  have once := (accepted.wellFormed segment List.mem_cons_self).count_closing
  have whole : segment.chars = ['a', '[', '0', ']', '.', '[', '1', ']'] := by
    rw [← trimmed, spelled, spell_cons]
    simp [spellAfter]
  rw [whole] at once
  exact absurd once (by decide)

end Path

end GraphValidation
