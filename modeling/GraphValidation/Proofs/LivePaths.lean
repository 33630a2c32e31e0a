/-
**What is written for a live path is read.**

A traversal makes a path of the root by adding the nodes of properties and by marking the leaf with
positions and with keys of maps.  As long as names and keys are legible, what is written for such a
path is an expression, and it is read as nodes with the same names.  Marks come back too, except
that a key comes back as its text; the text goes with the key again, unless it is a number, which
stands between brackets for a position.

* `Path.Live` — the paths that a traversal makes.
* `Path.Spelled`, `Path.Live.spelled` — a live path is the root's, or each of its nodes is written
  as a segment, of which only the first one may lack a name.
* `Path.Node.reread`, `Path.parse_text_of_spelled` — the node that is read for a node, and the path
  that is read for a path.
* `Path.parse_text_of_live` — **the written form of a live path is read, and what is read and the
  live path start with each other exactly if no text of a key is a number**.
-/
import GraphValidation.Proofs.Rereading
import GraphValidation.Proofs.SubPaths

namespace GraphValidation

namespace Path

/-! ### Live paths -/

/-- A key whose text stands between brackets as it is. -/
structure LegibleKey (key : MapKey) : Prop where
  nonempty : key.text ≠ ""
  inside : ']' ∉ key.text.toList

/-- The paths that adding properties and marking the leaf make of the root's. -/
inductive Live : Path → Prop
  | start : Live root
  | add {path : Path} {name : String} (legible : LegibleName name) (live : Live path) :
    Live (path.add name)
  | index {path : Path} {position? : Option Nat}
    (fits : ∀ position, position? = some position → position < Nat.pow 2 64) (live : Live path) :
    Live (path.markLeaf (.ofIndex? position?))
  | key {path : Path} {key : MapKey} (legible : LegibleKey key) (live : Live path) :
    Live (path.markLeaf (.key (.entry key)))

/-! ### Nodes that are written as a segment -/

/-- A mark that is written as one pair of brackets, or as nothing. -/
def Mark.Bracketed : Mark → Prop
  | plain => True
  | element => True
  | index position => position < Nat.pow 2 64
  | key k => k.text ≠ "" ∧ ']' ∉ k.text.toList

/-- A node that is written as one segment. -/
structure Node.Spelled (node : Node) : Prop where
  name : ∀ name, node.name = some name → LegibleName name
  mark : node.mark.Bracketed
  real : node.isPlaceholder = false

/-- A path of nodes that are written as one segment each, of which only the first one may lack a
name. -/
structure Spelled (path : Path) : Prop where
  nodes : ∀ node ∈ path.nodes, node.Spelled
  named : ∀ name ∈ (path.nodes.map Node.name).tail, name ≠ none

theorem Node.spelled_named {name : String} (legible : LegibleName name) :
    (Node.named name).Spelled where
  name := by
    rintro _ ⟨⟩
    exact legible
  mark := trivial
  real := rfl

variable {path : Path}

theorem leaf_mem_nodes (path : Path) : path.leaf ∈ path.nodes := by simp [nodes]

theorem nodes_add (below : path.isRoot = false) (name : String) :
    (path.add name).nodes = path.nodes ++ [.named name] := by
  simp [add, push, below, nodes]

theorem nodes_markLeaf (path : Path) (mark : Mark) :
    (path.markLeaf mark).nodes = path.above.reverse ++ [path.leaf.withMark mark] := by
  simp [nodes, markLeaf]

theorem Spelled.isRoot_eq_false (spelled : path.Spelled) : path.isRoot = false :=
  Path.isRoot_eq_false (spelled.nodes path.leaf path.leaf_mem_nodes).real

theorem spelled_add {name : String} (before : path = root ∨ path.Spelled)
    (legible : LegibleName name) : (path.add name).Spelled := by
  rcases before with rfl | spelled
  · have alone : (root.add name).nodes = [.named name] := rfl
    refine ⟨?_, ?_⟩
    · rw [alone]
      exact List.forall_mem_singleton.mpr (Node.spelled_named legible)
    · rw [alone]
      exact fun _ member => absurd member List.not_mem_nil
  · refine ⟨?_, ?_⟩
    · rw [nodes_add spelled.isRoot_eq_false]
      exact List.forall_mem_append.mpr
        ⟨spelled.nodes, List.forall_mem_singleton.mpr (Node.spelled_named legible)⟩
    · rw [nodes_add spelled.isRoot_eq_false, List.map_append,
        List.tail_append_of_ne_nil (by simp [nodes_ne_nil])]
      exact List.forall_mem_append.mpr
        ⟨spelled.named, List.forall_mem_singleton.mpr (Option.some_ne_none name)⟩

/-- A mark on the leaf leaves all names as they are, and the root gets a node without a name. -/
theorem spelled_markLeaf {mark : Mark} (before : path = root ∨ path.Spelled)
    (bracketed : mark.Bracketed) (isElement : mark.isElement) : (path.markLeaf mark).Spelled := by
  have leaf : (path.leaf.withMark mark).Spelled := by
    refine ⟨?_, bracketed, by simp [Node.isPlaceholder, Node.withMark, isElement]⟩
    rcases before with rfl | spelled
    · exact fun name isName => absurd isName.symm (Option.some_ne_none name)
    · exact (spelled.nodes path.leaf path.leaf_mem_nodes).name
  have names : (path.markLeaf mark).nodes.map Node.name = path.nodes.map Node.name := by
    rw [nodes_markLeaf]
    simp [Path.nodes, Node.withMark]
  refine ⟨?_, ?_⟩
  · rw [nodes_markLeaf]
    refine List.forall_mem_append.mpr ⟨?_, List.forall_mem_singleton.mpr leaf⟩
    rcases before with rfl | spelled
    · exact fun _ member => absurd member List.not_mem_nil
    · exact fun node member => spelled.nodes node (by simp_all [Path.nodes])
  · rw [names]
    rcases before with rfl | spelled
    · exact fun _ member => absurd member List.not_mem_nil
    · exact spelled.named

/-- **A live path is the root's, or its nodes are written as segments**: by induction on how it was
made. -/
theorem Live.spelled (live : path.Live) : path = root ∨ path.Spelled := by
  induction live with
  | start => exact .inl rfl
  | add legible _ ih => exact .inr (spelled_add ih legible)
  | @index _ position? fits _ ih =>
    refine .inr (spelled_markLeaf ih ?_ ?_)
    all_goals cases position?
    · trivial
    · exact fits _ rfl
    · rfl
    · rfl
  | key legible _ ih =>
    exact .inr (spelled_markLeaf ih ⟨legible.nonempty, legible.inside⟩ rfl)

/-! ### The nodes that are read -/

/-- The mark that is read for a mark. -/
def Mark.reread : Mark → Mark
  | key k => markOfContent k.text.toList
  | mark => mark

/-- The node that is read for a node. -/
def Node.reread (node : Node) : Node := ⟨node.name, node.mark.reread⟩

theorem Mark.Bracketed.content {mark : Mark} (bracketed : mark.Bracketed) {content : List Char}
    (holds : mark.content? = some content) :
    ']' ∉ content ∧ markOfContent content = mark.reread := by
  cases mark with
  | plain => cases holds
  | element =>
    cases holds
    exact ⟨by simp, rfl⟩
  | index position =>
    cases holds
    exact brackets_of_position bracketed
  | key k =>
    cases holds
    exact ⟨bracketed.2, rfl⟩

variable {node : Node}

theorem Node.Spelled.segment_name (spelled : node.Spelled) :
    (node.segment.name = [] ↔ node.name = none) ∧ ∀ c ∈ node.segment.name,
      c ≠ '.' ∧ c ≠ '[' ∧ c ≠ ']' ∧ Text.isBlank c = false := by
  rw [segment]
  cases named : node.name with
  | none => simp
  | some name =>
    have legible := spelled.name name named
    refine ⟨iff_of_false ?_ (Option.some_ne_none name), legible.chars⟩
    simpa using legible.nonempty

theorem Node.Spelled.segment_wellFormed (spelled : node.Spelled) : node.segment.WellFormed := by
  refine ⟨?_, fun content holds => (spelled.mark.content holds).1, ?_⟩
  · intro c member
    obtain ⟨dot, opens, closes, -⟩ := spelled.segment_name.2 c member
    exact ⟨dot, opens, closes⟩
  · by_cases named : node.name = none
    · have marked : node.mark.isElement = true := by
        simpa [isPlaceholder, named] using spelled.real
      refine .inr ?_
      rw [segment]
      cases mark : node.mark with
      | plain => simp [mark, Mark.isElement] at marked
      | element => exact Option.some_ne_none _
      | index position => exact Option.some_ne_none _
      | key k => exact Option.some_ne_none _
    · exact .inl fun empty => named (spelled.segment_name.1.mp empty)

/-- The segment of a node stands for the node that is read for it. -/
theorem Node.Spelled.node_segment (spelled : node.Spelled) : node.segment.node = node.reread := by
  have name : (if node.segment.name = [] then none else some (String.ofList node.segment.name))
      = node.name := by
    simp only [spelled.segment_name.1]
    rw [segment]
    cases node.name <;> simp
  have mark : node.segment.mark = node.mark.reread := by
    rw [Segment.mark]
    split
    · rename_i unmarked
      cases isMark : node.mark <;> simp [segment, isMark, Mark.content?] at unmarked
      rfl
    · rename_i content holds
      exact (spelled.mark.content holds).2
  rw [Segment.node, name, mark, reread]

/-! ### The path that is read -/

/-- **The written form of a path of segments is read**, node by node. -/
theorem parse_text_of_spelled (spelled : path.Spelled) :
    ∃ parsed, parse path.text = .ok parsed ∧ parsed.nodes = path.nodes.map Node.reread := by
  have accepted : Accepted (path.nodes.map Node.segment) := by
    refine ⟨by simp [nodes_ne_nil], fun segment member => ?_⟩
    obtain ⟨node, inside, rfl⟩ := List.mem_map.mp member
    exact (spelled.nodes node inside).segment_wellFormed
  have later : ∀ node ∈ path.nodes.tail, node.name ≠ none := by
    intro node member
    refine spelled.named node.name ?_
    rw [← List.map_tail]
    exact List.mem_map_of_mem member
  have named : LaterNamed (path.nodes.map Node.segment) := by
    intro segment member
    rw [← List.map_tail] at member
    obtain ⟨node, inside, rfl⟩ := List.mem_map.mp member
    have isSpelled := spelled.nodes node (List.mem_of_mem_tail inside)
    exact fun empty => later node inside (isSpelled.segment_name.1.mp empty)
  have text : path.text.toList = spell (path.nodes.map Node.segment) :=
    toList_joinNodes_nodes (fun node member => (spelled.nodes node member).real) later
  have trimmed : Text.trim path.text.toList = spell (path.nodes.map Node.segment) := by
    rw [text]
    have solid : ∀ segment ∈ path.nodes.map Node.segment, ∀ c ∈ segment.name,
        Text.isBlank c = false := by
      intro segment member c inName
      obtain ⟨node, inside, rfl⟩ := List.mem_map.mp member
      exact ((spelled.nodes node inside).segment_name.2 c inName).2.2.2
    refine trim_spell accepted ?_ ?_
    · intro first c isHead starts
      exact solid first (List.mem_of_head? isHead) c (List.mem_of_head? starts)
    · intro last c isLast _ ending
      exact solid last (List.mem_of_getLast? isLast) c (List.mem_of_getLast? ending)
  refine ⟨_, parse_of_spelled accepted trimmed, ?_⟩
  rw [nodes_of_accepted accepted, settle_of_laterNamed named, List.map_map]
  exact List.map_congr_left fun node member => (spelled.nodes node member).node_segment

/-! ### Starting with each other -/

/-- A key whose text is a number, which stands for a position. -/
def Mark.Numeric (mark : Mark) : Prop :=
  ∃ key position, mark = .key key ∧ IsPosition key.text.toList position

/-- The mark that is read for a mark goes with it both ways, unless a number has been a key. -/
theorem Mark.satisfies_reread {mark : Mark} (bracketed : mark.Bracketed) :
    (mark.satisfies mark.reread ↔ ¬ mark.Numeric)
      ∧ (mark.reread.satisfies mark ↔ ¬ mark.Numeric) := by
  cases mark with
  | plain => exact ⟨iff_of_true rfl nofun, iff_of_true rfl nofun⟩
  | element => exact ⟨iff_of_true rfl nofun, iff_of_true rfl nofun⟩
  | index position =>
    have same := Mark.satisfies_self (.index position)
    exact ⟨iff_of_true same nofun, iff_of_true same nofun⟩
  | key k =>
    have nonempty : k.text.toList.isEmpty = false := by simpa using bracketed.1
    have numeric : (Mark.key k).Numeric ↔ ∃ position, readIndex? k.text.toList = some position := by
      simp [Numeric, readIndex?_eq_some]
    rw [numeric, reread, markOfContent, nonempty]
    cases number : readIndex? k.text.toList with
    | some position => simp [satisfies_index, satisfies_key]
    | none => simp [satisfies_key]

theorem Node.Spelled.satisfies_reread (spelled : node.Spelled) :
    (node.satisfies node.reread ↔ ¬ node.mark.Numeric)
      ∧ (node.reread.satisfies node ↔ ¬ node.mark.Numeric) := by
  rw [satisfies_iff, satisfies_iff]
  have marks := Mark.satisfies_reread spelled.mark
  exact ⟨(and_iff_left (.inr rfl)).trans marks.1, (and_iff_left (.inr rfl)).trans marks.2⟩

/-- Nodes start with what is made of them one by one if each one satisfies what is made of it. -/
theorem nodesSatisfy_map (nodes : List Node) (own made : Node → Node) :
    nodesSatisfy (nodes.map own) (nodes.map made)
      ↔ ∀ node ∈ nodes, (own node).satisfies (made node) := by
  induction nodes with
  | nil => simp [nodesSatisfy]
  | cons node rest ih => simp [nodesSatisfy, ih]

/-- **The written form of a live path is read, and what is read and the live path start with each
other exactly if no text of a key is a number**; otherwise neither starts with the other. -/
theorem parse_text_of_live (live : path.Live) :
    ∃ parsed, parse path.text = .ok parsed
      ∧ (path.isSubPathOf parsed ↔ ∀ node ∈ path.nodes, ¬ node.mark.Numeric)
      ∧ (parsed.isSubPathOf path ↔ ∀ node ∈ path.nodes, ¬ node.mark.Numeric) := by
  rcases live.spelled with rfl | spelled
  · have none : ∀ node ∈ root.nodes, ¬ node.mark.Numeric := by
      rintro node member ⟨key, position, isKey, -⟩
      obtain rfl : node = .root := by simpa [nodes, root] using member
      cases isKey
    exact ⟨root, rfl, iff_of_true rfl none, iff_of_true rfl none⟩
  · obtain ⟨parsed, reads, nodes⟩ := parse_text_of_spelled spelled
    have below : parsed.isRoot = false := by
      obtain ⟨node, member, same⟩ := List.mem_map.mp (nodes ▸ parsed.leaf_mem_nodes)
      have isSpelled := spelled.nodes node member
      refine isRoot_eq_false ?_
      rw [← same, ← isSpelled.node_segment]
      exact isSpelled.segment_wellFormed.not_placeholder
    have forth := nodesSatisfy_map path.nodes id Node.reread
    have back := nodesSatisfy_map path.nodes Node.reread id
    rw [List.map_id, ← nodes] at forth back
    refine ⟨parsed, reads, ?_, ?_⟩
    · rw [isSubPathOf, below, Bool.false_or, forth]
      exact forall₂_congr fun node member => (spelled.nodes node member).satisfies_reread.1
    · rw [isSubPathOf, spelled.isRoot_eq_false, Bool.false_or, back]
      exact forall₂_congr fun node member => (spelled.nodes node member).satisfies_reread.2

/-- The path of a text under a constant in a list of maps. -/
def shelfPath : Path :=
  (((root.markLeaf (.index 3)).add "notes").markLeaf
    (.key (.entry (.enum ⟨⟨"Kind"⟩, "HOME"⟩)))).add "text"

theorem shelfPath_live : shelfPath.Live :=
  .add (by decide) (.key ⟨by decide, by decide⟩ (.add (by decide)
    (@Live.index _ (some 3) (by decide) .start)))

/-- The path of a text under a constant goes with what is read. -/
theorem parse_text_of_live_shelf :
    shelfPath.Live ∧ ∃ parsed, parse shelfPath.text = .ok parsed
      ∧ (shelfPath.isSubPathOf parsed ↔ ∀ node ∈ shelfPath.nodes, ¬ node.mark.Numeric)
      ∧ (parsed.isSubPathOf shelfPath ↔ ∀ node ∈ shelfPath.nodes, ¬ node.mark.Numeric) :=
  ⟨shelfPath_live, parse_text_of_live shelfPath_live⟩

/-- **A key whose text is a number comes back as a position**, and neither path starts with the
other. -/
theorem parse_text_of_live_numeric :
    (ofEntry "m" (.int 7)).Live
      ∧ parse (ofEntry "m" (.int 7)).text = .ok ((ofProperty "m").markLeaf (.index 7))
      ∧ ¬ (ofEntry "m" (.int 7)).isSubPathOf ((ofProperty "m").markLeaf (.index 7))
      ∧ ¬ ((ofProperty "m").markLeaf (.index 7)).isSubPathOf (ofEntry "m" (.int 7)) :=
  ⟨.key ⟨by decide, by decide⟩ (.add (by decide) .start), rfl, by decide, by decide⟩

end Path

end GraphValidation
