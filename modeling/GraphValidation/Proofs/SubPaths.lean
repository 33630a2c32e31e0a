/-
**Paths that start with other paths.**

A path is read as a pattern of the paths that start with it: each of its nodes asks for a name or
for any, and for an element, its position or its key or for nothing.  Every path starts with itself.
A path that starts with a second one, which starts with a third one, starts with the third one too,
unless it is for a key: a written key has only a text, and two live keys of different kinds may both
go with it, as the truth value and the text "true" do, while they do not go with each other.

* `Path.isSubPathOf_iff` — a path starts with another one if its nodes satisfy those of the other
  one, position by position.
* `Path.Blurred` — a written key stands between two different live keys.
* `Path.Mark.satisfies_trans_iff`, `Path.Node.satisfies_trans_iff` — one position of three paths.
* `Path.isSubPathOf_preorder` — **to start with a path is reflexive, and it is transitive where no
  written key blurs two live ones, and only there**.
-/
import Mathlib.Tactic.ByContra
import GraphValidation.Path.Reader

namespace GraphValidation

namespace Path

/-! ### Keys -/

namespace Key

variable {asked middle own : Key}

theorem agrees_self (key : Key) : key.agrees key := by
  cases key <;> simp [agrees]

/-- A written key goes with every key of its text. -/
@[simp] theorem written_agrees {text : String} : (written text).agrees own ↔ text = own.text := by
  cases own <;> simp [agrees, Key.text]

@[simp] theorem agrees_written {text : String} : own.agrees (written text) ↔ own.text = text := by
  cases own <;> simp [agrees, Key.text]

@[simp] theorem entry_agrees_entry {key other : MapKey} :
    (entry key).agrees (entry other) ↔ key = other := by
  simp [agrees]

theorem text_eq_of_agrees (same : asked.agrees own) : asked.text = own.text := by
  cases asked with
  | written text => exact written_agrees.mp same
  | entry key =>
    cases own with
    | written text => exact agrees_written.mp same
    | entry other => exact congrArg MapKey.text (entry_agrees_entry.mp same)

end Key

/-! ### One position of three paths -/

/-- A written key stands between two different live keys. -/
inductive Mark.Blurred : Mark → Mark → Mark → Prop
  | between {own asked : MapKey} (text : String) (different : own ≠ asked) :
    Blurred (.key (.entry own)) (.key (.written text)) (.key (.entry asked))

namespace Mark

variable {mark middle pattern : Mark}

theorem satisfies_index {position : Nat} :
    mark.satisfies (.index position) ↔ mark = .index position := by
  cases mark <;> simp [satisfies, index?]

theorem satisfies_key {asked : Key} :
    mark.satisfies (.key asked) ↔ ∃ own, mark = .key own ∧ asked.agrees own := by
  cases mark <;> simp [satisfies]

theorem satisfies_self (mark : Mark) : mark.satisfies mark := by
  cases mark with
  | plain => rfl
  | element => rfl
  | index position => exact satisfies_index.mpr rfl
  | key own => exact satisfies_key.mpr ⟨own, rfl, own.agrees_self⟩

theorem isElement_of_satisfies (satisfied : mark.satisfies pattern)
    (isElement : pattern.isElement) : mark.isElement := by
  cases pattern with
  | plain => cases isElement
  | element => exact satisfied
  | index position =>
    rw [satisfies_index.mp satisfied]
    rfl
  | key asked =>
    obtain ⟨own, rfl, -⟩ := satisfies_key.mp satisfied
    rfl

/-- Keys that go with a key in between have its text, so only the kinds of live keys can differ. -/
theorem key_trans_iff {own between asked : Key} (first : between.agrees own)
    (second : asked.agrees between) :
    asked.agrees own ↔ ¬ Blurred (.key own) (.key between) (.key asked) := by
  have texts : asked.text = own.text :=
    (Key.text_eq_of_agrees second).trans (Key.text_eq_of_agrees first)
  constructor
  · rintro same ⟨text, different⟩
    exact different (Key.entry_agrees_entry.mp same).symm
  · intro clear
    cases own with
    | written text => exact Key.agrees_written.mpr texts
    | entry own =>
      cases asked with
      | written text => exact Key.written_agrees.mpr texts
      | entry asked =>
        cases between with
        | entry between =>
          rw [Key.entry_agrees_entry] at first second ⊢
          exact second.trans first
        | written text =>
          by_contra differ
          exact clear (.between text fun same => differ (Key.entry_agrees_entry.mpr same.symm))

/-- **What satisfies a mark satisfies what that one satisfies**, unless a written key blurs two live
ones. -/
theorem satisfies_trans_iff (first : mark.satisfies middle) (second : middle.satisfies pattern) :
    mark.satisfies pattern ↔ ¬ mark.Blurred middle pattern := by
  cases pattern with
  | plain => exact iff_of_true rfl nofun
  | element => exact iff_of_true (isElement_of_satisfies first second) nofun
  | index position =>
    obtain rfl := satisfies_index.mp second
    exact iff_of_true first nofun
  | key asked =>
    obtain ⟨between, rfl, onward⟩ := satisfies_key.mp second
    obtain ⟨own, rfl, back⟩ := satisfies_key.mp first
    exact key_trans_iff back onward

end Mark

namespace Node

variable {node middle pattern : Node}

theorem satisfies_iff : node.satisfies pattern
    ↔ node.mark.satisfies pattern.mark ∧ (pattern.name = none ∨ pattern.name = node.name) := by
  simp [satisfies]

theorem satisfies_self (node : Node) : node.satisfies node :=
  satisfies_iff.mpr ⟨node.mark.satisfies_self, .inr rfl⟩

theorem satisfies_trans_iff (first : node.satisfies middle) (second : middle.satisfies pattern) :
    node.satisfies pattern ↔ ¬ node.mark.Blurred middle.mark pattern.mark := by
  rw [satisfies_iff] at first second ⊢
  have named : pattern.name = none ∨ pattern.name = node.name := by
    rcases second.2 with any | same
    · exact .inl any
    · exact same ▸ first.2
  rw [and_iff_left named]
  exact Mark.satisfies_trans_iff first.1 second.1

/-- Only a node that says nothing is satisfied by a node that says nothing. -/
theorem isPlaceholder_of_satisfies (satisfied : node.satisfies pattern)
    (silent : node.isPlaceholder = true) : pattern.isPlaceholder = true := by
  obtain ⟨name, mark⟩ := node
  obtain ⟨asked, wanted⟩ := pattern
  obtain ⟨marks, names⟩ := satisfies_iff.mp satisfied
  obtain ⟨rfl, plain⟩ : name = none ∧ mark.isElement = false := by
    simpa [isPlaceholder] using silent
  have anyName : asked = none := names.elim id id
  have anyMark : wanted.isElement = false := by
    by_contra isElement
    have marked := Mark.isElement_of_satisfies marks (by simpa using isElement)
    simp [plain] at marked
  simp [isPlaceholder, anyName, anyMark]

end Node

/-! ### Whole paths -/

variable {path middle start : Path}

/-- Nodes start with patterns if they satisfy them, position by position. -/
theorem nodesSatisfy_iff {nodes patterns : List Node} : nodesSatisfy nodes patterns
    ↔ ∀ (i : Nat) (pattern : Node), patterns[i]? = some pattern → ∃ node : Node,
      nodes[i]? = some node ∧ node.satisfies pattern := by
  induction patterns generalizing nodes with
  | nil => simp [nodesSatisfy]
  | cons pattern patterns ih =>
    cases nodes with
    | nil =>
      refine iff_of_false nofun fun satisfied => ?_
      obtain ⟨node, found, -⟩ := satisfied 0 pattern rfl
      cases found
    | cons node nodes =>
      rw [nodesSatisfy, Bool.and_eq_true, ih]
      constructor
      · rintro ⟨first, later⟩ i other found
        cases i with
        | zero => exact ⟨node, rfl, by cases found; exact first⟩
        | succ i => exact later i other found
      · intro satisfied
        obtain ⟨_, ⟨⟩, first⟩ := satisfied 0 pattern rfl
        exact ⟨first, fun i other found => satisfied (i + 1) other found⟩

/-- **A path starts with another one if its nodes satisfy those of the other one**, position by
position; every path starts with the root. -/
theorem isSubPathOf_iff : path.isSubPathOf start ↔ start.isRoot
    ∨ ∀ (i : Nat) (pattern : Node), start.nodes[i]? = some pattern → ∃ node : Node,
      path.nodes[i]? = some node ∧ node.satisfies pattern := by
  rw [isSubPathOf, Bool.or_eq_true, nodesSatisfy_iff]

theorem nodes_of_isRoot (isRoot : path.isRoot) : path.nodes = [path.leaf]
    ∧ path.leaf.isPlaceholder := by
  obtain ⟨leaf, above⟩ := path
  obtain ⟨empty, silent⟩ : above = [] ∧ leaf.isPlaceholder = true := by
    simpa [Path.isRoot] using isRoot
  simp [nodes, empty, silent]

/-- Only the root is the start of the root. -/
theorem isRoot_of_isSubPathOf (starts : middle.isSubPathOf start) (isRoot : middle.isRoot) :
    start.isRoot := by
  rcases isSubPathOf_iff.mp starts with already | satisfied
  · exact already
  · obtain ⟨single, silent⟩ := nodes_of_isRoot isRoot
    rw [single] at satisfied
    -- A second node of the start would stand at a position that the root does not have.
    have alone : start.above = [] := by
      by_contra more
      have second : 1 < start.nodes.length := by
        simpa [nodes, Nat.pos_iff_ne_zero] using more
      obtain ⟨node, found, -⟩ := satisfied 1 _ (List.getElem?_eq_getElem second)
      cases found
    have first : start.nodes[0]? = some start.leaf := by simp [nodes, alone]
    obtain ⟨_, ⟨⟩, leaves⟩ := satisfied 0 start.leaf first
    simp [Path.isRoot, alone, Node.isPlaceholder_of_satisfies leaves silent]

/-- Somewhere a written key of the path in the middle stands between two different live keys. -/
def Blurred (path middle start : Path) : Prop :=
  ∃ (i : Nat) (node between pattern : Node), path.nodes[i]? = some node
    ∧ middle.nodes[i]? = some between ∧ start.nodes[i]? = some pattern
    ∧ node.mark.Blurred between.mark pattern.mark

theorem not_blurred_of_isRoot (isRoot : start.isRoot) : ¬ path.Blurred middle start := by
  rintro ⟨i, node, between, pattern, -, -, isPattern, blurred⟩
  obtain ⟨single, silent⟩ := nodes_of_isRoot isRoot
  obtain rfl : start.leaf = pattern := by
    have member := List.mem_of_getElem? isPattern
    simpa [single, eq_comm] using member
  generalize start.leaf = pattern at silent blurred
  obtain ⟨name, mark⟩ := pattern
  generalize node.mark = own, between.mark = middle at blurred
  cases blurred
  simp [Node.isPlaceholder, Mark.isElement] at silent

theorem isSubPathOf_self (path : Path) : path.isSubPathOf path :=
  isSubPathOf_iff.mpr (.inr fun _ node found => ⟨node, found, node.satisfies_self⟩)

/-- Paths start with what their starts start with, unless a written key blurs two live ones. -/
theorem isSubPathOf_trans_iff (first : path.isSubPathOf middle)
    (second : middle.isSubPathOf start) :
    path.isSubPathOf start ↔ ¬ path.Blurred middle start := by
  by_cases isRoot : start.isRoot
  · exact iff_of_true (isSubPathOf_iff.mpr (.inl isRoot)) (not_blurred_of_isRoot isRoot)
  have inside := (isSubPathOf_iff.mp second).resolve_left isRoot
  have outside := (isSubPathOf_iff.mp first).resolve_left fun middleIsRoot =>
    isRoot (isRoot_of_isSubPathOf second middleIsRoot)
  rw [isSubPathOf_iff, or_iff_right isRoot]
  constructor
  · rintro satisfied ⟨i, node, between, pattern, isNode, isBetween, isPattern, blurred⟩
    obtain ⟨_, here, reaches⟩ := satisfied i pattern isPattern
    obtain ⟨_, there, onward⟩ := inside i pattern isPattern
    obtain ⟨_, again, back⟩ := outside i between isBetween
    obtain rfl := Option.some.inj (here.symm.trans isNode)
    obtain rfl := Option.some.inj (there.symm.trans isBetween)
    obtain rfl := Option.some.inj (again.symm.trans here)
    exact (Node.satisfies_trans_iff back onward).mp reaches blurred
  · intro clear i pattern isPattern
    obtain ⟨between, isBetween, onward⟩ := inside i pattern isPattern
    obtain ⟨node, isNode, back⟩ := outside i between isBetween
    refine ⟨node, isNode, (Node.satisfies_trans_iff back onward).mpr fun blurred => ?_⟩
    exact clear ⟨i, node, between, pattern, isNode, isBetween, isPattern, blurred⟩

/-- **To start with a path is reflexive, and it is transitive where no written key blurs two live
ones, and only there.** -/
theorem isSubPathOf_preorder :
    (∀ path : Path, path.isSubPathOf path)
    ∧ ∀ path middle start : Path, path.isSubPathOf middle → middle.isSubPathOf start →
      (path.isSubPathOf start ↔ ¬ path.Blurred middle start) :=
  ⟨isSubPathOf_self, fun _ _ _ => isSubPathOf_trans_iff⟩

/-- The path of an order line starts with that of any line, and so with that of the orders. -/
theorem isSubPathOf_preorder_lines :
    ∃ line anyLine orders : Path, parse "orders[3].lines[abc].sku" = .ok line
      ∧ parse "orders[].lines[abc]" = .ok anyLine ∧ parse "orders" = .ok orders
      ∧ line.isSubPathOf anyLine ∧ anyLine.isSubPathOf orders
      ∧ (line.isSubPathOf orders ↔ ¬ line.Blurred anyLine orders) := by
  refine ⟨_, _, _, rfl, rfl, rfl, ?_, ?_, isSubPathOf_preorder.2 _ _ _ ?_ ?_⟩
  all_goals decide

/-- The path of an entry of a map. -/
def ofEntry (name : String) (key : MapKey) : Path := (ofProperty name).markLeaf (.key (.entry key))

/-- **A written key blurs two live ones**: the path of the entry under the truth value starts with
`m[true]`, which starts with the path of the entry under the text, and does not start with that. -/
theorem isSubPathOf_blurred :
    parse "m[true]" = .ok ((ofProperty "m").markLeaf (.key (.written "true")))
      ∧ (ofEntry "m" (.bool true)).isSubPathOf ((ofProperty "m").markLeaf (.key (.written "true")))
      ∧ ((ofProperty "m").markLeaf (.key (.written "true"))).isSubPathOf
        (ofEntry "m" (.string "true"))
      ∧ ¬ (ofEntry "m" (.bool true)).isSubPathOf (ofEntry "m" (.string "true")) :=
  ⟨rfl, by decide, by decide, by decide⟩

end Path

end GraphValidation
