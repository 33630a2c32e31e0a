/-
**Attributes that are handed down.**

The attributes of a constraint that another one is composed of come in layers.  On top are those
that the composite hands down by its overrides, then those that the composing declaration sets, and
below them the defaults of the constraint.  What a composite hands down are its own attributes with
all their layers, so a value can come down from any height of the composition.

* `AttributeOverride.Hands` — an override hands a value down to an attribute of one composing
  constraint.
* `ConstraintDefinition.HandsDown` — the last override that hands a value down decides.
* `ConstraintNode.Completes`, `ConstraintNode.Layered` — a node has the attributes that are declared
  and the defaults; the nodes below it have theirs in layers.
* `Composition.build_layers` — **the attributes of all nodes of a tree come in layers**.
-/
import GraphValidation.Proofs.Compositions

namespace GraphValidation

/-- An override hands a value down to an attribute of the composing constraint with a name and a
position among those of that name. -/
structure AttributeOverride.Hands (override : AttributeOverride) (composite : Attributes)
    (constraint : String) (position : Nat) (target : String) (value : AttributeValue) : Prop where
  constraint : override.constraint = constraint
  index : override.index = none ∨ override.index = some position
  target : override.target = target
  source : composite.get? override.source = some value

/-- A value is handed down to an attribute of a composing constraint: by an override after which no
other one hands down anything to it. -/
def ConstraintDefinition.HandsDown (overrides : List AttributeOverride) (composite : Attributes)
    (constraint : String) (position : Nat) (target : String) (value : AttributeValue) : Prop :=
  ∃ before override after, overrides = before ++ override :: after
    ∧ override.Hands composite constraint position target value
    ∧ ∀ later ∈ after, ∀ other, ¬ later.Hands composite constraint position target other

/-- The attributes of a node are those of its declaration, else the defaults of its constraint. -/
def ConstraintNode.Completes (catalog : Catalog) (declaration : ConstraintDeclaration)
    (node : ConstraintNode) : Prop :=
  ∃ own, catalog.get? declaration.constraint = some own
    ∧ node.content.constraint = declaration.constraint
    ∧ ∀ name, node.content.attributes.get? name
      = (declaration.attributes.get? name).or (own.defaults.get? name)

/-- The nodes below a node have their attributes in layers: what is handed down to them, else what
is declared, else the defaults. -/
def ConstraintNode.Layered (catalog : Catalog) (node : ConstraintNode) : Prop :=
  ∃ definition, catalog.get? node.content.constraint = some definition
    ∧ node.composing.length = definition.composedOf.length
    ∧ ∀ before declared after, definition.composedOf = before ++ declared :: after →
      ∃ child own, node.composing[before.length]? = some child
        ∧ child.content.constraint = declared.constraint
        ∧ catalog.get? declared.constraint = some own
        ∧ ∀ target,
          let position := before.countP (·.constraint = declared.constraint)
          (∀ value, ConstraintDefinition.HandsDown definition.overrides node.content.attributes
              declared.constraint position target value →
            child.content.attributes.get? target = some value)
          ∧ ((∀ value, ¬ ConstraintDefinition.HandsDown definition.overrides
              node.content.attributes declared.constraint position target value) →
            child.content.attributes.get? target
              = (declared.attributes.get? target).or (own.defaults.get? target))

/-! ### Overrides -/

section Overrides

variable {override : AttributeOverride} {overrides : List AttributeOverride}
  {composite attributes : Attributes} {constraint target : String} {position : Nat}
  {value : AttributeValue}

namespace AttributeOverride

theorem reaches_iff : override.reaches constraint position
    ↔ override.constraint = constraint
      ∧ (override.index = none ∨ override.index = some position) := by
  simp only [reaches, Bool.and_eq_true, Bool.or_eq_true, beq_iff_eq, Option.isNone_iff_eq_none]

/-- An override that hands a value down sets it. -/
theorem get?_apply_of_hands (hands : override.Hands composite constraint position target value) :
    (override.apply composite constraint position attributes).get? target = some value := by
  rw [apply, if_pos (reaches_iff.mpr ⟨hands.constraint, hands.index⟩), hands.source, hands.target]
  simp [Attributes.get?_insert]

/-- An override that hands nothing down to an attribute leaves it. -/
theorem get?_apply_of_idle
    (idle : ∀ value, ¬ override.Hands composite constraint position target value) :
    (override.apply composite constraint position attributes).get? target
      = attributes.get? target := by
  unfold apply
  split
  · next reaches =>
    obtain ⟨named, placed⟩ := reaches_iff.mp reaches
    split
    · next value found =>
      rw [Attributes.get?_insert, if_neg]
      exact fun same => idle value ⟨named, placed, (eq_of_beq same).symm, found⟩
    · rfl
  · rfl

/-- Overrides that hand nothing down to an attribute leave it. -/
theorem get?_foldl_of_idle (idle : ∀ override ∈ overrides, ∀ value,
      ¬ override.Hands composite constraint position target value) :
    (overrides.foldl (fun attributes override =>
        override.apply composite constraint position attributes) attributes).get? target
      = attributes.get? target := by
  induction overrides generalizing attributes with
  | nil => rfl
  | cons first rest ih =>
    rw [List.foldl_cons, ih fun override later => idle override (List.mem_cons_of_mem _ later)]
    exact get?_apply_of_idle (idle first List.mem_cons_self)

end AttributeOverride

namespace ConstraintDefinition

variable {definition : ConstraintDefinition}

/-- What is handed down is set. -/
theorem get?_of_handsDown
    (hands : HandsDown definition.overrides composite constraint position target value) :
    (definition.overrideAttributes composite constraint position attributes).get? target
      = some value := by
  obtain ⟨before, override, after, split, here, later⟩ := hands
  rw [overrideAttributes, split, List.foldl_append, List.foldl_cons,
    AttributeOverride.get?_foldl_of_idle later]
  exact AttributeOverride.get?_apply_of_hands here

/-- Of overrides that hand something down there is a last one. -/
theorem idle_of_not_handsDown
    (none : ∀ value, ¬ HandsDown overrides composite constraint position target value) :
    ∀ override ∈ overrides, ∀ value,
      ¬ override.Hands composite constraint position target value := by
  induction overrides with
  | nil => exact nofun
  | cons first rest ih =>
    have later := ih fun value ⟨before, override, after, split, here, idle⟩ =>
      none value ⟨first :: before, override, after, by rw [split]; rfl, here, idle⟩
    intro override member value hands
    rcases List.mem_cons.mp member with rfl | inside
    · exact none value ⟨[], override, rest, rfl, hands, later⟩
    · exact later override inside value hands

/-- Where nothing is handed down, an attribute stays as it is. -/
theorem get?_of_not_handsDown
    (none : ∀ value, ¬ HandsDown definition.overrides composite constraint position target value) :
    (definition.overrideAttributes composite constraint position attributes).get? target
      = attributes.get? target :=
  AttributeOverride.get?_foldl_of_idle (idle_of_not_handsDown none)

end ConstraintDefinition

end Overrides

/-! ### Composing declarations -/

namespace Composition

/-- A composing declaration is overridden at its position among those of its name. -/
theorem getElem?_overrideAll (definition : ConstraintDefinition) (attributes : Attributes)
    (names : List String) (before : List ConstraintDeclaration) (declared : ConstraintDeclaration)
    (after : List ConstraintDeclaration) :
    (overrideAll definition attributes names (before ++ declared :: after))[before.length]?
      = some (definition.override attributes
          (names.count declared.constraint
            + before.countP (·.constraint = declared.constraint)) declared) := by
  induction before generalizing names with
  | nil => simp [overrideAll]
  | cons first rest ih =>
    rw [List.cons_append, overrideAll, List.length_cons, List.getElem?_cons_succ, ih,
      List.count_cons, List.countP_cons]
    simp only [beq_iff_eq, decide_eq_true_iff]
    congr 2
    omega

theorem length_overrideAll (definition : ConstraintDefinition) (attributes : Attributes)
    (names : List String) (declarations : List ConstraintDeclaration) :
    (overrideAll definition attributes names declarations).length = declarations.length := by
  have lengths := congrArg List.length (map_overrideAll definition attributes names declarations)
  rwa [List.length_map, List.length_map] at lengths

/-- What has a partner at its place in a list of partners. -/
theorem exists_getElem?_of_forall₂ {α β : Type} {related : α → β → Prop} {items : List α}
    {others : List β} (partners : List.Forall₂ related items others) {place : Nat} {item : α}
    (found : items[place]? = some item) :
    ∃ other, others[place]? = some other ∧ related item other := by
  induction partners generalizing place with
  | nil => cases found
  | cons here _ ih =>
    cases place with
    | zero =>
      cases found
      exact ⟨_, rfl, here⟩
    | succ place => exact ih found

/-- A node that is composed as its constraint is has nodes below it with attributes in layers. -/
theorem layered_of_composed {catalog : Catalog} {node : ConstraintNode}
    (composed : node.Composed catalog) : node.Layered catalog := by
  obtain ⟨definition, found, -, made⟩ := composed
  refine ⟨definition, found, ?_, fun before declared after split => ?_⟩
  · rw [← made.length_eq, length_overrideAll]
  · have placed := getElem?_overrideAll definition node.content.attributes [] before declared after
    rw [List.count_nil, Nat.zero_add, ← split] at placed
    obtain ⟨child, isChild, own, known, named, complete, -⟩ :=
      exists_getElem?_of_forall₂ made placed
    refine ⟨child, own, isChild, named, known, fun target => ?_⟩
    refine ⟨fun value hands => ?_, fun none => ?_⟩
    · rw [complete, Attributes.get?_mergeDefaults]
      exact Option.or_eq_some_iff.mpr (.inl (ConstraintDefinition.get?_of_handsDown hands))
    · rw [complete, Attributes.get?_mergeDefaults]
      exact congrArg (Option.or · _) (ConstraintDefinition.get?_of_not_handsDown none)

/-- **The attributes of all nodes of a tree come in layers**: at its top what is declared and the
defaults, and below each node what that hands down, what is declared and the defaults. -/
theorem build_layers {types : TypeSystem} {catalog : Catalog} {owner target : TypeKey}
    {access : Option Access} {declaration : ConstraintDeclaration} {node : ConstraintNode}
    (built : build types catalog owner target access declaration = .ok node) :
    node.Completes catalog declaration
      ∧ ∀ part, ConstraintNode.Within part node → part.Layered catalog := by
  obtain ⟨own, known, named, complete, -⟩ := made_of_grow built
  refine ⟨⟨own, known, named, fun name => ?_⟩, fun part within => ?_⟩
  · rw [complete, Attributes.get?_mergeDefaults]
  · exact layered_of_composed (parts_of_grow built part within).2

end Composition

/-! ### A tower of compositions -/

namespace Tower

def leaf : ConstraintDefinition :=
  .ofValidators "Leaf" [.ofPredicate "leaf" .object (.test fun _ => .ok true)]

/-- Two leaves: the first one takes over the limit, the second one has a value of its own. -/
def branch : ConstraintDefinition where
  name := "Branch"
  validators := []
  composedOf := [.plain "Leaf", { ConstraintDeclaration.plain "Leaf" with
    attributes := .ofList [("value", .int 5)] }]
  single := false
  message := ""
  defaults := .ofList [("limit", .int 2)]
  overrides := [⟨"limit", "Leaf", some 0, "value"⟩]

/-- Two branches: the second one takes over the most, for the last override that reaches it says so
and the one after that speaks of an attribute that is not set. -/
def trunk : ConstraintDefinition where
  name := "Trunk"
  validators := []
  composedOf := [.plain "Branch", { ConstraintDeclaration.plain "Branch" with
    attributes := .ofList [("limit", .int 3)] }]
  single := false
  message := ""
  defaults := .ofList [("least", .int 1), ("most", .int 9)]
  overrides := [⟨"least", "Branch", some 1, "limit"⟩, ⟨"most", "Branch", some 1, "limit"⟩,
    ⟨"none", "Branch", none, "limit"⟩]

def catalog : Catalog := ⟨[leaf, branch, trunk]⟩

/-- The values of all leaves. -/
def values (node : ConstraintNode) : List (Option Int64) :=
  node.composing.flatMap fun branch => branch.composing.map (·.content.attributes.int? "value")

end Tower

/-- The most of a trunk comes down to a leaf of its second branch. -/
theorem build_layers_tower :
    ∃ node, Composition.build .builtin Tower.catalog .object .object none (.plain "Trunk")
        = .ok node
      ∧ node.Completes Tower.catalog (.plain "Trunk")
      ∧ (∀ part, ConstraintNode.Within part node → part.Layered Tower.catalog)
      ∧ Tower.values node = [some 2, some 5, some 9, some 5] := by
  have evaluated : (Composition.build .builtin Tower.catalog .object .object none
      (.plain "Trunk")).toOption.map Tower.values = some [some 2, some 5, some 9, some 5] := by
    decide +kernel
  obtain ⟨node, built, values⟩ := Option.map_eq_some_iff.mp evaluated
  have succeeds := eq_ok_of_toOption built
  obtain ⟨completes, layered⟩ := Composition.build_layers succeeds
  exact ⟨node, succeeds, completes, layered, values⟩

end GraphValidation
