/-
**Evaluating built-in constraints ends without an error.**

A validator becomes part of a node only where its type is above the declared one, and after it has
been set up with the attributes of the node.  The nodes of a built-in constraint are all of built-in
constraints, also where it is a composite, since their names are taken before any other constraint
is registered.  So on a value that the declared type admits all validators of the tree answer.

* `Catalog.registered` — the built-in constraints and those that are registered after them.
* `ConstraintNode.Equipped`, `Composition.equipped_of_grow` — the nodes of a tree have the validators
  of their constraints for the declared type, set up with their attributes.
* `ConstraintNode.answering_of_build` — the validators of a built-in constraint answer.
* `Engine.evaluate_builtin` — **evaluating a built-in constraint on a value that the declared type
  admits ends without an error**.
-/
import GraphValidation.Proofs.BuiltinValidators
import GraphValidation.Proofs.Compositions
import GraphValidation.Proofs.Findings
import GraphValidation.Proofs.ValidatorChoice

namespace GraphValidation

/-! ### The constraints of a catalog -/

/-- A catalog after the registration of a definition, which may be refused. -/
def Catalog.extend (catalog : Catalog) (definition : ConstraintDefinition) : Catalog :=
  match catalog.register definition with
  | .ok later => later
  | .error _ => catalog

/-- The built-in constraints and those that are registered after them. -/
def Catalog.registered (definitions : List ConstraintDefinition) : Catalog :=
  definitions.foldl extend .builtin

namespace Catalog

variable {catalog : Catalog} {name : String} {known definition : ConstraintDefinition}

/-- A registration leaves what is known of a constraint. -/
theorem get?_extend (found : catalog.get? name = some known) :
    (catalog.extend definition).get? name = some known := by
  unfold extend register
  by_cases taken : (catalog.get? definition.name).isSome
  · rw [if_pos taken]
    exact found
  rw [if_neg taken]
  by_cases hollow : (definition.validators.isEmpty && definition.composedOf.isEmpty) = true
  · rw [if_pos hollow]
    exact found
  · rw [if_neg hollow]
    unfold get? at found ⊢
    rw [List.find?_append, found]
    rfl

theorem get?_registered (definitions : List ConstraintDefinition)
    (found : builtin.get? name = some known) : (registered definitions).get? name = some known := by
  unfold registered
  generalize builtin = catalog at found ⊢
  induction definitions generalizing catalog with
  | nil => exact found
  | cons definition rest ih => exact ih _ (get?_extend found)

/-- Built-in constraints are composed of built-in constraints. -/
theorem mem_names_of_composedOf (found : builtin.get? name = some known) :
    ∀ declared ∈ known.composedOf, declared.constraint ∈ builtin.names := by
  have closed : ∀ definition ∈ Builtin.definitions, ∀ declared ∈ definition.composedOf,
      declared.constraint ∈ builtin.names := by
    decide +kernel
  exact closed known (List.mem_of_find?_eq_some found)

theorem exists_of_mem_names (isBuiltin : name ∈ builtin.names) :
    ∃ definition ∈ Builtin.definitions, builtin.get? name = some definition := by
  obtain ⟨definition, member, named⟩ := List.mem_map.mp isBuiltin
  have found : (builtin.get? name).isSome :=
    List.find?_isSome.mpr ⟨definition, member, beq_iff_eq.mpr named⟩
  obtain ⟨first, found⟩ := Option.isSome_iff_exists.mp found
  exact ⟨first, List.mem_of_find?_eq_some found, found⟩

end Catalog

/-! ### The validators of a tree -/

/-- A node has the validator of its constraint for a type, set up with its attributes. -/
def ConstraintNode.Equipped (types : TypeSystem) (catalog : Catalog) (target : TypeKey)
    (node : ConstraintNode) : Prop :=
  ∃ definition, catalog.get? node.content.constraint = some definition
    ∧ Composition.setUpValidator types definition target node.content.attributes
      = .ok node.content.validator

namespace Composition

variable {types : TypeSystem} {catalog : Catalog} {owner target : TypeKey} {access : Option Access}
  {chain : List String} {inherited : Option Inherited} {declaration : ConstraintDeclaration}
  {node : ConstraintNode}

theorem equipped_of_buildNode
    {below : List String → Inherited → List ConstraintDeclaration →
      Except ConfigError (List ConstraintNode)}
    (built : buildNode types catalog owner target access below chain inherited declaration
      = .ok node) : node.Equipped types catalog target := by
  simp only [buildNode, bind_eq_ok] at built
  obtain ⟨definition, required, built⟩ := built
  obtain ⟨found, named⟩ := Catalog.require_eq_ok required
  split at built
  · cases built
  · simp only [bind_eq_ok] at built
    obtain ⟨-, -, validator, ready, composing, -, same⟩ := built
    cases same
    exact ⟨definition, by rw [← found, ← named]; rfl, ready⟩

/-- **All nodes of a tree have the validators of their constraints** for the type that the tree is
built for. -/
theorem equipped_of_grow
    (built : grow types catalog owner target access chain inherited declaration = .ok node) :
    ∀ part, ConstraintNode.Within part node → part.Equipped types catalog target := by
  generalize named : declaration.constraint = constraint
  induction chain, constraint using stack_induction (mem_names_of_composes catalog)
    generalizing inherited declaration node with
  | step chain constraint ih =>
    subst named
    have equipped := equipped_of_buildNode (grow_eq ▸ built)
    obtain ⟨definition, found, new, children, -⟩ := grow_eq_ok built
    obtain ⟨content, composing⟩ := node
    refine ConstraintNode.within_mk equipped fun child inside => ?_
    obtain ⟨declared, isDeclared, grown⟩ := exists_of_mem_forall₂ children.flip inside
    have composes : catalog.Composes declaration.constraint declared.constraint :=
      (composes_iff found content.attributes).mpr ⟨declared, isDeclared, rfl⟩
    exact ih new _ _ (List.perm_append_singleton _ _) composes grown rfl

/-- A validator that is set up is one whose type admits the values of the declared one. -/
theorem setUpValidator_eq_ok {definition : ConstraintDefinition} {attributes : Attributes}
    {name : String} {predicate : Predicate}
    (ready : setUpValidator types definition target attributes = .ok (some (name, predicate))) :
    ∃ candidate ∈ definition.validators, types.isAssignable candidate.supported target
      ∧ candidate.setUp attributes = .ok predicate := by
  unfold setUpValidator at ready
  split at ready
  · cases ready
  · obtain ⟨candidate, resolved, ready⟩ := bind_eq_ok.mp ready
    obtain ⟨_, isSetUp, same⟩ := bind_eq_ok.mp ready
    cases same
    have specific : candidate ∈ definition.mostSpecific types target := by
      rw [ConstraintDefinition.resolve_eq_ok.mp resolved]
      exact List.mem_singleton_self candidate
    obtain ⟨isCandidate, applies⟩ :=
      ConstraintDefinition.mem_applicable.mp (List.mem_filter.mp specific).1
    exact ⟨candidate, isCandidate, applies, isSetUp⟩

end Composition

namespace ConstraintNode

variable {definitions : List ConstraintDefinition} {node : ConstraintNode}

/-- All nodes of the tree of a built-in constraint are of built-in constraints. -/
theorem mem_names_of_within {part : ConstraintNode} (within : Within part node)
    (isBuiltin : node.content.constraint ∈ Catalog.builtin.names)
    (composed : ∀ part, Within part node → part.Composed (.registered definitions)) :
    part.content.constraint ∈ Catalog.builtin.names := by
  induction within with
  | self => exact isBuiltin
  | @inside child content composing within member ih =>
    refine ih ?_ fun below inner => composed below (.inside content composing inner member)
    obtain ⟨definition, -, known⟩ := Catalog.exists_of_mem_names isBuiltin
    obtain ⟨_, found, names, -⟩ := composed _ (.self _)
    cases Option.some.inj (found.symm.trans (Catalog.get?_registered definitions known))
    have named : child.content.constraint ∈ definition.composedOf.map (·.constraint) :=
      names ▸ List.mem_map_of_mem member
    obtain ⟨declared, inside, same⟩ := List.mem_map.mp named
    exact same ▸ Catalog.mem_names_of_composedOf known declared inside

/-- The validators of the nodes of a tree answer for a value. -/
def Answering (value : Value) (node : ConstraintNode) : Prop :=
  ∀ part, Within part node → ∀ name predicate, part.content.validator = some (name, predicate) →
    predicate.Answers value

/-- **The validators of a built-in constraint answer** for each value that the declared type
admits. -/
theorem answering_of_build {calls : List Registration} {owner target : TypeKey}
    {access : Option Access} {declaration : ConstraintDeclaration} {value : Value}
    (isBuiltin : declaration.constraint ∈ Catalog.builtin.names)
    (built : Composition.build (.registered calls) (.registered definitions) owner target access
      declaration = .ok node)
    (admits : (TypeSystem.registered calls).Admits target value) : node.Answering value := by
  intro part within name predicate equipped
  obtain ⟨_, -, named, -⟩ := Composition.made_of_grow built
  have partBuiltin := mem_names_of_within within (named ▸ isBuiltin) fun part inside =>
    (Composition.parts_of_grow built part inside).2
  obtain ⟨definition, isBuiltin, known⟩ := Catalog.exists_of_mem_names partBuiltin
  obtain ⟨_, found, ready⟩ := Composition.equipped_of_grow built part within
  cases Option.some.inj (found.symm.trans (Catalog.get?_registered definitions known))
  obtain ⟨candidate, isCandidate, applies, isSetUp⟩ :=
    Composition.setUpValidator_eq_ok (equipped ▸ ready)
  exact Builtin.serves isBuiltin candidate isCandidate _ _ isSetUp value
    (TypeSystem.admits_of_registered calls applies admits)

end ConstraintNode

/-! ### Evaluating -/

section Judging

variable (environment : Environment) (site : Site) {value : Value}

theorem judgeOwn_failure {node : ConstraintNode} (answering : node.Answering value) :
    (judgeOwn environment site value node).failure = none := by
  unfold judgeOwn
  cases own : node.content.validator with
  | none => rfl
  | some validator =>
    obtain ⟨name, predicate⟩ := validator
    obtain ⟨⟨valid, report⟩, answer⟩ := answering node (.self node) name predicate own
      environment.heap (.start node.content.template)
    dsimp only
    rw [answer]
    cases valid <;> rfl

theorem Findings.failure_andThen {first second : Findings} (firstEnds : first.failure = none)
    (secondEnds : second.failure = none) : (first.andThen second).failure = none := by
  rw [andThen, firstEnds]
  exact secondEnds

mutual

/-- A constraint whose validators answer ends without an error. -/
theorem judge_failure (place : NodePlace) (node : ConstraintNode)
    (answering : node.Answering value) :
    (judge environment site place value node).failure = none := by
  cases node with
  | mk content composing =>
    have below := judgeAll_failure place 0 composing fun child member part within =>
      answering part (.inside content composing within member)
    have own := judgeOwn_failure environment site answering
    rw [judge]
    refine Findings.failure_andThen rfl ?_
    split
    · refine Findings.failure_andThen below ?_
      split
      · exact own
      · rfl
    · exact Findings.failure_andThen below own

theorem judgeAll_failure (place : NodePlace) (index : Nat) (nodes : List ConstraintNode)
    (answering : ∀ node ∈ nodes, node.Answering value) :
    (judgeAll environment site place index value nodes).failure = none := by
  cases nodes with
  | nil => rfl
  | cons node rest =>
    rw [judgeAll]
    exact Findings.failure_andThen (judge_failure _ node (answering node List.mem_cons_self))
      (judgeAll_failure place (index + 1) rest fun later inside =>
        answering later (List.mem_cons_of_mem _ inside))

end

end Judging

/-- **Evaluating a built-in constraint on a value that the declared type admits ends without an
error**, whatever types and further constraints have been registered, and in any context. -/
theorem Engine.evaluate_builtin {calls : List Registration}
    {definitions : List ConstraintDefinition} {owner target : TypeKey} {access : Option Access}
    {declaration : ConstraintDeclaration} {node : ConstraintNode} {value : Value}
    (isBuiltin : declaration.constraint ∈ Catalog.builtin.names)
    (built : Composition.build (.registered calls) (.registered definitions) owner target access
      declaration = .ok node)
    (admits : (TypeSystem.registered calls).Admits target value) (environment : Environment)
    (place : NodePlace) (context : Context) :
    ∃ later, evaluate environment place value node context = .ok () later := by
  have answering := ConstraintNode.answering_of_build isBuiltin built admits
  have ends := judge_failure environment context.site place node answering
  refine ⟨context.noting (judge environment context.site place value node), ?_⟩
  rw [evaluate_apply, Context.concluding, ends]

/-! ### Tags -/

namespace Tags

/-- A type of collections. -/
def calls : List Registration := [.one (.ofInterface ⟨"Tags"⟩ [.collection])]

/-- A constraint of the name of a built-in one, which is refused. -/
def definitions : List ConstraintDefinition :=
  [.ofValidators "Size" [.ofPredicate "unsized" .object (.failing "no size")]]

def environment : Environment :=
  ⟨⟨[]⟩, .registered calls, .default, fun template _ _ => template, false⟩

def context : Context :=
  .start (.ofConfiguration ⟨.registered calls, .registered definitions, [], []⟩)

end Tags

/-- The empty set has no elements, and null is no collection of tags: both are found without an
error. -/
theorem Engine.evaluate_builtin_tags :
    "NotEmpty" ∈ Catalog.builtin.names
      ∧ (TypeSystem.registered Tags.calls).Admits .collection (.set [])
      ∧ (TypeSystem.registered Tags.calls).Admits ⟨"Tags"⟩ .null
      ∧ ∃ collection tags,
        Composition.build (.registered Tags.calls) (.registered Tags.definitions) .object
            .collection none (.plain "NotEmpty") = .ok collection
        ∧ Composition.build (.registered Tags.calls) (.registered Tags.definitions) .object
            ⟨"Tags"⟩ none (.plain "NotEmpty") = .ok tags
        ∧ (∃ later, Engine.evaluate Tags.environment ⟨.object, none, [0]⟩ (.set []) collection
            Tags.context = .ok () later)
        ∧ ∃ later, Engine.evaluate Tags.environment ⟨.object, none, [1]⟩ .null tags Tags.context
            = .ok () later := by
  have isBuiltin : "NotEmpty" ∈ Catalog.builtin.names := by decide +kernel
  have admitsSet : (TypeSystem.registered Tags.calls).Admits .collection (.set []) :=
    .inr ⟨trivial, by decide +kernel⟩
  have builds : ∀ target ∈ [TypeKey.collection, ⟨"Tags"⟩], (Composition.build
      (.registered Tags.calls) (.registered Tags.definitions) .object target none
      (.plain "NotEmpty")).toOption.isSome := by
    decide +kernel
  simp only [List.forall_mem_cons, Option.isSome_iff_exists] at builds
  obtain ⟨⟨collection, ofCollection⟩, ⟨tags, ofTags⟩, -⟩ := builds
  have collectionBuilt := eq_ok_of_toOption ofCollection
  have tagsBuilt := eq_ok_of_toOption ofTags
  exact ⟨isBuiltin, admitsSet, .inl rfl, collection, tags, collectionBuilt, tagsBuilt,
    Engine.evaluate_builtin isBuiltin collectionBuilt admitsSet _ _ _,
    Engine.evaluate_builtin isBuiltin tagsBuilt (.inl rfl) _ _ _⟩

end GraphValidation
