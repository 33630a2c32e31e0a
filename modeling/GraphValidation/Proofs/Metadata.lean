/-
**What can be relied on in metadata.**

Metadata that a configuration builds has each property once; a constraint of a property reads that
property, with all constraints that it is composed of, and a constraint of the type itself reads
nothing.  The default group of a class is redefined by the sequence that is declared for it.

* `MetaBean.WellFormed` — what holds of metadata that was built.
* `Configuration.Redeclares` — what one more declaration of a property does.
* `Configuration.build_wellFormed` — **built metadata is well formed**.
* `Configuration.groupSequence_eq_of_build` — the sequence of a class is the declared one.
-/
import Mathlib.Data.List.Nodup
import GraphValidation.Metadata.Builder

namespace GraphValidation

/-! ### Well-formed metadata -/

/-- An access reads the property of a name. -/
def Access.Reads (name : String) : Access → Prop
  | .field own _ => own = name
  | .getter own _ => own = name
  | _ => False

/-- A node in the tree of another one. -/
inductive ConstraintNode.Within : ConstraintNode → ConstraintNode → Prop
  | self (node : ConstraintNode) : Within node node
  | inside {part child : ConstraintNode} (content : NodeContent) (composing : List ConstraintNode) :
    Within part child → child ∈ composing → Within part (.mk content composing)

/-- All nodes of a tree read their value in one way. -/
def ConstraintNode.ReadsBy (access : Option Access) (node : ConstraintNode) : Prop :=
  ∀ part, Within part node → part.content.access = access

/-- What holds of a property of built metadata. -/
structure MetaProperty.WellFormed (property : MetaProperty) : Prop where
  constraints : ∀ node ∈ property.constraints, ∃ access : Access,
    access.Reads property.name ∧ node.ReadsBy (some access)
  accesses : ∀ access ∈ property.cascadeAccesses, access.Reads property.name

/-- What holds of built metadata. -/
structure MetaBean.WellFormed (metadata : MetaBean) : Prop where
  names : (metadata.properties.map (·.name)).Nodup
  properties : ∀ property ∈ metadata.properties, property.WellFormed
  constraints : ∀ node ∈ metadata.constraints, node.ReadsBy none

/-- A property is known by its name. -/
theorem MetaBean.WellFormed.property?_of_mem {metadata : MetaBean} {property : MetaProperty}
    (wellFormed : metadata.WellFormed) (member : property ∈ metadata.properties) :
    metadata.property? property.name = some property := by
  cases found : metadata.property? property.name with
  | none =>
    have differs := List.find?_eq_none.mp found property member
    simp at differs
  | some other =>
    have name : other.name = property.name := by simpa using List.find?_some found
    have inside := List.mem_of_find?_eq_some found
    rw [List.inj_on_of_nodup_map wellFormed.names inside member name]

/-- Adding an element to a list adds it, and nothing else. -/
theorem mem_addOnce {α : Type} [BEq α] [LawfulBEq α] {items : List α} {item other : α} :
    other ∈ addOnce items item ↔ other ∈ items ∨ other = item := by
  unfold addOnce
  by_cases known : items.contains item = true
  · rw [if_pos known]
    refine ⟨.inl, fun either => either.elim id fun same => ?_⟩
    rw [same]
    exact List.contains_iff_mem.mp known
  · rw [if_neg known, List.mem_append, List.mem_singleton]

theorem nodup_addOnce {α : Type} [BEq α] [LawfulBEq α] {items : List α} (nodup : items.Nodup)
    (item : α) : (addOnce items item).Nodup := by
  unfold addOnce
  by_cases known : items.contains item
  · rw [if_pos known]
    exact nodup
  · rw [if_neg known]
    have new : item ∉ items := by simpa using known
    exact List.nodup_append.mpr ⟨nodup, by simp, by
      rintro a inside b isItem rfl
      exact new (List.mem_singleton.mp isItem ▸ inside)⟩

theorem mem_foldl_addOnce {α : Type} [BEq α] [LawfulBEq α] {items more : List α} {other : α} :
    other ∈ more.foldl addOnce items ↔ other ∈ items ∨ other ∈ more := by
  induction more generalizing items with
  | nil => simp
  | cons item rest ih =>
    rw [List.foldl_cons, ih, mem_addOnce, List.mem_cons, or_assoc]

theorem nodup_foldl_addOnce {α : Type} [BEq α] [LawfulBEq α] {items : List α} (nodup : items.Nodup)
    (more : List α) : (more.foldl addOnce items).Nodup := by
  induction more generalizing items with
  | nil => exact nodup
  | cons item rest ih => exact ih (nodup_addOnce nodup item)

/-! ### Steps that may fail -/

section Except

variable {ε α β : Type}

/-- A step that succeeds after another one. -/
theorem bind_eq_ok {step : Except ε α} {next : α → Except ε β} {result : β} :
    (step >>= next) = .ok result ↔ ∃ a, step = .ok a ∧ next a = .ok result := by
  cases step with
  | error error => exact ⟨nofun, fun ⟨_, failed, _⟩ => nomatch failed⟩
  | ok a => exact ⟨fun ok => ⟨a, rfl, ok⟩, fun ⟨_, same, ok⟩ => by cases same; exact ok⟩

/-- A step that fails, or one that fails after it. -/
theorem bind_eq_error {step : Except ε α} {next : α → Except ε β} {error : ε} :
    (step >>= next) = .error error
      ↔ step = .error error ∨ ∃ a, step = .ok a ∧ next a = .error error := by
  cases step <;> simp [bind, Except.bind]

/-- What each step of a fold keeps holds after the fold. -/
theorem foldlM_keeps {step : β → α → Except ε β} {kept : β → Prop} (items : List α)
    (keeps : ∀ before item after, kept before → step before item = .ok after → kept after)
    {first last : β} (holds : kept first) (folded : items.foldlM step first = .ok last) :
    kept last := by
  induction items generalizing first with
  | nil =>
    cases folded
    exact holds
  | cons item rest ih =>
    rw [List.foldlM_cons, bind_eq_ok] at folded
    obtain ⟨middle, stepped, folded⟩ := folded
    exact ih (keeps first item middle holds stepped) folded

theorem eq_ok_of_toOption {step : Except ε α} {a : α} (succeeded : step.toOption = some a) :
    step = .ok a := by
  cases step with
  | error error => cases succeeded
  | ok b =>
    cases succeeded
    rfl

end Except

/-- A sequence that may redefine a default group is kept as it stands. -/
theorem checkDefaultSequence_eq_ok {host : TypeKey} {sequence checked : List TypeKey}
    (accepted : checkDefaultSequence host sequence = .ok checked) : checked = sequence := by
  unfold checkDefaultSequence at accepted
  split at accepted
  · cases accepted
  · split at accepted
    · cases accepted
    · split at accepted
      · cases accepted
      · cases accepted
        rfl

namespace TypeSystem

variable {types : TypeSystem} {key : TypeKey} {info : TypeInfo}

theorem require_eq_ok : types.require key = .ok info ↔ types.get? key = some info := by
  unfold require
  cases types.get? key <;> simp

theorem require_eq_error {error : ConfigError} :
    types.require key = .error error ↔ types.get? key = none ∧ error = .unknownType key := by
  unfold require
  cases types.get? key <;> simp [eq_comm]

theorem contains_of_require (known : types.require key = .ok info) : types.contains key := by
  rw [contains, require_eq_ok.mp known]
  rfl

theorem key_of_require (known : types.require key = .ok info) : info.key = key := by
  simpa using List.find?_some (require_eq_ok.mp known)

theorem isInterface_of_require (known : types.require key = .ok info) :
    types.isInterface key = info.isInterface := by
  rw [isInterface, require_eq_ok.mp known]

end TypeSystem

theorem Catalog.require_eq_ok {catalog : Catalog} {name : String}
    {definition : ConstraintDefinition} (known : catalog.require name = .ok definition) :
    catalog.get? name = some definition ∧ definition.name = name := by
  unfold require at known
  split at known
  · next found =>
    cases known
    exact ⟨found, by simpa using List.find?_some found⟩
  · cases known

/-- Each result comes from a step. -/
theorem Composition.mem_of_collect {α β : Type} {step : α → Except ConfigError β} {items : List α}
    {results : List β} (collected : collect step items = .ok results) {b : β}
    (member : b ∈ results) : ∃ a ∈ items, step a = .ok b := by
  induction items generalizing results with
  | nil =>
    cases collected
    cases member
  | cons item rest ih =>
    simp only [collect, bind_eq_ok] at collected
    obtain ⟨first, stepped, others, collected, same⟩ := collected
    cases same
    cases member with
    | head => exact ⟨item, List.mem_cons_self, stepped⟩
    | tail _ member =>
      obtain ⟨a, later, found⟩ := ih collected member
      exact ⟨a, List.mem_cons_of_mem _ later, found⟩

/-- A failure comes from a step. -/
theorem Composition.collect_eq_error {α β : Type} {step : α → Except ConfigError β} {items : List α}
    {error : ConfigError} (failed : collect step items = .error error) :
    ∃ item ∈ items, step item = .error error := by
  induction items with
  | nil => cases failed
  | cons item rest ih =>
    unfold collect at failed
    rcases bind_eq_error.mp failed with here | ⟨_, -, failed⟩
    · exact ⟨item, List.mem_cons_self, here⟩
    rcases bind_eq_error.mp failed with later | ⟨_, -, done⟩
    · obtain ⟨other, inside, fails⟩ := ih later
      exact ⟨other, List.mem_cons_of_mem _ inside, fails⟩
    · cases done

/-! ### Building -/

/-- What holds of the root of a tree and of the trees below it holds of all nodes. -/
theorem ConstraintNode.within_mk {holds : ConstraintNode → Prop} {content : NodeContent}
    {composing : List ConstraintNode} (root : holds (.mk content composing))
    (below : ∀ child ∈ composing, ∀ part, Within part child → holds part) :
    ∀ part, Within part (.mk content composing) → holds part := by
  intro part within
  cases within with
  | self => exact root
  | inside _ _ inner member => exact below _ member part inner

namespace Composition

variable {types : TypeSystem} {catalog : Catalog} {owner target : TypeKey} {access : Option Access}

/-- The root of a built tree is of the declared constraint, and all its nodes belong to the type and
to the access that the tree is built for. -/
theorem buildNode_content
    {below : List String → Inherited → List ConstraintDeclaration →
      Except ConfigError (List ConstraintNode)}
    {chain : List String} {inherited : Option Inherited} {declaration : ConstraintDeclaration}
    {node : ConstraintNode}
    (builtBelow : ∀ chain inherited declarations nodes,
      below chain inherited declarations = .ok nodes → ∀ child ∈ nodes, ∀ part,
        ConstraintNode.Within part child →
          part.content.owner = owner ∧ part.content.access = access)
    (built : buildNode types catalog owner target access below chain inherited declaration
      = .ok node) :
    node.content.constraint = declaration.constraint ∧ ∀ part, ConstraintNode.Within part node →
      part.content.owner = owner ∧ part.content.access = access := by
  simp only [buildNode, bind_eq_ok] at built
  obtain ⟨definition, required, built⟩ := built
  have named := (Catalog.require_eq_ok required).2
  split at built
  · cases built
  · simp only [bind_eq_ok] at built
    obtain ⟨-, -, validator, -, composing, collected, same⟩ := built
    cases same
    exact ⟨named, ConstraintNode.within_mk ⟨rfl, rfl⟩ (builtBelow _ _ _ _ collected)⟩

theorem buildBelow_content {fuel : Nat} {chain : List String} {inherited : Option Inherited}
    {declaration : ConstraintDeclaration} {node : ConstraintNode}
    (built : buildBelow types catalog owner target access fuel chain inherited declaration
      = .ok node) :
    node.content.constraint = declaration.constraint ∧ ∀ part, ConstraintNode.Within part node →
      part.content.owner = owner ∧ part.content.access = access := by
  induction fuel generalizing chain inherited declaration node with
  | zero =>
    refine buildNode_content (fun _ _ _ nodes none => ?_) built
    cases none
    exact nofun
  | succ fuel ih =>
    refine buildNode_content (fun _ _ _ nodes collected child member => ?_) built
    obtain ⟨declared, -, builtBelow⟩ := mem_of_collect collected member
    exact (ih builtBelow).2

/-- All nodes of a built tree read their value in the way that was asked for. -/
theorem collect_build_readsBy {declarations : List ConstraintDeclaration}
    {nodes : List ConstraintNode}
    (built : collect (build types catalog owner target access) declarations = .ok nodes) :
    ∀ node ∈ nodes, node.ReadsBy access := by
  intro node member part within
  obtain ⟨declaration, -, built⟩ := mem_of_collect built member
  exact ((buildBelow_content built).2 part within).2

end Composition

namespace Configuration

variable {configuration : Configuration}

/-- A declaration reads the property that it names. -/
theorem accessTo_reads (declaration : PropertyDeclaration) :
    declaration.accessTo.Reads declaration.name := by
  unfold PropertyDeclaration.accessTo
  cases declaration.access <;> rfl

/-- What one more declaration of a property makes of what was known of it. -/
structure Redeclares (configuration : Configuration) (bean level : TypeKey)
    (declaration : PropertyDeclaration) (before after : MetaProperty) : Prop where
  name : after.name = before.name
  /-- The declared type is narrowed. -/
  declared : mergeDeclared configuration.types bean declaration.name before.declared
    declaration.declared = .ok after.declared
  /-- The nodes of its constraints come behind those that are there. -/
  constraints : ∃ nodes, Composition.collect
      (Composition.build configuration.types configuration.catalog level declaration.declared.raw
        (some declaration.accessTo)) declaration.constraints = .ok nodes
    ∧ after.constraints = before.constraints ++ nodes
  /-- A declaration that cascades sets the target. -/
  target : if declaration.cascade then
      ∃ target, cascadeTarget configuration.types declaration.declared = .ok target
        ∧ after.cascade = some target
    else after.cascade = before.cascade
  /-- It adds its access, unless that is there already. -/
  accesses : after.cascadeAccesses
    = if declaration.cascade then addOnce before.cascadeAccesses declaration.accessTo
      else before.cascadeAccesses

/-- **What the declarations of a property do, one by one.** -/
theorem applyTo_redeclares {bean level : TypeKey} {declaration : PropertyDeclaration}
    {property later : MetaProperty}
    (applied : configuration.applyTo bean level declaration property = .ok later) :
    configuration.Redeclares bean level declaration property later := by
  simp only [applyTo, bind_eq_ok] at applied
  obtain ⟨merged, accepted, nodes, collected, applied⟩ := applied
  split at applied
  · next cascades =>
    obtain ⟨target, found, same⟩ := bind_eq_ok.mp applied
    cases same
    refine ⟨rfl, accepted, ⟨nodes, collected, rfl⟩, ?_, ?_⟩
    · rw [if_pos cascades]
      exact ⟨target, found, rfl⟩
    · rw [if_pos cascades]
      rfl
  · next plain =>
    cases applied
    exact ⟨rfl, accepted, ⟨nodes, collected, rfl⟩, by rw [if_neg plain], by rw [if_neg plain]⟩

/-- A property keeps its name under one more declaration of it. -/
theorem applyTo_name {bean level : TypeKey} {declaration : PropertyDeclaration}
    {property later : MetaProperty}
    (applied : configuration.applyTo bean level declaration property = .ok later) :
    later.name = property.name :=
  (applyTo_redeclares applied).name

/-- A property stays well formed under one more declaration of it. -/
theorem applyTo_wellFormed {bean level : TypeKey} {declaration : PropertyDeclaration}
    {property later : MetaProperty} (named : property.name = declaration.name)
    (wellFormed : property.WellFormed)
    (applied : configuration.applyTo bean level declaration property = .ok later) :
    later.WellFormed := by
  have redeclares := applyTo_redeclares applied
  have own : declaration.accessTo.Reads later.name := by
    rw [redeclares.name, named]
    exact accessTo_reads declaration
  obtain ⟨nodes, built, constraints⟩ := redeclares.constraints
  constructor
  · intro node member
    rw [constraints] at member
    cases List.mem_append.mp member with
    | inl old =>
      rw [redeclares.name]
      exact wellFormed.constraints node old
    | inr new => exact ⟨declaration.accessTo, own, Composition.collect_build_readsBy built node new⟩
  · intro access member
    have known : access ∈ property.cascadeAccesses ∨ access = declaration.accessTo := by
      rw [redeclares.accesses] at member
      split at member
      · exact mem_addOnce.mp member
      · exact .inl member
    cases known with
    | inl old =>
      rw [redeclares.name]
      exact wellFormed.accesses access old
    | inr new =>
      rw [new]
      exact own

theorem mem_putProperty {property other : MetaProperty} {properties : List MetaProperty}
    (member : other ∈ putProperty property properties) : other = property ∨ other ∈ properties := by
  induction properties with
  | nil => exact .inl (List.mem_singleton.mp member)
  | cons first rest ih =>
    unfold putProperty at member
    split at member
    · cases member with
      | head => exact .inl rfl
      | tail _ later => exact .inr (List.mem_cons_of_mem _ later)
    · cases member with
      | head => exact .inr List.mem_cons_self
      | tail _ later => exact (ih later).imp id (List.mem_cons_of_mem _)

/-- A new name goes to the end, a known one keeps its place. -/
theorem names_putProperty (property : MetaProperty) (properties : List MetaProperty) :
    (putProperty property properties).map (·.name)
      = addOnce (properties.map (·.name)) property.name := by
  induction properties with
  | nil => rfl
  | cons first rest ih =>
    unfold putProperty
    by_cases same : first.name = property.name
    · rw [if_pos same]
      simp [addOnce, same]
    · rw [if_neg same, List.map_cons, ih]
      have different : (property.name == first.name) = false := by
        simpa using fun equal => same equal.symm
      simp only [addOnce, List.map_cons, List.contains_cons, different, Bool.false_or]
      split <;> rfl

/-- What is known of a property before a declaration of it. -/
theorem knownProperty_name (metadata : MetaBean) (name : String) (declared : TypeRef) :
    ((metadata.property? name).getD (.plain name declared)).name = name := by
  cases known : metadata.property? name with
  | none => rfl
  | some property => simpa using List.find?_some known

theorem knownProperty_wellFormed {metadata : MetaBean} (wellFormed : metadata.WellFormed)
    (name : String) (declared : TypeRef) :
    ((metadata.property? name).getD (.plain name declared)).WellFormed := by
  cases known : metadata.property? name with
  | none => exact ⟨nofun, nofun⟩
  | some property => exact wellFormed.properties property (List.mem_of_find?_eq_some known)

theorem applyProperty_wellFormed {level : TypeKey} {before after : MetaBean}
    {declaration : PropertyDeclaration} (wellFormed : before.WellFormed)
    (applied : configuration.applyProperty level before declaration = .ok after) :
    after.WellFormed := by
  simp only [applyProperty, bind_eq_ok] at applied
  obtain ⟨-, -, property, applied, same⟩ := applied
  cases same
  have put := applyTo_wellFormed (knownProperty_name before declaration.name declaration.declared)
    (knownProperty_wellFormed wellFormed declaration.name declaration.declared) applied
  refine ⟨?_, fun other member => ?_, wellFormed.constraints⟩
  · rw [names_putProperty]
    exact nodup_addOnce wellFormed.names property.name
  · cases mem_putProperty member with
    | inl new => exact new ▸ put
    | inr old => exact wellFormed.properties other old

theorem apply_wellFormed {level : TypeKey} {before after : MetaBean} {declaration : BeanDeclaration}
    (wellFormed : before.WellFormed)
    (applied : configuration.apply level before declaration = .ok after) : after.WellFormed := by
  simp only [apply, bind_eq_ok] at applied
  obtain ⟨nodes, built, folded⟩ := applied
  refine foldlM_keeps declaration.properties
    (fun _ _ _ kept applied => applyProperty_wellFormed kept applied) ?_ folded
  refine ⟨wellFormed.names, wellFormed.properties, fun node member => ?_⟩
  cases List.mem_append.mp member with
  | inl old => exact wellFormed.constraints node old
  | inr new => exact Composition.collect_build_readsBy built node new

/-- **Built metadata is well formed.** -/
theorem build_wellFormed {type : TypeKey} {metadata : MetaBean}
    (built : configuration.build type = .ok metadata) : metadata.WellFormed := by
  simp only [build, bind_eq_ok] at built
  obtain ⟨info, -, bean, folded, sequence, -, same⟩ := built
  cases same
  have wellFormed : bean.WellFormed := by
    refine foldlM_keeps (configuration.levels type) (fun _ level _ kept applied => ?_)
      (⟨List.nodup_nil, nofun, nofun⟩ : (MetaBean.blank type).WellFormed) folded
    exact foldlM_keeps (configuration.declarationsFor level)
      (fun _ _ _ kept applied => apply_wellFormed kept applied) kept applied
  exact ⟨wellFormed.names, wellFormed.properties, wellFormed.constraints⟩

theorem applyProperty_type {level : TypeKey} {before after : MetaBean}
    {declaration : PropertyDeclaration}
    (applied : configuration.applyProperty level before declaration = .ok after) :
    after.type = before.type := by
  simp only [applyProperty, bind_eq_ok] at applied
  obtain ⟨-, -, property, -, same⟩ := applied
  cases same
  rfl

theorem apply_type {level : TypeKey} {before after : MetaBean} {declaration : BeanDeclaration}
    (applied : configuration.apply level before declaration = .ok after) :
    after.type = before.type := by
  simp only [apply, bind_eq_ok] at applied
  obtain ⟨nodes, -, folded⟩ := applied
  let named := fun bean : MetaBean => bean.type = before.type
  have keeps : named after := by
    refine foldlM_keeps declaration.properties (fun _ _ _ kept applied => ?_) ?_ folded
    · exact (applyProperty_type applied).trans kept
    · rfl
  exact keeps

theorem build_type {type : TypeKey} {metadata : MetaBean}
    (built : configuration.build type = .ok metadata) : metadata.type = type := by
  simp only [build, bind_eq_ok] at built
  obtain ⟨info, -, bean, folded, sequence, -, same⟩ := built
  cases same
  let named := fun bean : MetaBean => bean.type = type
  have keeps : named bean := by
    refine foldlM_keeps (configuration.levels type) (fun before level after kept applied => ?_) rfl
      folded
    have keepsLevel : named after := by
      refine foldlM_keeps (configuration.declarationsFor level) (fun _ _ _ kept applied => ?_) kept
        applied
      exact (apply_type applied).trans kept
    exact keepsLevel
  exact keeps

/-- The sequence of a class is the one that is declared for it, as it stands. -/
theorem groupSequence_eq_of_build {type : TypeKey} {metadata : MetaBean}
    (built : configuration.build type = .ok metadata) :
    metadata.groupSequence = if configuration.types.isInterface type then none
      else lastSome? (·.groupSequence) (configuration.declarationsFor type) := by
  simp only [build, bind_eq_ok] at built
  obtain ⟨info, known, bean, -, sequence, own, same⟩ := built
  cases same
  rw [TypeSystem.isInterface_of_require known]
  unfold defaultSequence at own
  cases isInterface : info.isInterface with
  | true =>
    rw [if_pos isInterface] at own
    cases own
    rfl
  | false =>
    rw [if_neg (by simp [isInterface])] at own
    split at own
    · next undeclared =>
      cases own
      exact undeclared.symm
    · next declared found =>
      simp only [bind_eq_ok] at own
      obtain ⟨-, -, checked, accepted, same⟩ := own
      cases same
      cases checkDefaultSequence_eq_ok accepted
      exact found.symm

end Configuration

end GraphValidation
