/-
**The metadata of a type combines what is declared on its levels.**

Metadata is built by going through the declarations that are in force, level by level, and each of
them only adds: constraints go behind those that are there, and a declared property is one more
declaration of the property of its name.  So what built metadata says of the type itself and of each
property can be read off the declarations.

* `Configuration.inForce` — the declarations that apply to a type, in order.
* `Configuration.classConstraints`, `Configuration.declarationsOf` — what they say of the type
  itself, and of a property.
* `Configuration.property?_of_build` — **a property is what its declarations make of it in order**.
* `MetaBean.Combines`, `Configuration.build_combines` — **the constraints of a type are those of its
  levels**, each once and in order.
-/
import Mathlib.Data.List.Forall2
import GraphValidation.Proofs.Hierarchy

namespace GraphValidation

/-! ### Folds that may fail -/

/-- What the steps of a fold add to a list, the fold adds for all that is below its items. -/
theorem foldlM_adds {ε α β γ δ : Type} {step : β → α → Except ε β} {below : α → List γ}
    {view : β → List δ} {related : γ → δ → Prop}
    (each : ∀ before item after, step before item = .ok after →
      ∃ more, view after = view before ++ more ∧ List.Forall₂ related (below item) more)
    {items : List α} {first last : β} (folded : items.foldlM step first = .ok last) :
    ∃ more, view last = view first ++ more ∧ List.Forall₂ related (items.flatMap below) more := by
  induction items generalizing first with
  | nil =>
    cases folded
    exact ⟨[], (List.append_nil _).symm, .nil⟩
  | cons item rest ih =>
    rw [List.foldlM_cons, bind_eq_ok] at folded
    obtain ⟨middle, stepped, folded⟩ := folded
    obtain ⟨here, added, relatedHere⟩ := each first item middle stepped
    obtain ⟨later, addedLater, relatedLater⟩ := ih folded
    refine ⟨here ++ later, ?_, List.rel_append relatedHere relatedLater⟩
    rw [addedLater, added, List.append_assoc]

/-- A fold, seen through what its steps do to a part of the state, is a fold over all that is below
its items. -/
theorem foldlM_views {ε α β γ δ : Type} {step : β → α → Except ε β} {below : α → List γ}
    {inner : δ → γ → Except ε δ} (holds : β → Prop) (view : β → δ)
    (each : ∀ before item after, holds before → step before item = .ok after →
      holds after ∧ (below item).foldlM inner (view before) = .ok (view after))
    {items : List α} {first last : β} (start : holds first)
    (folded : items.foldlM step first = .ok last) :
    (items.flatMap below).foldlM inner (view first) = .ok (view last) := by
  induction items generalizing first with
  | nil =>
    cases folded
    rfl
  | cons item rest ih =>
    rw [List.foldlM_cons, bind_eq_ok] at folded
    obtain ⟨middle, stepped, folded⟩ := folded
    obtain ⟨onward, viewed⟩ := each first item middle start stepped
    rw [List.flatMap_cons, List.foldlM_append, viewed]
    exact ih onward folded

/-- A fold over the items of a fold is a fold over all items. -/
theorem foldlM_nested {ε α β γ : Type} (step : γ → β → α → Except ε β) (items : List γ)
    (below : γ → List α) (first : β) :
    items.foldlM (fun state item => (below item).foldlM (step item) state) first
      = (items.flatMap fun item => (below item).map fun inner => (item, inner)).foldlM
          (fun state pair => step pair.1 state pair.2) first := by
  induction items generalizing first with
  | nil => rfl
  | cons item rest ih =>
    rw [List.foldlM_cons, List.flatMap_cons, List.foldlM_append, List.foldlM_map]
    exact congrArg _ (funext fun state => ih state)

theorem map_filter_eq_flatMap {α β : Type} (keep : α → Bool) (image : α → β) (items : List α) :
    (items.filter keep).map image
      = items.flatMap fun item => if keep item then [image item] else [] := by
  induction items with
  | nil => rfl
  | cons item rest ih => by_cases kept : keep item <;> simp [kept, ih]

theorem Composition.forall₂_of_collect {α β : Type} {step : α → Except ConfigError β}
    {items : List α} {results : List β} (collected : collect step items = .ok results) :
    List.Forall₂ (fun item result => step item = .ok result) items results := by
  induction items generalizing results with
  | nil =>
    cases collected
    exact .nil
  | cons item rest ih =>
    simp only [collect, bind_eq_ok] at collected
    obtain ⟨first, stepped, others, collected, same⟩ := collected
    cases same
    exact .cons stepped (ih collected)

/-- What has a partner in a list of partners. -/
theorem exists_of_mem_forall₂ {α β : Type} {related : α → β → Prop} {items : List α}
    {others : List β} (partners : List.Forall₂ related items others) {item : α}
    (member : item ∈ items) : ∃ other ∈ others, related item other := by
  induction partners with
  | nil => cases member
  | cons here _ ih =>
    cases member with
    | head => exact ⟨_, List.mem_cons_self, here⟩
    | tail _ later =>
      obtain ⟨other, inside, found⟩ := ih later
      exact ⟨other, List.mem_cons_of_mem _ inside, found⟩

/-! ### What is declared -/

namespace Configuration

/-- The declarations that apply to a type, each with the level that it is made for. -/
def inForce (configuration : Configuration) (type : TypeKey) :
    List (TypeKey × BeanDeclaration) :=
  (configuration.levels type).flatMap fun level =>
    (configuration.declarationsFor level).map fun bean => (level, bean)

/-- The constraints that are declared of the type itself, those in containers in place. -/
def classConstraints (configuration : Configuration) (type : TypeKey) :
    List (TypeKey × ConstraintDeclaration) :=
  (configuration.inForce type).flatMap fun (level, bean) =>
    bean.constraints.map fun constraint => (level, constraint)

/-- The declarations of the property of a name. -/
def declarationsOf (configuration : Configuration) (type : TypeKey) (name : String) :
    List (TypeKey × PropertyDeclaration) :=
  (configuration.inForce type).flatMap fun (level, bean) =>
    (bean.properties.filter (·.name = name)).map fun property => (level, property)

/-- The constraints that are declared of the property of a name, those in containers in place. -/
def propertyConstraints (configuration : Configuration) (type : TypeKey) (name : String) :
    List ((TypeKey × PropertyDeclaration) × ConstraintDeclaration) :=
  (configuration.declarationsOf type name).flatMap fun declared =>
    declared.2.constraints.map fun constraint => (declared, constraint)

/-- What is known of a property after one more declaration of it, which may be the first one. -/
def redeclare (configuration : Configuration) (type : TypeKey) (known : Option MetaProperty)
    (declared : TypeKey × PropertyDeclaration) : Except ConfigError (Option MetaProperty) := do
  let property ← configuration.applyTo type declared.1 declared.2
    (known.getD (.plain declared.2.name declared.2.declared))
  .ok (some property)

end Configuration

/-- A node is that of a declared constraint, and all of it belongs to the type that declares it. -/
structure ConstraintNode.Of (configuration : Configuration) (owner target : TypeKey)
    (access : Option Access) (declaration : ConstraintDeclaration) (node : ConstraintNode) :
    Prop where
  built : Composition.build configuration.types configuration.catalog owner target access
    declaration = .ok node
  constraint : node.content.constraint = declaration.constraint
  owned : ∀ part, ConstraintNode.Within part node → part.content.owner = owner

theorem ConstraintNode.of_build {configuration : Configuration} {owner target : TypeKey}
    {access : Option Access} {declaration : ConstraintDeclaration} {node : ConstraintNode}
    (built : Composition.build configuration.types configuration.catalog owner target access
      declaration = .ok node) : node.Of configuration owner target access declaration := by
  obtain ⟨constraint, parts⟩ := Composition.buildBelow_content built
  exact ⟨built, constraint, fun part within => (parts part within).1⟩

namespace Configuration

variable {configuration : Configuration} {type level : TypeKey} {before after : MetaBean}

/-- The nodes of declared constraints, in order. -/
theorem forall₂_of_collect_build {owner target : TypeKey} {access : Option Access}
    {declarations : List ConstraintDeclaration} {nodes : List ConstraintNode}
    (collected : Composition.collect
      (Composition.build configuration.types configuration.catalog owner target access)
      declarations = .ok nodes) :
    List.Forall₂ (fun declaration node => ConstraintNode.Of configuration owner target access
      declaration node) declarations nodes :=
  (Composition.forall₂_of_collect collected).imp fun _ _ built => ConstraintNode.of_build built

/-! ### Building step by step -/

/-- Built metadata is what the declarations in force make of a blank one, with an identifier and a
sequence. -/
theorem inForce_of_build {metadata : MetaBean} (built : configuration.build type = .ok metadata) :
    ∃ bean, (configuration.inForce type).foldlM
        (fun bean declared => configuration.apply declared.1 bean declared.2) (.blank type)
        = .ok bean
      ∧ metadata.properties = bean.properties ∧ metadata.constraints = bean.constraints := by
  simp only [build, bind_eq_ok] at built
  obtain ⟨info, -, bean, folded, sequence, -, same⟩ := built
  cases same
  refine ⟨bean, ?_, rfl, rfl⟩
  rw [← folded]
  exact (foldlM_nested configuration.apply _ _ _).symm

/-- A declaration of a property leaves the constraints of the type itself as they are. -/
theorem applyProperty_constraints {declaration : PropertyDeclaration}
    (applied : configuration.applyProperty level before declaration = .ok after) :
    after.constraints = before.constraints := by
  simp only [applyProperty, bind_eq_ok] at applied
  obtain ⟨-, -, property, -, same⟩ := applied
  cases same
  rfl

/-- A declaration adds the nodes of its constraints behind those that are there. -/
theorem apply_constraints {declaration : BeanDeclaration}
    (applied : configuration.apply level before declaration = .ok after) :
    ∃ nodes, after.constraints = before.constraints ++ nodes
      ∧ List.Forall₂ (fun declaration node => ConstraintNode.Of configuration level level none
          declaration node) declaration.constraints nodes := by
  simp only [apply, bind_eq_ok] at applied
  obtain ⟨nodes, collected, folded⟩ := applied
  refine ⟨nodes, ?_, forall₂_of_collect_build collected⟩
  let kept := fun bean : MetaBean => bean.constraints = before.constraints ++ nodes
  have keeps : kept after :=
    foldlM_keeps declaration.properties
      (fun _ _ _ kept applied => (applyProperty_constraints applied).trans kept) rfl folded
  exact keeps

theorem property?_put (property : MetaProperty) (properties : List MetaProperty) (name : String) :
    (putProperty property properties).find? (·.name == name)
      = if property.name = name then some property
        else properties.find? (·.name == name) := by
  induction properties with
  | nil =>
    by_cases named : property.name = name <;> simp [putProperty, named]
  | cons first rest ih =>
    unfold putProperty
    by_cases same : first.name = property.name
    · rw [if_pos same]
      by_cases named : property.name = name <;> simp [named, same]
    · rw [if_neg same]
      by_cases here : first.name = name
      · have other : property.name ≠ name := fun named => same (here.trans named.symm)
        simp [here, other]
      · rw [List.find?_cons_of_neg (by simpa using here), ih,
          List.find?_cons_of_neg (by simpa using here)]

/-- A declaration of a property is one more declaration of the property of its name, and leaves the
others as they are. -/
theorem applyProperty_property? {declaration : PropertyDeclaration} (ofType : before.type = type)
    (applied : configuration.applyProperty level before declaration = .ok after) (name : String) :
    if declaration.name = name then
      configuration.redeclare type (before.property? name) (level, declaration)
        = .ok (after.property? name)
    else after.property? name = before.property? name := by
  simp only [applyProperty, bind_eq_ok] at applied
  obtain ⟨-, -, property, applied, same⟩ := applied
  have named : property.name = declaration.name :=
    (applyTo_name applied).trans (knownProperty_name before declaration.name declaration.declared)
  cases same
  have put : MetaBean.property? { before with properties := putProperty property before.properties }
      name = if declaration.name = name then some property else before.property? name := by
    rw [← named]
    exact property?_put property before.properties name
  rw [put]
  split
  · rename_i here
    subst here
    rw [ofType] at applied
    simp only [redeclare, applied]
    rfl
  · rfl

/-- What a declaration of a type says of one property. -/
theorem apply_property? {declaration : BeanDeclaration} (ofType : before.type = type)
    (applied : configuration.apply level before declaration = .ok after) (name : String) :
    ((declaration.properties.filter (·.name = name)).map fun property => (level, property)).foldlM
        (configuration.redeclare type) (before.property? name) = .ok (after.property? name) := by
  simp only [apply, bind_eq_ok] at applied
  obtain ⟨nodes, -, folded⟩ := applied
  let grown : MetaBean := { before with constraints := before.constraints ++ nodes }
  have start : grown.type = type := ofType
  have same : before.property? name = grown.property? name := rfl
  rw [map_filter_eq_flatMap, same]
  refine foldlM_views (fun bean : MetaBean => bean.type = type) (·.property? name) ?_ start folded
  intro first property last ofType applied
  refine ⟨(applyProperty_type applied).trans ofType, ?_⟩
  have one := applyProperty_property? ofType applied name
  split at one
  · rename_i here
    simp only [here, decide_true, if_true, List.foldlM_cons, one]
    rfl
  · rename_i elsewhere
    simp only [elsewhere, decide_false, Bool.false_eq_true, if_false, one]
    rfl

/-! ### Built metadata -/

/-- **A property is what its declarations make of it**, one after the other. -/
theorem property?_of_build {metadata : MetaBean} (built : configuration.build type = .ok metadata)
    (name : String) :
    (configuration.declarationsOf type name).foldlM (configuration.redeclare type) none
      = .ok (metadata.property? name) := by
  obtain ⟨bean, folded, properties, -⟩ := inForce_of_build built
  have viewed : (configuration.declarationsOf type name).foldlM (configuration.redeclare type)
      ((MetaBean.blank type).property? name) = .ok (bean.property? name) := by
    refine foldlM_views (fun bean : MetaBean => bean.type = type) (·.property? name) ?_ rfl folded
    intro before declared after ofType applied
    exact ⟨(apply_type applied).trans ofType, apply_property? ofType applied name⟩
  have same : metadata.property? name = bean.property? name := by
    rw [MetaBean.property?, MetaBean.property?, properties]
  rw [same]
  exact viewed

/-- After one more declaration a property is known, and what the declaration made of it. -/
theorem redeclare_eq_ok {known later : Option MetaProperty}
    {declared : TypeKey × PropertyDeclaration}
    (redeclared : configuration.redeclare type known declared = .ok later) :
    ∃ property, later = some property ∧ configuration.Redeclares type declared.1 declared.2
      (known.getD (.plain declared.2.name declared.2.declared)) property := by
  obtain ⟨property, applied, same⟩ := bind_eq_ok.mp redeclared
  cases same
  exact ⟨property, rfl, applyTo_redeclares applied⟩

/-- A declaration of a property adds the nodes of its constraints behind those that are there. -/
theorem redeclare_constraints {known later : Option MetaProperty}
    {declared : TypeKey × PropertyDeclaration}
    (redeclared : configuration.redeclare type known declared = .ok later) :
    later.isSome ∧ ∃ nodes,
      later.elim [] (·.constraints) = known.elim [] (·.constraints) ++ nodes
      ∧ List.Forall₂ (fun declaration node => ConstraintNode.Of configuration declared.1
          declared.2.declared.raw (some declared.2.accessTo) declaration node)
        declared.2.constraints nodes := by
  obtain ⟨property, rfl, redeclares⟩ := redeclare_eq_ok redeclared
  obtain ⟨nodes, collected, grown⟩ := redeclares.constraints
  refine ⟨rfl, nodes, ?_, forall₂_of_collect_build collected⟩
  rw [Option.elim_some, grown]
  cases known <;> rfl

/-- The constraints of the type itself are the declared ones, in order. -/
theorem classConstraints_of_build {metadata : MetaBean}
    (built : configuration.build type = .ok metadata) :
    List.Forall₂ (fun declared node => ConstraintNode.Of configuration declared.1 declared.1 none
      declared.2 node) (configuration.classConstraints type) metadata.constraints := by
  obtain ⟨bean, folded, -, constraints⟩ := inForce_of_build built
  have each : ∀ before (declared : TypeKey × BeanDeclaration) after,
      configuration.apply declared.1 before declared.2 = .ok after →
      ∃ nodes, after.constraints = before.constraints ++ nodes
        ∧ List.Forall₂ (fun declared node => ConstraintNode.Of configuration declared.1 declared.1
          none declared.2 node)
          (declared.2.constraints.map fun constraint => (declared.1, constraint)) nodes := by
    intro before declared after applied
    obtain ⟨nodes, grown, built⟩ := apply_constraints applied
    exact ⟨nodes, grown, List.forall₂_map_left_iff.mpr built⟩
  obtain ⟨nodes, grown, built⟩ := foldlM_adds each folded
  rw [constraints, grown]
  exact built

/-- The constraints of a property are the declared ones, in order. -/
theorem propertyConstraints_of_build {metadata : MetaBean}
    (built : configuration.build type = .ok metadata) (name : String) :
    List.Forall₂ (fun declared node => ConstraintNode.Of configuration declared.1.1
        declared.1.2.declared.raw (some declared.1.2.accessTo) declared.2 node)
      (configuration.propertyConstraints type name)
      ((metadata.property? name).elim [] (·.constraints)) := by
  have each : ∀ known (declared : TypeKey × PropertyDeclaration) later,
      configuration.redeclare type known declared = .ok later →
      ∃ nodes, later.elim [] (·.constraints) = known.elim [] (·.constraints) ++ nodes
        ∧ List.Forall₂ (fun declared node => ConstraintNode.Of configuration declared.1.1
          declared.1.2.declared.raw (some declared.1.2.accessTo) declared.2 node)
          (declared.2.constraints.map fun constraint => (declared, constraint)) nodes := by
    intro known declared later redeclared
    obtain ⟨-, nodes, grown, built⟩ := redeclare_constraints redeclared
    exact ⟨nodes, grown, List.forall₂_map_left_iff.mpr built⟩
  obtain ⟨nodes, grown, built⟩ := foldlM_adds each (property?_of_build built name)
  rw [grown]
  exact built

/-- After any declaration something is known of a property. -/
theorem isSome_of_redeclared {declarations : List (TypeKey × PropertyDeclaration)}
    {known : Option MetaProperty}
    (folded : declarations.foldlM (configuration.redeclare type) none = .ok known) :
    known.isSome ↔ declarations ≠ [] := by
  cases declarations with
  | nil =>
    have unknown : known = none := (Except.ok.inj folded).symm
    simp [unknown]
  | cons first rest =>
    rw [List.foldlM_cons, bind_eq_ok] at folded
    obtain ⟨middle, redeclared, folded⟩ := folded
    have isKnown : known.isSome :=
      foldlM_keeps rest (fun _ _ _ _ redeclared => (redeclare_constraints redeclared).1)
        (redeclare_constraints redeclared).1 folded
    simp [isKnown]

end Configuration

/-- Metadata combines what a hierarchy declares. -/
structure MetaBean.Combines (metadata : MetaBean) (configuration : Configuration)
    (type : TypeKey) : Prop where
  /-- The levels are the type and the types above it. -/
  levels : ∀ level, level ∈ configuration.levels type
    ↔ level = type ∨ level ∈ configuration.types.supertypes type
  /-- No level counts twice. -/
  nodup : (configuration.levels type).Nodup
  /-- A level comes after all levels above it. -/
  order : (configuration.levels type).Pairwise fun earlier later =>
    later ∉ configuration.types.supertypes earlier
  /-- On each level annotations come before mappings, each in order, and a mapping of the level can
  drop the annotations. -/
  sources : ∀ level, configuration.declarationsFor level
    = (if ∃ mapping ∈ configuration.mappings, ∃ bean, mapping.get? level = some bean
          ∧ bean.ignoreAnnotations then []
        else configuration.annotations.filterMap (·.get? level))
      ++ configuration.mappings.filterMap (·.get? level)
  /-- The constraints of the type itself are the declared ones. -/
  constraints : List.Forall₂
    (fun declared node =>
      ConstraintNode.Of configuration declared.1 declared.1 none declared.2 node)
    (configuration.classConstraints type) metadata.constraints
  /-- There is one property of each name that is declared. -/
  names : (metadata.properties.map (·.name)).Nodup
  known : ∀ name, (metadata.property? name).isSome ↔ configuration.declarationsOf type name ≠ []
  /-- The constraints of a property are the declared ones. -/
  properties : ∀ name, List.Forall₂
    (fun declared node => ConstraintNode.Of configuration declared.1.1 declared.1.2.declared.raw
      (some declared.1.2.accessTo) declared.2 node)
    (configuration.propertyConstraints type name)
    ((metadata.property? name).elim [] (·.constraints))

namespace Configuration

variable {configuration : Configuration} {type : TypeKey} {metadata : MetaBean}

theorem declarationsFor_eq (configuration : Configuration) (level : TypeKey) :
    configuration.declarationsFor level
      = (if ∃ mapping ∈ configuration.mappings, ∃ bean, mapping.get? level = some bean
            ∧ bean.ignoreAnnotations then []
          else configuration.annotations.filterMap (·.get? level))
        ++ configuration.mappings.filterMap (·.get? level) := by
  have ignored : (configuration.mappings.filterMap (·.get? level)).any (·.ignoreAnnotations)
      ↔ ∃ mapping ∈ configuration.mappings, ∃ bean, mapping.get? level = some bean
        ∧ bean.ignoreAnnotations := by
    simp only [List.any_eq_true, List.mem_filterMap]
    constructor
    · rintro ⟨bean, ⟨mapping, member, found⟩, ignores⟩
      exact ⟨mapping, member, bean, found, ignores⟩
    · rintro ⟨mapping, member, bean, found, ignores⟩
      exact ⟨bean, ⟨mapping, member, found⟩, ignores⟩
  rw [declarationsFor]
  simp only [ignored]

/-- The declarations in force are those of the mappings, and those beside the type where no mapping
drops them. -/
theorem mem_declarationsFor {bean : BeanDeclaration} :
    bean ∈ configuration.declarationsFor type
      ↔ (∃ mapping ∈ configuration.mappings, mapping.get? type = some bean)
        ∨ (¬ ∃ mapping ∈ configuration.mappings, ∃ bean, mapping.get? type = some bean
            ∧ bean.ignoreAnnotations)
          ∧ ∃ source ∈ configuration.annotations, source.get? type = some bean := by
  rw [declarationsFor_eq, List.mem_append, List.mem_filterMap, or_comm]
  refine or_congr_right ?_
  split
  · next dropped => simp [dropped]
  · next kept => simp [kept, List.mem_filterMap]

/-- What is declared of a type, some source declares. -/
theorem exists_source_of_mem {declaration : BeanDeclaration}
    (member : declaration ∈ configuration.declarationsFor type) :
    ∃ source ∈ configuration.annotations ++ configuration.mappings,
      source.get? type = some declaration := by
  rcases mem_declarationsFor.mp member with ⟨mapping, isMapping, found⟩ | ⟨-, source, inside, found⟩
  · exact ⟨mapping, List.mem_append_right _ isMapping, found⟩
  · exact ⟨source, List.mem_append_left _ inside, found⟩

/-- **The metadata of a type combines what its hierarchy declares.**  The constraints of the type
itself and of each property are exactly those that are declared on the type and on all types above
it, each once, each owned by the type that declares it, and in the order of the hierarchy. -/
theorem build_combines (conventional : configuration.types.Conventional)
    (built : configuration.build type = .ok metadata) : metadata.Combines configuration type where
  levels _ := mem_levels conventional
  nodup := (levels_descent conventional type).nodup
  order := by
    refine (levels_descent conventional type).pairwise.imp fun notAbove listed => notAbove ?_
    exact TypeSystem.mem_supertypes.mp listed
  sources := configuration.declarationsFor_eq
  constraints := classConstraints_of_build built
  names := (build_wellFormed built).names
  known name := isSome_of_redeclared (property?_of_build built name)
  properties := propertyConstraints_of_build built

end Configuration

/-! ### A diamond -/

namespace Diamond

def named : TypeKey := ⟨"Named"⟩
def labelled : TypeKey := ⟨"Labelled"⟩
def tagged : TypeKey := ⟨"Tagged"⟩
def item : TypeKey := ⟨"Item"⟩
def book : TypeKey := ⟨"Book"⟩

/-- A book is an item; it inherits from `Named` in two ways. -/
def types : TypeSystem :=
  (TypeSystem.builtin.registerAll
    [.ofInterface named [], .ofInterface labelled [named], .ofInterface tagged [named],
     .ofClass item [labelled], ⟨book, .classType, some item, [tagged]⟩]).1

def present : ConstraintDefinition :=
  .ofValidators "Present" [.ofPredicate "present" .object (.test fun value => .ok !value.isNull)]

/-- A declaration of the property `name` with so many constraints in a container. -/
def declaration (type : TypeKey) (constraints : Nat) (ignoreAnnotations : Bool) :
    BeanDeclaration where
  type := type
  id := none
  annotations := [.constraint (.plain "Present")]
  properties := [⟨"name", .field, .mk .string [],
    [.container "Presents" (List.replicate constraints (.plain "Present"))], false⟩]
  groupSequence := none
  ignoreAnnotations := ignoreAnnotations

/-- The mapping of books drops what is declared beside them. -/
def configuration : Configuration where
  types := types
  catalog := ⟨[present]⟩
  annotations := [⟨[declaration named 1 false, declaration item 2 false, declaration book 3 false]⟩]
  mappings := [⟨[declaration book 4 true]⟩]

end Diamond

example : Diamond.configuration.levels Diamond.book
    = [.object, Diamond.named, Diamond.labelled, Diamond.item, Diamond.tagged, Diamond.book] := by
  decide +kernel

/-- What the hierarchy of books declares is combined in their metadata: of the types themselves, and
of their names, what is declared in containers included. -/
theorem build_combines_diamond :
    Diamond.configuration.types.Conventional
      ∧ ∃ metadata, Diamond.configuration.build Diamond.book = .ok metadata
        ∧ metadata.Combines Diamond.configuration Diamond.book
        ∧ metadata.constraints.map (·.content.owner)
          = [Diamond.named, Diamond.item, Diamond.book]
        ∧ (metadata.property? "name").map (·.constraints.map (·.content.owner))
          = some [Diamond.named, Diamond.item, Diamond.item, Diamond.book, Diamond.book,
            Diamond.book, Diamond.book] := by
  have conventional : Diamond.configuration.types.Conventional :=
    ⟨by decide +kernel, by decide +kernel⟩
  cases built : Diamond.configuration.build Diamond.book with
  | error error =>
    have succeeds : (Diamond.configuration.build Diamond.book).toOption.isSome := by decide +kernel
    rw [built] at succeeds
    cases succeeds
  | ok metadata =>
    have combines := Configuration.build_combines conventional built
    have owners : (Diamond.configuration.build Diamond.book).toOption.map
        (·.constraints.map (·.content.owner))
        = some [Diamond.named, Diamond.item, Diamond.book] := by decide +kernel
    have ownersOfNames : (Diamond.configuration.build Diamond.book).toOption.map
        (fun metadata => (metadata.property? "name").map (·.constraints.map (·.content.owner)))
        = some (some [Diamond.named, Diamond.item, Diamond.item, Diamond.book, Diamond.book,
          Diamond.book, Diamond.book]) := by decide +kernel
    rw [built] at owners ownersOfNames
    exact ⟨conventional, metadata, rfl, combines, Option.some.inj owners,
      Option.some.inj ownersOfNames⟩

end GraphValidation
