/-
**Declarations with their properties in another order.**

A declaration lists its properties in some order, and metadata lists what they declare in the order
of the declarations.  Beyond that the order says nothing: in another order the declarations make
metadata that knows the same constraints and the same ways to cascade.

* `Configuration.Reordered` — the same declarations with their properties in another order.
* `MetaBean.Within` — what one metadata knows, another one knows as well.
* `Configuration.Reordered.within_of_build` — **what is known of a type does not depend on the order
  of the declared properties**.
-/
import GraphValidation.Proofs.CascadeTargets

namespace GraphValidation

/-! ### Reordered declarations -/

/-- The same declaration with its properties in another order. -/
structure BeanDeclaration.Reordered (first second : BeanDeclaration) : Prop where
  properties : first.properties.Perm second.properties
  others : second = { first with properties := second.properties }

/-- The same declarations with their properties in another order. -/
def DeclarationRegistry.Reordered (first second : DeclarationRegistry) : Prop :=
  List.Forall₂ BeanDeclaration.Reordered first.beans second.beans

/-- The same configuration with declared properties in another order. -/
structure Configuration.Reordered (first second : Configuration) : Prop where
  types : second.types = first.types
  catalog : second.catalog = first.catalog
  annotations : List.Forall₂ DeclarationRegistry.Reordered first.annotations second.annotations
  mappings : List.Forall₂ DeclarationRegistry.Reordered first.mappings second.mappings

/-- No class redefines its default group. -/
def Configuration.KeepsDefaults (configuration : Configuration) : Prop :=
  ∀ type, configuration.types.isInterface type = true
    ∨ ∀ declaration ∈ configuration.declarationsFor type, declaration.groupSequence = none

theorem BeanDeclaration.Reordered.symm {first second : BeanDeclaration}
    (reordered : first.Reordered second) : second.Reordered first where
  properties := reordered.properties.symm
  others := by rw [reordered.others]

theorem DeclarationRegistry.Reordered.symm {first second : DeclarationRegistry}
    (reordered : first.Reordered second) : second.Reordered first :=
  List.Forall₂.flip (reordered.imp fun _ _ same => same.symm)

theorem Configuration.Reordered.symm {first second : Configuration}
    (reordered : first.Reordered second) : second.Reordered first where
  types := reordered.types.symm
  catalog := reordered.catalog.symm
  annotations := List.Forall₂.flip (reordered.annotations.imp fun _ _ same => same.symm)
  mappings := List.Forall₂.flip (reordered.mappings.imp fun _ _ same => same.symm)

/-- Where no declaration redefines a default group, no class does. -/
theorem Configuration.keepsDefaults_of_silent {configuration : Configuration}
    (silent : ∀ source ∈ configuration.annotations ++ configuration.mappings,
      ∀ bean ∈ source.beans, bean.groupSequence = none) : configuration.KeepsDefaults := by
  refine fun type => .inr fun declaration member => ?_
  obtain ⟨source, inside, found⟩ := exists_source_of_mem member
  exact silent source inside declaration (List.mem_of_find?_eq_some found)

theorem find?_reordered {beans others : List BeanDeclaration}
    (reordered : List.Forall₂ BeanDeclaration.Reordered beans others) (type : TypeKey) :
    Option.Rel BeanDeclaration.Reordered (beans.find? (·.type == type))
      (others.find? (·.type == type)) := by
  induction reordered with
  | nil => exact .none
  | @cons bean other beans others same _ ih =>
    have types : other.type = bean.type := by rw [same.others]
    rw [List.find?_cons, List.find?_cons, types]
    cases bean.type == type with
    | true => exact .some same
    | false => exact ih

/-- What declarations say beside their properties does not depend on the order. -/
theorem map_eq_of_reordered {α : Type} (view : BeanDeclaration → α)
    (same : ∀ bean properties, view { bean with properties } = view bean)
    {beans others : List BeanDeclaration}
    (reordered : List.Forall₂ BeanDeclaration.Reordered beans others) :
    others.map view = beans.map view := by
  induction reordered with
  | nil => rfl
  | @cons bean other beans others here _ ih =>
    rw [List.map_cons, List.map_cons, ih, here.others, same]

namespace Configuration.Reordered

variable {first second : Configuration} (reordered : first.Reordered second)

include reordered

/-- The declarations of a type are the same but for the order of their properties. -/
theorem declarationsFor (type : TypeKey) :
    List.Forall₂ BeanDeclaration.Reordered (first.declarationsFor type)
      (second.declarationsFor type) := by
  have sources : ∀ {registries others : List DeclarationRegistry},
      List.Forall₂ DeclarationRegistry.Reordered registries others →
      List.Forall₂ BeanDeclaration.Reordered (registries.filterMap (·.get? type))
        (others.filterMap (·.get? type)) := by
    intro registries others same
    refine List.rel_filterMap ?_ same
    exact fun _ _ beans => find?_reordered beans type
  have external := sources reordered.mappings
  have ignores : (second.mappings.filterMap (·.get? type)).any (·.ignoreAnnotations)
      = (first.mappings.filterMap (·.get? type)).any (·.ignoreAnnotations) := by
    have views := map_eq_of_reordered (·.ignoreAnnotations) (fun _ _ => rfl) external
    simpa only [List.any_map, Function.id_comp] using congrArg (List.any · id) views
  unfold Configuration.declarationsFor
  refine List.rel_append ?_ external
  simp only [ignores]
  split
  · exact .nil
  · exact sources reordered.annotations

/-- A group carries the same sequence. -/
theorem groupSequence : second.groupSequence = first.groupSequence := by
  funext type
  have views := map_eq_of_reordered (·.groupSequence) (fun _ _ => rfl)
    (reordered.declarationsFor type)
  have last := congrArg (fun sequences => sequences.reverse.findSome? id) views
  unfold Configuration.groupSequence lastSome?
  simpa only [← List.map_reverse, List.findSome?_map, Function.id_comp, Except.ok.injEq] using last

/-- No class redefines its default group in either order. -/
theorem keepsDefaults (keeps : first.KeepsDefaults) : second.KeepsDefaults := by
  intro type
  rw [reordered.types]
  refine (keeps type).imp id fun silent declaration member => ?_
  obtain ⟨same, member, others⟩ :=
    exists_of_mem_forall₂ (reordered.declarationsFor type).flip member
  rw [others.others]
  exact silent same member

theorem levels (type : TypeKey) : second.levels type = first.levels type := by
  unfold Configuration.levels
  rw [reordered.types]

/-- The same declarations apply to a type. -/
theorem inForce (type : TypeKey) :
    List.Forall₂ (fun mine yours => yours.1 = mine.1 ∧ BeanDeclaration.Reordered mine.2 yours.2)
      (first.inForce type) (second.inForce type) := by
  unfold Configuration.inForce
  rw [reordered.levels]
  refine List.rel_flatMap (List.forall₂_same.mpr fun _ _ => rfl) ?_
  rintro level _ rfl
  exact List.rel_map (fun _ _ same => ⟨rfl, same⟩) (reordered.declarationsFor level)

/-- The same is declared of the type itself. -/
theorem mem_classConstraints {type : TypeKey} {declared : TypeKey × ConstraintDeclaration}
    (member : declared ∈ first.classConstraints type) :
    declared ∈ second.classConstraints type := by
  obtain ⟨⟨level, bean⟩, inside, listed⟩ := List.mem_flatMap.mp member
  obtain ⟨⟨_, other⟩, insideOther, rfl, same⟩ :=
    exists_of_mem_forall₂ (reordered.inForce type) inside
  refine List.mem_flatMap.mpr ⟨_, insideOther, ?_⟩
  have others : other = { bean with properties := other.properties } := same.others
  rw [others]
  exact listed

/-- The same is declared of a property. -/
theorem mem_declarationsOf {type : TypeKey} {name : String}
    {declared : TypeKey × PropertyDeclaration}
    (member : declared ∈ first.declarationsOf type name) :
    declared ∈ second.declarationsOf type name := by
  obtain ⟨⟨level, bean⟩, inside, listed⟩ := List.mem_flatMap.mp member
  obtain ⟨⟨_, other⟩, insideOther, rfl, same⟩ :=
    exists_of_mem_forall₂ (reordered.inForce type) inside
  refine List.mem_flatMap.mpr ⟨_, insideOther, ?_⟩
  exact (((same.properties.filter _).map _).mem_iff).mp listed

theorem mem_propertyConstraints {type : TypeKey} {name : String}
    {declared : (TypeKey × PropertyDeclaration) × ConstraintDeclaration}
    (member : declared ∈ first.propertyConstraints type name) :
    declared ∈ second.propertyConstraints type name := by
  obtain ⟨of, inside, listed⟩ := List.mem_flatMap.mp member
  exact List.mem_flatMap.mpr ⟨of, reordered.mem_declarationsOf inside, listed⟩

/-- What the declarations make of a constraint does not depend on the rest. -/
theorem eq_of_of {owner target : TypeKey} {access : Option Access}
    {declaration : ConstraintDeclaration} {node other : ConstraintNode}
    (mine : node.Of first owner target access declaration)
    (yours : other.Of second owner target access declaration) : node = other := by
  have built := yours.built
  rw [reordered.types, reordered.catalog, mine.built] at built
  exact Except.ok.inj built

end Configuration.Reordered

/-! ### What metadata knows -/

/-- What one metadata knows, another one knows as well: the constraints, and the ways to cascade. -/
structure MetaBean.Within (first second : MetaBean) : Prop where
  constraints : ∀ node ∈ first.constraints, node ∈ second.constraints
  properties : ∀ property ∈ first.properties, ∃ other ∈ second.properties,
    other.name = property.name ∧ (∀ node ∈ property.constraints, node ∈ other.constraints)
      ∧ (property.cascade.isSome → other.cascade.isSome)
      ∧ ∀ access ∈ property.cascadeAccesses, access ∈ other.cascadeAccesses

namespace Configuration.Reordered

variable {first second : Configuration} {type : TypeKey} {mine yours : MetaBean}

/-- A property is known in either order, with the same constraints and the same ways to cascade. -/
theorem property_of_build (reordered : first.Reordered second)
    (built : first.build type = .ok mine) (builtToo : second.build type = .ok yours)
    {property : MetaProperty} (member : property ∈ mine.properties) :
    ∃ other ∈ yours.properties,
      other.name = property.name ∧ (∀ node ∈ property.constraints, node ∈ other.constraints)
        ∧ (property.cascade.isSome → other.cascade.isSome)
        ∧ ∀ access ∈ property.cascadeAccesses, access ∈ other.cascadeAccesses := by
  have known := (build_wellFormed built).property?_of_mem member
  have folded := property?_of_build built property.name
  have foldedToo := property?_of_build builtToo property.name
  have nodes := propertyConstraints_of_build built property.name
  have nodesToo := propertyConstraints_of_build builtToo property.name
  rw [known] at folded nodes
  have declared : first.declarationsOf type property.name ≠ [] :=
    (isSome_of_redeclared folded).mp rfl
  obtain ⟨declaration, inside⟩ := List.exists_mem_of_ne_nil _ declared
  have declaredToo : second.declarationsOf type property.name ≠ [] :=
    List.ne_nil_of_mem (reordered.mem_declarationsOf inside)
  obtain ⟨other, found⟩ :=
    Option.isSome_iff_exists.mp ((isSome_of_redeclared foldedToo).mpr declaredToo)
  rw [found] at foldedToo nodesToo
  have named : other.name = property.name := by simpa using List.find?_some found
  refine ⟨other, List.mem_of_find?_eq_some found, named, fun node isNode => ?_, fun cascades => ?_,
    fun access isWay => ?_⟩
  · obtain ⟨of, declares, isOf⟩ := exists_of_mem_forall₂ nodes.flip isNode
    obtain ⟨same, isNodeToo, isOfToo⟩ :=
      exists_of_mem_forall₂ nodesToo (reordered.mem_propertyConstraints declares)
    rw [reordered.eq_of_of isOf isOfToo]
    exact isNodeToo
  · rw [Option.isSome_iff_ne_none] at cascades ⊢
    refine fun none => cascades ((cascade_of_redeclared folded).2.1.mpr fun of inside => ?_)
    exact (cascade_of_redeclared foldedToo).2.1.mp none of (reordered.mem_declarationsOf inside)
  · rcases (mem_cascadeAccesses_of_redeclared folded).mp isWay with before | declares
    · cases before
    · obtain ⟨of, inside, cascades, same⟩ := declares
      exact (mem_cascadeAccesses_of_redeclared foldedToo).mpr
        (.inr ⟨of, reordered.mem_declarationsOf inside, cascades, same⟩)

/-- **What is known of a type does not depend on the order of the declared properties.** -/
theorem within_of_build (reordered : first.Reordered second) (built : first.build type = .ok mine)
    (builtToo : second.build type = .ok yours) : mine.Within yours where
  constraints node member := by
    obtain ⟨of, declares, isOf⟩ :=
      exists_of_mem_forall₂ (classConstraints_of_build built).flip member
    obtain ⟨same, isNodeToo, isOfToo⟩ :=
      exists_of_mem_forall₂ (classConstraints_of_build builtToo)
        (reordered.mem_classConstraints declares)
    rw [reordered.eq_of_of isOf isOfToo]
    exact isNodeToo
  properties _ := reordered.property_of_build built builtToo

end Configuration.Reordered

end GraphValidation
