/-
**By which members a property is read.**

A property may be declared by its field and by its accessor, each of them many times and with
different types.  Of its declarations metadata keeps the accesses of those that cascade and of those
that carry constraints.  Accesses are told apart by their members and by their declared types, so one
member may be kept with several types.

* `Access.member` — the member that an access addresses, whatever type it is declared with.
* `Configuration.primaryAccess_of_build` — **a path reads a property by the first declaration that
  cascades, else by the first one with constraints, else as a field**; so it reads a declared member
  unless the property is declared by its accessor only and nothing more is said of it.
* `primaryAccess_undeclared` — a property that is declared by its accessor is read as a field.
* `MetaProperty.Cascades`, `Configuration.cascades_of_build` — **a cascade goes over a member once for
  each type that the member is declared with**.
* `cascades_repeatedly` — a cascade goes over one field twice.
-/
import Mathlib.Data.Finset.Card
import GraphValidation.Proofs.CascadeTargets
import GraphValidation.Proofs.Survey

namespace GraphValidation

/-! ### Lists without repetitions -/

/-- The first element of a list that others are added to, each once. -/
theorem head?_foldl_addOnce {α : Type} [BEq α] (items more : List α) :
    (more.foldl addOnce items).head? = items.head?.or more.head? := by
  induction more generalizing items with
  | nil => simp
  | cons item rest ih =>
    have first : (addOnce items item).head? = items.head?.or (some item) := by
      unfold addOnce
      cases items with
      | nil => rfl
      | cons head tail => split <;> rfl
    rw [List.foldl_cons, ih, first, Option.or_assoc, List.head?_cons, Option.some_or]

/-- The first part of any item is one of the first item that has parts. -/
theorem head?_parts {α β : Type} (parts : α → List β) (items : List α) :
    ((items.flatMap fun item => (parts item).map fun part => (item, part)).head?).map Prod.fst
      = items.find? fun item => !(parts item).isEmpty := by
  induction items with
  | nil => rfl
  | cons item rest ih =>
    rw [List.flatMap_cons, List.head?_append, List.find?_cons]
    cases parts item with
    | nil => exact ih
    | cons part more => rfl

/-! ### Members -/

namespace Access

/-- The member that an access addresses, whatever type it is declared with. -/
def member : Access → Access
  | field name _ => field name .object
  | getter property _ => getter property .object
  | position index => position index
  | entry key enumKeys => entry key enumKeys
  | parameter index name _ => parameter index name .object

@[simp] theorem kind_member (access : Access) : access.member.kind = access.kind := by
  cases access <;> rfl

/-- Accesses are told apart by their members and by their declared types. -/
theorem eq_iff {access other : Access} :
    access = other ↔ access.member = other.member ∧ access.declared = other.declared := by
  constructor
  · rintro rfl
    exact ⟨rfl, rfl⟩
  · rintro ⟨members, types⟩
    cases access <;> cases other <;> simp_all [member, declared]

/-- What is read does not depend on the declared type. -/
theorem read_member {access : Access} {name : String} (reads : access.Reads name)
    {environment : Environment} {holder : Value}
    (beanLike : Engine.isBeanLike environment holder = true) (heap : Heap) :
    access.member.read heap holder = access.read heap holder := by
  cases holder with
  | bean ref => cases access <;> first | rfl | cases reads
  | map entries => cases access <;> first | rfl | cases reads
  | _ => cases beanLike

end Access

/-- The stops that an access leads to do not depend on the declared type. -/
theorem Setting.leads_member {setting : Setting} {stop : Stop} {access : Access} {name : String}
    (reads : access.Reads name)
    (beanLike : Engine.isBeanLike setting.environment stop.bean = true) (target : CascadeTarget) :
    setting.leads stop name target access.member = setting.leads stop name target access := by
  have value : setting.value (setting.site stop (some name)) access.member
      = setting.value (setting.site stop (some name)) access := by
    unfold Setting.value
    have here : (setting.site stop (some name)).bean = stop.bean := rfl
    rw [here, Access.read_member reads beanLike]
  unfold Setting.leads
  simp only [Access.kind_member, value]

/-- The member of a property that is declared in some way. -/
def AccessKind.member (name : String) : AccessKind → Access
  | field => .field name .object
  | getter => .getter name .object

theorem AccessKind.member_inj {name : String} {kind other : AccessKind} :
    kind.member name = other.member name ↔ kind = other := by
  cases kind <;> cases other <;> simp [member]

@[simp] theorem PropertyDeclaration.member_accessTo (declaration : PropertyDeclaration) :
    declaration.accessTo.member = declaration.access.member declaration.name := by
  unfold accessTo
  cases declaration.access <;> rfl

@[simp] theorem PropertyDeclaration.declared_accessTo (declaration : PropertyDeclaration) :
    declaration.accessTo.declared = declaration.declared := by
  unfold accessTo
  cases declaration.access <;> rfl

namespace Configuration

variable {configuration : Configuration} {type : TypeKey} {metadata : MetaBean}
  {property : MetaProperty} {declarations : List (TypeKey × PropertyDeclaration)}

/-- The declarations of a property have its name. -/
theorem name_of_declarationsOf {name : String} {declared : TypeKey × PropertyDeclaration}
    (member : declared ∈ configuration.declarationsOf type name) : declared.2.name = name := by
  obtain ⟨bean, -, listed⟩ := List.mem_flatMap.mp member
  obtain ⟨declaration, isDeclared, rfl⟩ := List.mem_map.mp listed
  simpa using (List.mem_filter.mp isDeclared).2

/-! ### The primary access -/

/-- The declaration that says how a path reads a property: the first one that cascades, else the
first one with constraints. -/
def reading? (declarations : List (TypeKey × PropertyDeclaration)) :
    Option (TypeKey × PropertyDeclaration) :=
  (declarations.find? (·.2.cascade)).or
    (declarations.find? fun declared => !declared.2.constraints.isEmpty)

theorem of_reading? {declared : TypeKey × PropertyDeclaration}
    (reading : reading? declarations = some declared) :
    declared ∈ declarations ∧ (declared.2.cascade = true ∨ declared.2.constraints ≠ []) := by
  rcases Option.or_eq_some_iff.mp reading with cascades | ⟨-, constrained⟩
  · exact ⟨List.mem_of_find?_eq_some cascades, .inl (by simpa using List.find?_some cascades)⟩
  · exact ⟨List.mem_of_find?_eq_some constrained, .inr (by simpa using List.find?_some constrained)⟩

theorem of_not_reading? {declared : TypeKey × PropertyDeclaration}
    (unread : reading? declarations = none) (member : declared ∈ declarations) :
    ¬ (declared.2.cascade = true ∨ declared.2.constraints ≠ []) := by
  obtain ⟨uncascaded, unconstrained⟩ := Option.or_eq_none_iff.mp unread
  have plain := List.find?_eq_none.mp uncascaded declared member
  have bare := List.find?_eq_none.mp unconstrained declared member
  simp_all

/-- The first access of a property that cascades is that of its first declaration that does. -/
theorem head?_cascadeAccesses_of_build (built : configuration.build type = .ok metadata)
    (member : property ∈ metadata.properties) :
    property.cascadeAccesses.head?
      = ((configuration.declarationsOf type property.name).find? (·.2.cascade)).map
          (·.2.accessTo) := by
  have folded := property?_of_build built property.name
  rw [(build_wellFormed built).property?_of_mem member] at folded
  have accesses := cascadeAccesses_of_redeclared folded
  simp only [Option.elim_some, Option.elim_none] at accesses
  rw [accesses, head?_foldl_addOnce, List.head?_map, List.head?_filter, List.head?_nil,
    Option.none_or]

/-- The first access of some nodes is that of the first declared constraint. -/
theorem findSome?_access
    {constraints : List ((TypeKey × PropertyDeclaration) × ConstraintDeclaration)}
    {nodes : List ConstraintNode}
    (built : List.Forall₂ (fun declared node => ConstraintNode.Of configuration declared.1.1
      declared.1.2.declared.raw (some declared.1.2.accessTo) declared.2 node) constraints nodes) :
    nodes.findSome? (·.content.access) = constraints.head?.map (·.1.2.accessTo) := by
  cases built with
  | nil => rfl
  | cons here _ =>
    have access := ((Composition.buildBelow_content here.built).2 _ (.self _)).2
    rw [List.findSome?_cons, access]
    rfl

/-- The first access of the constraints of a property is that of its first declaration with any. -/
theorem access_of_constraints (built : configuration.build type = .ok metadata)
    (member : property ∈ metadata.properties) :
    property.constraints.findSome? (·.content.access)
      = ((configuration.declarationsOf type property.name).find? fun declared =>
          !declared.2.constraints.isEmpty).map (·.2.accessTo) := by
  have nodes := propertyConstraints_of_build built property.name
  rw [(build_wellFormed built).property?_of_mem member, Option.elim_some] at nodes
  have first : ((configuration.propertyConstraints type property.name).head?).map Prod.fst
      = (configuration.declarationsOf type property.name).find? fun declared =>
          !declared.2.constraints.isEmpty :=
    head?_parts (fun declared : TypeKey × PropertyDeclaration => declared.2.constraints) _
  rw [findSome?_access nodes, ← first, Option.map_map]
  rfl

/-- **How a path reads a property**: by the first declaration that cascades, else by the first one
with constraints, else as a field.  The property is declared by the member that is read, unless it is
declared by its accessor only, and no declaration cascades or carries constraints. -/
theorem primaryAccess_of_build (built : configuration.build type = .ok metadata)
    (member : property ∈ metadata.properties) :
    property.primaryAccess
        = ((reading? (configuration.declarationsOf type property.name)).map (·.2.accessTo)).getD
            (.field property.name property.declared)
      ∧ ((∃ declared ∈ configuration.declarationsOf type property.name,
            declared.2.accessTo.member = property.primaryAccess.member)
          ↔ ∃ declared ∈ configuration.declarationsOf type property.name,
            declared.2.access = .field ∨ declared.2.cascade = true
              ∨ declared.2.constraints ≠ []) := by
  have primary : property.primaryAccess
      = ((reading? (configuration.declarationsOf type property.name)).map (·.2.accessTo)).getD
          (.field property.name property.declared) := by
    rw [reading?, Option.map_or, ← head?_cascadeAccesses_of_build built member,
      ← access_of_constraints built member]
    unfold MetaProperty.primaryAccess
    cases property.cascadeAccesses <;> rfl
  refine ⟨primary, ?_⟩
  rw [primary]
  cases reading : reading? (configuration.declarationsOf type property.name) with
  | some first =>
    obtain ⟨inside, said⟩ := of_reading? reading
    exact iff_of_true ⟨first, inside, rfl⟩ ⟨first, inside, .inr said⟩
  | none =>
    -- The field is read, and it is declared just if some declaration speaks of it.
    refine exists_congr fun declared => and_congr_right fun inside => ?_
    rw [or_iff_left (of_not_reading? reading inside), PropertyDeclaration.member_accessTo,
      name_of_declarationsOf inside]
    have sameKind : declared.2.access.member property.name = AccessKind.field.member property.name
        ↔ declared.2.access = .field := AccessKind.member_inj
    exact sameKind

end Configuration

/-- What is seen of the properties of evaluated metadata is seen of some property. -/
theorem Configuration.exists_property_of_views {configuration : Configuration} {type : TypeKey}
    {α : Type} {view : MetaProperty → α} {views : List α}
    (evaluated : (configuration.build type).toOption.map (·.properties.map view) = some views)
    {seen : α} (member : seen ∈ views) :
    ∃ metadata property, configuration.build type = .ok metadata
      ∧ property ∈ metadata.properties ∧ view property = seen := by
  obtain ⟨metadata, built, rfl⟩ := Option.map_eq_some_iff.mp evaluated
  obtain ⟨property, inside, same⟩ := List.mem_map.mp member
  exact ⟨metadata, property, eq_ok_of_toOption built, inside, same⟩

/-! ### A declared accessor -/

namespace Staff

def person : TypeKey := ⟨"Person"⟩

/-- Persons have a boss and a deputy, both declared by accessors.  Validation goes on with the boss;
nothing more is said of the deputy. -/
def declaration : BeanDeclaration where
  type := person
  id := none
  annotations := []
  properties := [⟨"boss", .getter, .named person, [], true⟩,
    ⟨"deputy", .getter, .named person, [], false⟩]
  groupSequence := none
  ignoreAnnotations := false

def configuration : Configuration where
  types := (TypeSystem.builtin.registerAll [.ofClass person []]).1
  catalog := .empty
  annotations := [⟨[declaration]⟩]
  mappings := []

/-- How paths read the properties of a person. -/
theorem accesses :
    (configuration.build person).toOption.map
        (·.properties.map fun property => (property.name, property.primaryAccess))
      = some [("boss", .getter "boss" (.named person)),
        ("deputy", .field "deputy" (.named person))] := by
  decide +kernel

end Staff

/-- The boss of a person is read by the declared accessor. -/
theorem primaryAccess_of_build_boss :
    ∃ metadata property, Staff.configuration.build Staff.person = .ok metadata
      ∧ property ∈ metadata.properties ∧ property.name = "boss"
      ∧ ∃ declared ∈ Staff.configuration.declarationsOf Staff.person property.name,
        declared.2.accessTo.member = property.primaryAccess.member := by
  obtain ⟨metadata, property, built, member, seen⟩ :=
    Configuration.exists_property_of_views Staff.accesses List.mem_cons_self
  obtain ⟨named, -⟩ := Prod.mk.inj seen
  refine ⟨metadata, property, built, member, named, ?_⟩
  rw [(Configuration.primaryAccess_of_build built member).2, named]
  decide +kernel

/-- **A property that is declared by its accessor is read as a field**: the deputy of a person is
declared by no field. -/
theorem primaryAccess_undeclared :
    ∃ metadata property, Staff.configuration.build Staff.person = .ok metadata
      ∧ property ∈ metadata.properties ∧ property.name = "deputy"
      ∧ property.primaryAccess = .field "deputy" (.named Staff.person)
      ∧ ¬ ∃ declared ∈ Staff.configuration.declarationsOf Staff.person property.name,
        declared.2.accessTo.member = property.primaryAccess.member := by
  obtain ⟨metadata, property, built, member, seen⟩ :=
    Configuration.exists_property_of_views Staff.accesses
      (List.mem_cons_of_mem _ List.mem_cons_self)
  obtain ⟨named, access⟩ := Prod.mk.inj seen
  refine ⟨metadata, property, built, member, named, access, ?_⟩
  rw [named, access]
  decide +kernel

/-! ### Cascades -/

/-- The types with which the declarations that cascade declare a member, in order. -/
def cascadedTypes (declarations : List (TypeKey × PropertyDeclaration)) (kind : AccessKind) :
    List TypeRef :=
  (declarations.filter fun declared => declared.2.cascade && declared.2.access == kind).map
    (·.2.declared)

theorem mem_cascadedTypes {declarations : List (TypeKey × PropertyDeclaration)} {kind : AccessKind}
    {type : TypeRef} :
    type ∈ cascadedTypes declarations kind
      ↔ ∃ declared ∈ declarations, declared.2.cascade = true ∧ declared.2.access = kind
        ∧ declared.2.declared = type := by
  simp only [cascadedTypes, List.mem_map, List.mem_filter, Bool.and_eq_true, beq_iff_eq, and_assoc]

section Accesses

variable {accesses : List Access} {declarations : List (TypeKey × PropertyDeclaration)}
  {name : String} (nodup : accesses.Nodup)
  (known : ∀ access, access ∈ accesses
    ↔ ∃ declared ∈ declarations, declared.2.cascade = true ∧ declared.2.accessTo = access)
  (named : ∀ declared ∈ declarations, declared.2.name = name)

include nodup known named

/-- A member is addressed as often as there are types that it is declared with. -/
theorem count_members (kind : AccessKind) :
    (accesses.map Access.member).count (kind.member name)
      = (cascadedTypes declarations kind).toFinset.card := by
  let own := accesses.filter fun access => access.member == kind.member name
  have mem_own : ∀ access, access ∈ own ↔ access ∈ accesses ∧ access.member = kind.member name :=
    fun access => List.mem_filter.trans (and_congr_right fun _ => beq_iff_eq)
  -- Member and declared type make up an access, so the accesses of one member differ in their types.
  have different : (own.map Access.declared).Nodup := by
    refine List.Nodup.map_on (fun access inside other insideToo types => ?_) (nodup.filter _)
    have members := ((mem_own access).mp inside).2.trans ((mem_own other).mp insideToo).2.symm
    exact Access.eq_iff.mpr ⟨members, types⟩
  have types : (own.map Access.declared).toFinset = (cascadedTypes declarations kind).toFinset := by
    ext type
    rw [List.mem_toFinset, List.mem_toFinset, mem_cascadedTypes, List.mem_map]
    constructor
    · rintro ⟨access, inside, rfl⟩
      obtain ⟨isAccess, same⟩ := (mem_own access).mp inside
      obtain ⟨declared, isDeclared, cascades, rfl⟩ := (known access).mp isAccess
      rw [PropertyDeclaration.member_accessTo, named declared isDeclared,
        AccessKind.member_inj] at same
      exact ⟨declared, isDeclared, cascades, same, declared.2.declared_accessTo.symm⟩
    · rintro ⟨declared, isDeclared, cascades, rfl, rfl⟩
      refine ⟨declared.2.accessTo, (mem_own _).mpr ⟨?_, ?_⟩, declared.2.declared_accessTo⟩
      · exact (known _).mpr ⟨declared, isDeclared, cascades, rfl⟩
      · rw [PropertyDeclaration.member_accessTo, named declared isDeclared]
  calc (accesses.map Access.member).count (kind.member name)
      = own.length := by
        rw [List.count_eq_countP, List.countP_map, List.countP_eq_length_filter]
        rfl
    _ = (own.map Access.declared).toFinset.card := by
        rw [List.toFinset_card_of_nodup different, List.length_map]
    _ = (cascadedTypes declarations kind).toFinset.card := by rw [types]

/-- No member is addressed twice just if each is declared with one type. -/
theorem nodup_members_iff :
    (accesses.map Access.member).Nodup
      ↔ ∀ declared ∈ declarations, ∀ other ∈ declarations, declared.2.cascade = true →
        other.2.cascade = true → declared.2.access = other.2.access →
          declared.2.declared = other.2.declared := by
  have member : ∀ declared ∈ declarations, ∀ other ∈ declarations,
      declared.2.accessTo.member = other.2.accessTo.member
        ↔ declared.2.access = other.2.access := by
    intro declared inside other insideToo
    rw [PropertyDeclaration.member_accessTo, PropertyDeclaration.member_accessTo,
      named declared inside, named other insideToo, AccessKind.member_inj]
  rw [List.nodup_map_iff_inj_on nodup]
  constructor
  · intro once declared inside other insideToo cascades cascadesToo same
    have access := once declared.2.accessTo ((known _).mpr ⟨declared, inside, cascades, rfl⟩)
      other.2.accessTo ((known _).mpr ⟨other, insideToo, cascadesToo, rfl⟩)
      ((member declared inside other insideToo).mpr same)
    simpa using congrArg Access.declared access
  · intro agree access inside other insideToo same
    obtain ⟨declared, isDeclared, cascades, rfl⟩ := (known access).mp inside
    obtain ⟨second, isDeclaredToo, cascadesToo, rfl⟩ := (known other).mp insideToo
    have types := agree declared isDeclared second isDeclaredToo cascades cascadesToo
      ((member declared isDeclared second isDeclaredToo).mp same)
    exact Access.eq_iff.mpr ⟨same, by simpa using types⟩

end Accesses

/-- A cascade goes on from a bean by the members that are addressed. -/
theorem Setting.leadsOf_members {property : MetaProperty}
    (reads : ∀ access ∈ property.cascadeAccesses, access.Reads property.name)
    {setting : Setting} {stop : Stop}
    (beanLike : Engine.isBeanLike setting.environment stop.bean = true) {target : CascadeTarget}
    (cascades : property.cascade = some target) :
    setting.leadsOf stop property
      = (property.cascadeAccesses.map Access.member).flatMap
          (setting.leads stop property.name target) := by
  simp only [Setting.leadsOf, cascades]
  rw [List.flatMap_map]
  exact List.flatMap_congr fun access inside =>
    (Setting.leads_member (reads access inside) beanLike target).symm

/-- How a cascade goes over the members of a property. -/
structure MetaProperty.Cascades (property : MetaProperty)
    (declarations : List (TypeKey × PropertyDeclaration)) : Prop where
  /-- The accesses are those of the declarations that cascade, each once. -/
  accesses : ∀ access, access ∈ property.cascadeAccesses
    ↔ ∃ declared ∈ declarations, declared.2.cascade = true ∧ declared.2.accessTo = access
  nodup : property.cascadeAccesses.Nodup
  /-- They address the field or the accessor of the property. -/
  members : ∀ access ∈ property.cascadeAccesses, ∃ kind : AccessKind,
    access.member = kind.member property.name
  /-- A member is addressed once for each type that it is declared with. -/
  count : ∀ kind : AccessKind,
    (property.cascadeAccesses.map Access.member).count (kind.member property.name)
      = (cascadedTypes declarations kind).toFinset.card
  /-- So no member is addressed twice just if all that cascade declare it with one type. -/
  once : (property.cascadeAccesses.map Access.member).Nodup
    ↔ ∀ declared ∈ declarations, ∀ other ∈ declarations, declared.2.cascade = true →
      other.2.cascade = true → declared.2.access = other.2.access →
        declared.2.declared = other.2.declared
  /-- A pass goes on from a bean by the members alone, by each as often as it is addressed. -/
  leads : ∀ (setting : Setting) (stop : Stop),
    Engine.isBeanLike setting.environment stop.bean = true →
      ∀ target, property.cascade = some target →
        setting.leadsOf stop property
          = (property.cascadeAccesses.map Access.member).flatMap
              (setting.leads stop property.name target)

/-- **A cascade goes over a member once for each type that the member is declared with.** -/
theorem Configuration.cascades_of_build {configuration : Configuration} {type : TypeKey}
    {metadata : MetaBean} {property : MetaProperty} (built : configuration.build type = .ok metadata)
    (member : property ∈ metadata.properties) :
    property.Cascades (configuration.declarationsOf type property.name) := by
  have wellFormed := build_wellFormed built
  have folded := property?_of_build built property.name
  rw [wellFormed.property?_of_mem member] at folded
  have known : ∀ access, access ∈ property.cascadeAccesses
      ↔ ∃ declared ∈ configuration.declarationsOf type property.name,
        declared.2.cascade = true ∧ declared.2.accessTo = access := fun access =>
    (mem_cascadeAccesses_of_redeclared folded).trans (or_iff_right List.not_mem_nil)
  have nodup : property.cascadeAccesses.Nodup := by
    have all := cascadeAccesses_of_redeclared folded
    simp only [Option.elim_some, Option.elim_none] at all
    rw [all]
    exact nodup_foldl_addOnce List.nodup_nil _
  have named : ∀ declared ∈ configuration.declarationsOf type property.name,
      declared.2.name = property.name := fun declared inside => name_of_declarationsOf inside
  refine ⟨known, nodup, fun access inside => ?_, count_members nodup known named,
    nodup_members_iff nodup known named, fun setting stop beanLike target cascades => ?_⟩
  · obtain ⟨declared, isDeclared, -, rfl⟩ := (known access).mp inside
    refine ⟨declared.2.access, ?_⟩
    rw [PropertyDeclaration.member_accessTo, named declared isDeclared]
  · exact Setting.leadsOf_members (wellFormed.properties property member).accesses beanLike cascades

/-! ### A field of two types -/

namespace Narrowed

/-- How a cascade reads the part of a child: as a `Base` and as a `Sub`. -/
theorem accesses :
    ((configuration true).build child).toOption.map
        (·.properties.map fun property => (property.name, property.cascadeAccesses))
      = some [("part", [.field "part" (.named base), .field "part" (.named sub)])] := by
  decide +kernel

end Narrowed

/-- A cascade goes over the part of a child once for each of its types. -/
theorem cascades_of_build_part :
    ∃ metadata property, (Narrowed.configuration true).build Narrowed.child = .ok metadata
      ∧ property ∈ metadata.properties
      ∧ property.Cascades
        ((Narrowed.configuration true).declarationsOf Narrowed.child property.name)
      ∧ (property.cascadeAccesses.map Access.member).count (AccessKind.field.member property.name)
        = 2 := by
  obtain ⟨metadata, property, built, member, seen⟩ :=
    Configuration.exists_property_of_views Narrowed.accesses List.mem_cons_self
  have cascades := Configuration.cascades_of_build built member
  refine ⟨metadata, property, built, member, cascades, ?_⟩
  rw [cascades.count .field, (Prod.mk.inj seen).1]
  decide +kernel

/-- **A cascade goes over one field twice**: the part of a child is declared to be a `Base` and a
`Sub`, and both declarations cascade. -/
theorem cascades_repeatedly :
    ∃ metadata property, (Narrowed.configuration true).build Narrowed.child = .ok metadata
      ∧ property ∈ metadata.properties
      ∧ property.cascadeAccesses
        = [.field "part" (.named Narrowed.base), .field "part" (.named Narrowed.sub)]
      ∧ ¬ (property.cascadeAccesses.map Access.member).Nodup := by
  obtain ⟨metadata, property, built, member, seen⟩ :=
    Configuration.exists_property_of_views Narrowed.accesses List.mem_cons_self
  obtain ⟨-, accesses⟩ := Prod.mk.inj seen
  refine ⟨metadata, property, built, member, accesses, ?_⟩
  rw [accesses]
  decide

end GraphValidation
