/-
**Types that are declared with an identifier.**

Metadata is looked up by an identifier in two steps: the sources are searched for a type that is
declared with it, the mappings first, and then the metadata of the type is built.  The search looks
at all declarations; building goes by those that are in force.  So where a mapping drops what is
declared beside a type, the type is still found by an identifier that is declared there.

* `Configuration.Names` — some source declares a type with an identifier.
* `Configuration.Carries` — a declaration of the type that is in force does.
* `Configuration.Overruled` — a mapping of the type drops what is declared beside it, and no mapping
  of the type says the identifier.
* `Configuration.carries_iff` — **an identifier that is declared is in force unless it is
  overruled**.
* `MetadataCache.LooksUp`, `MetadataCache.getById_looksUp` — **what is found by an identifier**.
* `getById_overruled` — a type is found by an identifier that is not in force.
-/
import GraphValidation.Metadata.Cache
import GraphValidation.Proofs.Inheritance

namespace GraphValidation

/-! ### Declarations of different types -/

namespace DeclarationRegistry

variable {registry later : DeclarationRegistry} {bean : BeanDeclaration} {type : TypeKey}
  {id : String}

theorem isSome_get? : (registry.get? type).isSome ↔ type ∈ registry.types := by
  simp [get?, types, List.find?_isSome]

/-- A registry stays one of different types. -/
theorem nodup_types_declare (distinct : registry.types.Nodup)
    (declared : registry.declare bean = .ok later) : later.types.Nodup := by
  unfold declare at declared
  split at declared
  · cases declared
  · next unknown =>
    cases declared
    have fresh : bean.type ∉ registry.types := mt isSome_get?.mpr unknown
    have grown : (registry.beans ++ [bean]).map (·.type) = registry.types.concat bean.type := by
      rw [List.map_append, List.concat_eq_append]
      rfl
    rw [types, grown]
    exact (List.nodup_concat _ _).mpr ⟨fresh, distinct⟩

theorem nodup_types_declareAll (distinct : registry.types.Nodup) (beans : List BeanDeclaration) :
    (registry.declareAll beans).1.types.Nodup := by
  induction beans generalizing registry with
  | nil => exact distinct
  | cons bean rest ih =>
    unfold declareAll
    split
    · next declared => exact ih (nodup_types_declare distinct declared)
    · exact distinct

/-- In a registry of different types a declaration is known by its type. -/
theorem get?_of_mem (distinct : registry.types.Nodup) (member : bean ∈ registry.beans) :
    registry.get? bean.type = some bean := by
  cases found : registry.get? bean.type with
  | none => exact absurd (beq_self_eq_true bean.type) (List.find?_eq_none.mp found bean member)
  | some other =>
    have same : other.type = bean.type := by simpa using List.find?_some found
    rw [List.inj_on_of_nodup_map distinct (List.mem_of_find?_eq_some found) member same]

/-- A type that is found by an identifier is declared with it. -/
theorem exists_of_typeOfId? (distinct : registry.types.Nodup)
    (found : registry.typeOfId? id = some type) :
    ∃ bean, registry.get? type = some bean ∧ bean.id = some id := by
  obtain ⟨bean, first, rfl⟩ := Option.map_eq_some_iff.mp found
  exact ⟨bean, get?_of_mem distinct (List.mem_of_find?_eq_some first),
    by simpa using List.find?_some first⟩

/-- A type that is declared with an identifier is found by it, or another one is. -/
theorem typeOfId?_isSome (known : registry.get? type = some bean) (named : bean.id = some id) :
    (registry.typeOfId? id).isSome := by
  rw [typeOfId?, Option.isSome_map, List.find?_isSome]
  exact ⟨bean, List.mem_of_find?_eq_some known, beq_iff_eq.mpr named⟩

end DeclarationRegistry

/-! ### Identifiers in force -/

namespace Configuration

/-- Some source declares a type with an identifier. -/
def Names (configuration : Configuration) (id : String) (type : TypeKey) : Prop :=
  ∃ source ∈ configuration.mappings ++ configuration.annotations,
    ∃ bean, source.get? type = some bean ∧ bean.id = some id

/-- A declaration of a type that is in force carries an identifier. -/
def Carries (configuration : Configuration) (id : String) (type : TypeKey) : Prop :=
  ∃ bean ∈ configuration.declarationsFor type, bean.id = some id

/-- A mapping of a type drops what is declared beside it, and none of its mappings says the
identifier. -/
structure Overruled (configuration : Configuration) (id : String) (type : TypeKey) : Prop where
  dropped : ∃ mapping ∈ configuration.mappings, ∃ bean, mapping.get? type = some bean
    ∧ bean.ignoreAnnotations
  unsaid : ∀ mapping ∈ configuration.mappings, ∀ bean, mapping.get? type = some bean →
    bean.id ≠ some id

variable {configuration : Configuration} {type : TypeKey} {id : String}

/-- **An identifier that is declared is in force unless it is overruled.** -/
theorem carries_iff : configuration.Carries id type
    ↔ configuration.Names id type ∧ ¬ configuration.Overruled id type := by
  constructor
  · rintro ⟨bean, inForce, named⟩
    rcases mem_declarationsFor.mp inForce with ⟨mapping, member, found⟩ | ⟨kept, source, member, found⟩
    · exact ⟨⟨mapping, List.mem_append_left _ member, bean, found, named⟩,
        fun overruled => overruled.unsaid mapping member bean found named⟩
    · exact ⟨⟨source, List.mem_append_right _ member, bean, found, named⟩,
        fun overruled => kept overruled.dropped⟩
  · rintro ⟨⟨source, member, bean, found, named⟩, standing⟩
    by_cases said : ∃ mapping ∈ configuration.mappings, ∃ bean, mapping.get? type = some bean
        ∧ bean.id = some id
    · obtain ⟨mapping, isMapping, bean, found, named⟩ := said
      exact ⟨bean, mem_declarationsFor.mpr (.inl ⟨mapping, isMapping, found⟩), named⟩
    · have unsaid : ∀ mapping ∈ configuration.mappings, ∀ bean, mapping.get? type = some bean →
          bean.id ≠ some id :=
        fun mapping isMapping bean found named => said ⟨mapping, isMapping, bean, found, named⟩
      rcases List.mem_append.mp member with isMapping | isAnnotation
      · exact absurd named (unsaid source isMapping bean found)
      · refine ⟨bean, mem_declarationsFor.mpr (.inr ⟨fun dropped => ?_, source, isAnnotation,
          found⟩), named⟩
        exact standing ⟨dropped, unsaid⟩

/-! ### The search -/

/-- A type that is found by an identifier is declared with it. -/
theorem names_of_typeOfId?
    (distinct : ∀ source ∈ configuration.mappings ++ configuration.annotations,
      source.types.Nodup)
    (found : configuration.typeOfId? id = some type) : configuration.Names id type := by
  obtain ⟨source, member, found⟩ := List.exists_of_findSome?_eq_some found
  obtain ⟨bean, known, named⟩ :=
    DeclarationRegistry.exists_of_typeOfId? (distinct source member) found
  exact ⟨source, member, bean, known, named⟩

/-- Some type is found by an identifier that is declared. -/
theorem typeOfId?_isSome (named : configuration.Names id type) :
    (configuration.typeOfId? id).isSome := by
  obtain ⟨source, member, bean, known, carries⟩ := named
  rw [typeOfId?, List.findSome?_isSome_iff]
  exact ⟨source, member, DeclarationRegistry.typeOfId?_isSome known carries⟩

/-- Mappings come first: what is found by an identifier that some mapping says, a mapping says. -/
theorem said_of_typeOfId?
    (distinct : ∀ source ∈ configuration.mappings ++ configuration.annotations,
      source.types.Nodup) {mapping : DeclarationRegistry} (isMapping : mapping ∈ configuration.mappings)
    {other : TypeKey} {bean : BeanDeclaration} (known : mapping.get? other = some bean)
    (named : bean.id = some id) (found : configuration.typeOfId? id = some type) :
    ¬ configuration.Overruled id type := by
  have first : (configuration.mappings.findSome? (·.typeOfId? id)).isSome := by
    rw [List.findSome?_isSome_iff]
    exact ⟨mapping, isMapping, DeclarationRegistry.typeOfId?_isSome known named⟩
  obtain ⟨own, isOwn⟩ := Option.isSome_iff_exists.mp first
  rw [typeOfId?, List.findSome?_append, isOwn, Option.some_or] at found
  cases found
  obtain ⟨source, member, search⟩ := List.exists_of_findSome?_eq_some isOwn
  obtain ⟨bean, known, named⟩ :=
    DeclarationRegistry.exists_of_typeOfId? (distinct source (List.mem_append_left _ member)) search
  exact fun overruled => overruled.unsaid source member bean known named

end Configuration

/-! ### Metadata by an identifier -/

/-- What is found by an identifier. -/
structure MetadataCache.LooksUp (cache : MetadataCache) (id : String) : Prop where
  /-- Where some source declares a type with the identifier, the metadata of such a type is built. -/
  known : ∀ type, cache.configuration.Names id type → ∃ found,
    cache.configuration.Names id found
      ∧ (cache.getById id).1 = cache.configuration.build found
  unknown : (∀ type, ¬ cache.configuration.Names id type) →
    (cache.getById id).1 = .error (.unknownBeanId id)
  /-- A declaration in force carries the identifier, unless it is overruled. -/
  found : ∀ metadata, (cache.getById id).1 = .ok metadata →
    cache.configuration.Names id metadata.type
      ∧ (cache.configuration.Carries id metadata.type
        ↔ ¬ cache.configuration.Overruled id metadata.type)
  /-- An identifier that some mapping says is never found where it is overruled. -/
  mapped : ∀ mapping ∈ cache.configuration.mappings, ∀ type bean,
    mapping.get? type = some bean → bean.id = some id →
      ∀ metadata, (cache.getById id).1 = .ok metadata →
        cache.configuration.Carries id metadata.type
  /-- Where no declaration of the identifier is overruled, only those in force count. -/
  standing : (∀ type, cache.configuration.Names id type →
      ¬ cache.configuration.Overruled id type) →
    (∀ metadata, (cache.getById id).1 = .ok metadata →
        cache.configuration.Carries id metadata.type)
      ∧ ((∀ type, ¬ cache.configuration.Carries id type) →
        (cache.getById id).1 = .error (.unknownBeanId id))

namespace MetadataCache

variable {cache : MetadataCache} {id : String} {type : TypeKey} {metadata : MetaBean}

theorem getById_of_some (found : cache.configuration.typeOfId? id = some type) :
    (cache.getById id).1 = cache.configuration.build type := by
  rw [getById, found]
  exact cache.get_fst type

theorem getById_of_none (unknown : cache.configuration.typeOfId? id = none) :
    (cache.getById id).1 = .error (.unknownBeanId id) := by
  rw [getById, unknown]

/-- Metadata that is found is that of the type that is found. -/
theorem typeOfId?_of_getById (answer : (cache.getById id).1 = .ok metadata) :
    cache.configuration.typeOfId? id = some metadata.type := by
  cases found : cache.configuration.typeOfId? id with
  | none =>
    rw [getById_of_none found] at answer
    cases answer
  | some type =>
    rw [getById_of_some found] at answer
    rw [Configuration.build_type answer]

/-- **What is found by an identifier**: the metadata of a type that some source declares with it, be
the declaration in force or not. -/
theorem getById_looksUp (cache : MetadataCache) (id : String)
    (distinct : ∀ source ∈ cache.configuration.mappings ++ cache.configuration.annotations,
      source.types.Nodup) : cache.LooksUp id := by
  have unknown : (∀ type, ¬ cache.configuration.Names id type) →
      (cache.getById id).1 = .error (.unknownBeanId id) := by
    intro none
    cases found : cache.configuration.typeOfId? id with
    | none => exact getById_of_none found
    | some type => exact absurd (Configuration.names_of_typeOfId? distinct found) (none type)
  have found : ∀ metadata, (cache.getById id).1 = .ok metadata →
      cache.configuration.Names id metadata.type := fun metadata answer =>
    Configuration.names_of_typeOfId? distinct (typeOfId?_of_getById answer)
  have standing : ∀ type, cache.configuration.Names id type →
      ¬ cache.configuration.Overruled id type → cache.configuration.Carries id type :=
    fun type named stands => Configuration.carries_iff.mpr ⟨named, stands⟩
  refine ⟨fun type named => ?_, unknown, fun metadata answer => ⟨found metadata answer, ?_⟩,
    fun mapping isMapping type bean isKnown named metadata answer => ?_, fun stands => ⟨?_, ?_⟩⟩
  · obtain ⟨first, isFirst⟩ := Option.isSome_iff_exists.mp (Configuration.typeOfId?_isSome named)
    exact ⟨first, Configuration.names_of_typeOfId? distinct isFirst, getById_of_some isFirst⟩
  · rw [Configuration.carries_iff]
    exact and_iff_right (found metadata answer)
  · exact standing metadata.type (found metadata answer)
      (Configuration.said_of_typeOfId? distinct isMapping isKnown named (typeOfId?_of_getById answer))
  · exact fun metadata answer =>
      standing metadata.type (found metadata answer) (stands _ (found metadata answer))
  · exact fun none => unknown fun type named => none type (standing type named (stands type named))

end MetadataCache

/-! ### A withdrawn identifier -/

namespace Withdrawn

def address : TypeKey := ⟨"Address"⟩
def person : TypeKey := ⟨"Person"⟩

def declaration (type : TypeKey) (id : Option String) (ignoreAnnotations : Bool) :
    BeanDeclaration :=
  ⟨type, id, [], [], none, ignoreAnnotations⟩

/-- The registry that some declarations make. -/
def registry (beans : List BeanDeclaration) : DeclarationRegistry :=
  (DeclarationRegistry.empty.declareAll beans).1

/-- Addresses and persons are declared with identifiers.  A mapping drops what is declared beside
both of them, and says that of persons again. -/
def configuration : Configuration where
  types := (TypeSystem.builtin.registerAll [.ofClass address [], .ofClass person []]).1
  catalog := .empty
  annotations := [registry [declaration address (some "address") false,
    declaration person (some "person") false]]
  mappings := [registry [declaration address none true, declaration person (some "person") true]]

def cache : MetadataCache := .ofConfiguration configuration

theorem distinct : ∀ source ∈ configuration.mappings ++ configuration.annotations,
    source.types.Nodup := by
  intro source member
  have made : ∃ beans, source = registry beans := by
    rcases List.mem_append.mp member with isMapping | isAnnotation
    · exact ⟨_, List.mem_singleton.mp isMapping⟩
    · exact ⟨_, List.mem_singleton.mp isAnnotation⟩
  obtain ⟨beans, rfl⟩ := made
  have blank : DeclarationRegistry.empty.types.Nodup := List.nodup_nil
  exact DeclarationRegistry.nodup_types_declareAll blank beans

end Withdrawn

/-- The identifier of persons, which their mapping says again, is in force. -/
theorem MetadataCache.getById_looksUp_person :
    (∀ source ∈ Withdrawn.configuration.mappings ++ Withdrawn.configuration.annotations,
        source.types.Nodup)
      ∧ Withdrawn.cache.LooksUp "person"
      ∧ ∃ metadata, (Withdrawn.cache.getById "person").1 = .ok metadata
        ∧ Withdrawn.configuration.Carries "person" metadata.type := by
  have looksUp := MetadataCache.getById_looksUp Withdrawn.cache "person" Withdrawn.distinct
  have succeeds : (Withdrawn.cache.getById "person").1.toOption.isSome := by decide +kernel
  obtain ⟨metadata, answer⟩ := Option.isSome_iff_exists.mp succeeds
  have found := eq_ok_of_toOption answer
  exact ⟨Withdrawn.distinct, looksUp, metadata, found,
    looksUp.mapped _ List.mem_cons_self Withdrawn.person _ rfl rfl metadata found⟩

/-- **Metadata is found by an identifier that no declaration in force carries**: a mapping drops the
declaration of addresses that says it. -/
theorem MetadataCache.getById_overruled :
    (∀ type, ¬ Withdrawn.configuration.Carries "address" type)
      ∧ ∃ metadata, (Withdrawn.cache.getById "address").1 = .ok metadata := by
  constructor
  · intro type carries
    obtain ⟨⟨source, member, bean, found, named⟩, standing⟩ := Configuration.carries_iff.mp carries
    have only : ∀ source ∈ Withdrawn.configuration.mappings ++ Withdrawn.configuration.annotations,
        ∀ bean ∈ source.beans, bean.id = some "address" → bean.type = Withdrawn.address := by
      decide +kernel
    have isAddress : bean.type = type := by simpa using List.find?_some found
    rw [only source member bean (List.mem_of_find?_eq_some found) named] at isAddress
    subst isAddress
    refine standing ⟨⟨_, List.mem_cons_self, _, rfl, rfl⟩, fun mapping isMapping bean known => ?_⟩
    rw [List.mem_singleton.mp isMapping] at known
    cases known
    decide
  · have succeeds : (Withdrawn.cache.getById "address").1.toOption.isSome := by decide +kernel
    obtain ⟨metadata, answer⟩ := Option.isSome_iff_exists.mp succeeds
    exact ⟨metadata, eq_ok_of_toOption answer⟩

end GraphValidation
