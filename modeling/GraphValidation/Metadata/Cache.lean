/-
**Metadata on demand.**

Metadata is built when a type is first asked for and kept until the declarations change.

* `MetadataCache.get` — the metadata of a type, and the cache that keeps it.
* `MetadataCache.get_fst` — a cache gives what its configuration builds.
* `MetadataCache.addMapping` — the cache after one more external source.
-/
import GraphValidation.Metadata.Builder

namespace GraphValidation

/-- A configuration and the metadata that has been built from it. -/
structure MetadataCache where
  configuration : Configuration
  built : List (TypeKey × MetaBean)
  /-- What is kept for a type is what is built for it. -/
  coherent : ∀ type metadata, built.lookup type = some metadata →
    configuration.build type = .ok metadata

namespace MetadataCache

/-- A cache without metadata. -/
def ofConfiguration (configuration : Configuration) : MetadataCache := ⟨configuration, [], nofun⟩

/-- Whether the metadata of a type is kept. -/
def contains (cache : MetadataCache) (type : TypeKey) : Bool := (cache.built.lookup type).isSome

/-- The number of types whose metadata is kept. -/
def size (cache : MetadataCache) : Nat := cache.built.length

/-- The cache that keeps the metadata of one more type. -/
def keep (cache : MetadataCache) (type : TypeKey) (metadata : MetaBean)
    (built : cache.configuration.build type = .ok metadata) : MetadataCache where
  configuration := cache.configuration
  built := (type, metadata) :: cache.built
  coherent := by
    intro other found kept
    rw [List.lookup_cons] at kept
    by_cases same : other == type
    · rw [same] at kept
      cases kept
      rw [eq_of_beq same]
      exact built
    · rw [Bool.not_eq_true] at same
      rw [same] at kept
      exact cache.coherent other found kept

/-- The metadata of a type.  What cannot be built is not kept. -/
def get (cache : MetadataCache) (type : TypeKey) : Except ConfigError MetaBean × MetadataCache :=
  match cache.built.lookup type with
  | some metadata => (.ok metadata, cache)
  | none => match built : cache.configuration.build type with
    | .ok metadata => (.ok metadata, cache.keep type metadata built)
    | .error error => (.error error, cache)

/-- A cache gives what its configuration builds. -/
theorem get_fst (cache : MetadataCache) (type : TypeKey) :
    (cache.get type).1 = cache.configuration.build type := by
  unfold get
  cases kept : cache.built.lookup type with
  | some metadata => exact (cache.coherent type metadata kept).symm
  | none =>
    dsimp only
    split
    · rename_i built
      exact built.symm
    · rename_i failed
      exact failed.symm

@[simp] theorem get_snd_configuration (cache : MetadataCache) (type : TypeKey) :
    (cache.get type).2.configuration = cache.configuration := by
  unfold get
  cases cache.built.lookup type with
  | some metadata => rfl
  | none =>
    dsimp only
    split <;> rfl

/-- The metadata of the type with an identifier. -/
def getById (cache : MetadataCache) (id : String) : Except ConfigError MetaBean × MetadataCache :=
  match cache.configuration.typeOfId? id with
  | some type => cache.get type
  | none => (.error (.unknownBeanId id), cache)

/-- The cache without any metadata. -/
def invalidate (cache : MetadataCache) : MetadataCache := ofConfiguration cache.configuration

/-- The cache after one more external source. -/
def addMapping (cache : MetadataCache) (source : DeclarationRegistry) : MetadataCache :=
  ofConfiguration
    { cache.configuration with mappings := cache.configuration.mappings ++ [source] }

end MetadataCache

end GraphValidation
