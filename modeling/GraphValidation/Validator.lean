/-
**Validators.**

A validator bundles a configuration with a resolver, an interpolator and the way maps are treated.
It keeps the metadata that its calls build, so each call answers with a validator to go on with.

* `Validator.validate`, `Validator.validateAs`, `Validator.validateById` — a whole graph.
* `Validator.validateProperty`, `Validator.validateValue` — one property.
* `Validator.validateBatch` — several graphs, one after the other.
* `Outcome` — what a call has found and done.
-/
import GraphValidation.Engine

namespace GraphValidation

/-- What validations are made with. -/
structure Validator where
  cache : MetadataCache
  resolver : Resolver
  interpolator : Interpolator
  mapsLikeBeans : Bool

/-- What a call has found and done. -/
structure Outcome where
  /-- The error that ended the call, if one did. -/
  failure : Option ValidationError
  /-- The violations in the order in which they were found, repetitions included. -/
  heard : List Violation
  /-- What the call has done, in order. -/
  journal : List Event
  /-- The validator after the call. -/
  validator : Validator

/-- The violations of a call, each once, unless an error ended it. -/
def Outcome.results (outcome : Outcome) : Except ValidationError ValidationResults :=
  match outcome.failure with
  | some error => .error error
  | none => .ok (.ofList outcome.heard)

namespace Validator

/-- A validator that has not built any metadata. -/
def ofConfiguration (configuration : Configuration) (resolver : Resolver)
    (interpolator : Interpolator) (mapsLikeBeans : Bool) : Validator :=
  ⟨.ofConfiguration configuration, resolver, interpolator, mapsLikeBeans⟩

/-- The registered types. -/
def types (validator : Validator) : TypeSystem := validator.cache.configuration.types

/-- What stays the same during a call on a heap. -/
def environment (validator : Validator) (heap : Heap) : Environment where
  heap
  types := validator.types
  resolver := validator.resolver
  interpolator := validator.interpolator
  mapsLikeBeans := validator.mapsLikeBeans

/-- The outcome of a call that leaves a context. -/
def outcomeOf (validator : Validator) (failure : Option ValidationError) (context : Context) :
    Outcome where
  failure
  heard := context.reported.reverse
  journal := context.journal.reverse
  validator := { validator with cache := context.cache }

/-- Runs a call on a heap. -/
def call (validator : Validator) (heap : Heap) (step : Environment → Run Unit) : Outcome :=
  match step (validator.environment heap) (.start validator.cache) with
  | .ok _ context => validator.outcomeOf none context
  | .error error context => validator.outcomeOf (some error) context

/-! ### Graphs -/

/-- Fails for null. -/
def requireRoot (root : Value) : Run Unit :=
  if root.isNull then throw .nullRoot else pure ()

/-- Sets the type of the root. -/
def setRootType (type : TypeKey) : Run Unit :=
  modify fun context => { context with rootType := some type }

/-- The metadata of a root that is validated as a whole, none for a container. -/
def rootMetadata (environment : Environment) (root : Value) : Run (Option MetaBean) :=
  match Engine.elements? environment root with
  | some _ => pure none
  | none => some <$> Run.metadataOf root.runtimeType

/-- Validates a graph for requested groups, with the metadata of its root. -/
def validateWith (environment : Environment) (root : Value) (metadata : Option MetaBean)
    (requested : List TypeKey) : Run Unit := do
  let groups ← Run.resolveGroups requested
  setRootType (match metadata with
    | some metadata => metadata.type
    | none => root.runtimeType)
  Engine.validateGraph environment root metadata groups

/-- Validates a graph from a bean or from a container of beans. -/
def validate (validator : Validator) (heap : Heap) (root : Value) (groups : List TypeKey) :
    Outcome :=
  validator.call heap fun environment => do
    requireRoot root
    let metadata ← rootMetadata environment root
    validateWith environment root metadata groups

/-- Validates a graph whose root is taken for an instance of a type. -/
def validateAs (validator : Validator) (heap : Heap) (root : Value) (type : TypeKey)
    (groups : List TypeKey) : Outcome :=
  validator.call heap fun environment => do
    requireRoot root
    let metadata ← Run.metadataOf type
    validateWith environment root (some metadata) groups

/-- Validates a graph whose root is taken for an instance of the type with an identifier. -/
def validateById (validator : Validator) (heap : Heap) (root : Value) (id : String)
    (groups : List TypeKey) : Outcome :=
  validator.call heap fun environment => do
    requireRoot root
    let metadata ← Run.metadataOfId id
    validateWith environment root (some metadata) groups

/-- Validates several graphs. -/
def validateBatch (validator : Validator) (heap : Heap) (groups : List TypeKey) :
    List Value → List Outcome × Validator
  | [] => ([], validator)
  | root :: rest =>
    let outcome := validator.validate heap root groups
    let (outcomes, validator) := outcome.validator.validateBatch heap groups rest
    (outcome :: outcomes, validator)

/-! ### Properties -/

/-- Validates the property that a path leads to from a root. -/
def validateProperty (validator : Validator) (heap : Heap) (root : Value) (path : String)
    (groups : List TypeKey) : Outcome :=
  validator.call heap fun environment => do
    requireRoot root
    let path ← Run.ofExcept .invalidPath (Path.parse path)
    let metadata ← Run.metadataOf root.runtimeType
    let groups ← Run.resolveGroups groups
    setRootType metadata.type
    Engine.validateProperty environment root metadata path groups

/-- Validates a value in place of a property of a type. -/
def validateValue (validator : Validator) (heap : Heap) (type : TypeKey) (property : String)
    (value : Value) (groups : List TypeKey) : Outcome :=
  validator.call heap fun environment => do
    let metadata ← Run.metadataOf type
    let groups ← Run.resolveGroups groups
    setRootType metadata.type
    Engine.validatePropertyValue environment metadata property value groups

/-! ### Metadata -/

/-- The metadata of a type. -/
def metaBean (validator : Validator) (type : TypeKey) : Except ConfigError MetaBean × Validator :=
  let (bean, cache) := validator.cache.get type
  (bean, { validator with cache })

/-- What the metadata of a type tells about itself. -/
def describe (validator : Validator) (type : TypeKey) :
    Except ConfigError BeanDescriptor × Validator :=
  let (bean, validator) := validator.metaBean type
  (bean.map MetaBean.describe, validator)

/-- The validator after one more external source. -/
def addMapping (validator : Validator) (source : DeclarationRegistry) : Validator :=
  { validator with cache := validator.cache.addMapping source }

end Validator

end GraphValidation
