/-
**The state of a validation.**

One call has one context.  It knows the bean and the property under validation and the path to them,
the current group, the beans that the current pass has visited, the constraints that have been
evaluated on each bean, the answers of the resolver, and the violations so far.  A journal
records what the call has asked, read, entered and evaluated.

* `Environment` — what stays the same during a call.
* `Context` — what changes.
* `Run` — a step of a validation; a failed step leaves a context too.
* `Run.propertyValue`, `Run.isTraversable`, `Run.isolate`, `Run.report` — the steps that others are
  made of.
-/
import GraphValidation.Metadata.Cache
import GraphValidation.Results
import GraphValidation.ValidationError

namespace GraphValidation

/-- The message of a template for a constraint and a validated value. -/
abbrev Interpolator := String → ConstraintDescriptor → Value → String

/-- The interpolator that reads templates with a message bundle. -/
def Bundle.toInterpolator (bundle : Bundle) : Interpolator := fun template constraint value =>
  bundle.interpolate template constraint.attributes value

/-- What stays the same during a call. -/
structure Environment where
  heap : Heap
  types : TypeSystem
  resolver : Resolver
  interpolator : Interpolator
  /-- Whether a map is validated like a bean whose members are its entries. -/
  mapsLikeBeans : Bool

/-- Where a constraint stands in metadata: the type, the property if it has one, and the positions
from the list of constraints down into composites. -/
structure NodePlace where
  type : TypeKey
  property : Option String
  positions : List Nat
  deriving DecidableEq, Repr

/-- What a call has done. -/
inductive Event where
  /-- The resolver was asked. -/
  | asked (question : Question) (request : ReachabilityRequest)
  /-- A member of a value was read at a path. -/
  | read (holder : Value) (access : Access) (path : Path)
  /-- A bean, or what is validated in place of one, was reached for the first time in a pass: with
  which metadata, and on which path. -/
  | entered (bean : Value) (metadata : MetaBean) (path : Path)
  /-- A constraint was evaluated on a bean, or on what is validated in place of one, at a path. -/
  | evaluated (bean : Value) (path : Path) (group : TypeKey) (place : NodePlace)

/-- A question that has been answered before: the bean, the text of the path, the kind of element
and the question. -/
structure AnswerKey where
  bean : Option String
  path : String
  kind : ElementKind
  question : Question
  deriving DecidableEq, Repr

/-- What changes during a call. -/
structure Context where
  rootType : Option TypeKey
  bean : Value
  metadata : Option MetaBean
  property : Option String
  /-- The last property that was read on the bean. -/
  lastRead : Option (Access × Value)
  /-- The value that stands for every property. -/
  override : Option Value
  path : Path
  group : TypeKey
  /-- The beans that the current pass has visited. -/
  visited : List String
  /-- The constraints that have been evaluated, with their beans. -/
  processed : List (String × NodePlace)
  answers : List (AnswerKey × Bool)
  /-- How often the composites under evaluation would have reported, the innermost one first. -/
  isolated : List Nat
  violationCount : Nat
  /-- The reported violations, the last one first. -/
  reported : List Violation
  /-- What has been done, the last event first. -/
  journal : List Event
  cache : MetadataCache

/-- The context that a call starts with. -/
def Context.start (cache : MetadataCache) : Context where
  rootType := none
  bean := .null
  metadata := none
  property := none
  lastRead := none
  override := none
  path := .root
  group := .defaultGroup
  visited := []
  processed := []
  answers := []
  isolated := []
  violationCount := 0
  reported := []
  journal := []
  cache

/-- A step of a validation. -/
abbrev Run (α : Type) := EStateM ValidationError Context α

namespace Run

/-- A step whose context is changed at its end, also where it fails. -/
def restoring {α : Type} (step : Run α) (restore : Context → Context) : Run α := fun context =>
  match step context with
  | .ok result context => .ok result (restore context)
  | .error error context => .error error (restore context)

/-- A step for each element of a list, in order. -/
def forEach {α : Type} (step : α → Run Unit) : List α → Run Unit
  | [] => pure ()
  | a :: rest => do
    step a
    forEach step rest

/-- Writes an event into the journal. -/
def record (event : Event) : Run Unit :=
  modify fun context => { context with journal := event :: context.journal }

/-- The result of a step that may fail for a reason of its own. -/
def ofExcept {ε α : Type} (wrap : ε → ValidationError) : Except ε α → Run α
  | .ok a => pure a
  | .error error => throw (wrap error)

/-- The metadata of a type. -/
def metadataOf (type : TypeKey) : Run MetaBean := fun context =>
  match context.cache.get type with
  | (.ok bean, cache) => .ok bean { context with cache }
  | (.error error, cache) => .error (.config error) { context with cache }

/-- The metadata of the type with an identifier. -/
def metadataOfId (id : String) : Run MetaBean := fun context =>
  match context.cache.getById id with
  | (.ok bean, cache) => .ok bean { context with cache }
  | (.error error, cache) => .error (.config error) { context with cache }

/-- What a request for groups asks for. -/
def resolveGroups (requested : List TypeKey) : Run Groups := do
  let configuration := (← get).cache.configuration
  ofExcept .config
    (GroupRequest.resolve configuration.types configuration.groupSequence requested)

/-! ### Beans and properties -/

/-- Runs a step on a bean and comes back to the one before. -/
def onBean (bean : Value) (metadata : MetaBean) (step : Run Unit) : Run Unit := do
  let before ← get
  restoring
    (do
      modify fun context =>
        { context with bean, metadata := some metadata, property := none, lastRead := none }
      step)
    fun context =>
      { context with
        bean := before.bean, metadata := before.metadata, property := before.property
        lastRead := none }

/-- Runs a step on a property of the bean and comes back to the bean. -/
def onProperty (name : String) (step : Run Unit) : Run Unit :=
  restoring
    (do
      modify fun context => { context with path := context.path.add name, property := some name }
      step)
    fun context => { context with path := context.path.removeLeaf, property := none }

/-- Whether the current pass reaches a bean for the first time. -/
def markVisited (bean : BeanRef) : Run Bool := do
  let context ← get
  if context.visited.contains bean.id then pure false
  else
    set { context with visited := bean.id :: context.visited }
    pure true

/-- Whether a constraint is evaluated on the bean for the first time.  What is no bean has no
identity, so there every time is the first. -/
def markProcessed (place : NodePlace) : Run Bool := do
  let context ← get
  match context.bean.bean? with
  | none => pure true
  | some bean =>
    if context.processed.contains (bean.id, place) then pure false
    else
      set { context with processed := (bean.id, place) :: context.processed }
      pure true

/-- The value of a property: the one that stands for all properties, the one that was read last if
it was the same, or what the access reads on the bean. -/
def propertyValue (environment : Environment) (access : Access) : Run Value := do
  let context ← get
  match context.override with
  | some value => pure value
  | none =>
    match context.lastRead.filter fun last => last.1 == access with
    | some (_, value) => pure value
    | none =>
      record (.read context.bean access context.path)
      let value ← ofExcept (.access context.path.text) (access.read environment.heap context.bean)
      modify fun context => { context with lastRead := some (access, value) }
      pure value

/-! ### Questions -/

/-- The answer of the resolver, or the one it gave to the same question before. -/
def ask (environment : Environment) (question : Question) (kind : ElementKind) : Run Bool := do
  let context ← get
  let key : AnswerKey :=
    ⟨context.bean.bean?.map (·.id), context.path.text, kind, question⟩
  match context.answers.lookup key with
  | some answer => pure answer
  | none =>
    let request : ReachabilityRequest :=
      ⟨context.bean, context.path.leaf, context.rootType, context.path.removeLeaf, kind⟩
    record (.asked question request)
    let answer ← ofExcept (.resolver question context.bean.text)
      (environment.resolver.answer question request)
    modify fun context => { context with answers := (key, answer) :: context.answers }
    pure answer

/-- Whether a property may be read and validation may go on from it. -/
def isTraversable (environment : Environment) (access : Access) : Run Bool := do
  if ← ask environment .reachable access.kind then ask environment .cascadable access.kind
  else pure false

/-! ### Reports -/

/-- Runs a step whose reports are only counted, and tells whether there were any. -/
def isolate (step : Run Unit) : Run Bool := do
  modify fun context => { context with isolated := 0 :: context.isolated }
  let failures ← restoring
    (do
      step
      return (← get).isolated.head?.getD 0)
    fun context => { context with isolated := context.isolated.tail }
  pure (decide (0 < failures))

/-- Reports a violation on the current bean, or on a property below it. -/
def report (environment : Environment) (node : ConstraintNode) (template : String)
    (property : Option String) (value : Value) : Run Unit := do
  let context ← get
  match context.isolated with
  | failures :: outer => set { context with isolated := (failures + 1) :: outer }
  | [] =>
    let descriptor := node.descriptor
    let violation : Violation :=
      { path := match property with
          | some name => context.path.add name
          | none => context.path
        message := environment.interpolator template descriptor value
        template
        rootType := context.rootType
        leafBean := context.bean.bean?
        property := property.or context.property
        invalid := value
        constraint := some descriptor }
    set { context with
      reported := violation :: context.reported
      violationCount := context.violationCount + 1 }

end Run

end GraphValidation
