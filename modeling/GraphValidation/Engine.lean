/-
**Validation of a graph.**

Each requested group walks the whole graph from the root.  Within one pass a bean is validated once,
on the first path that reaches it, so cycles end.  A bean whose type redefines the default group is
validated against that sequence, up to its first group with a violation; from there validation
goes on to related beans in the default group as from any other bean.

* `Engine.evaluate` — a constraint on a value.
* `Engine.validateBean` — a bean and everything that is reached from it.
* `Engine.validateGraph`, `Engine.validateProperty`, `Engine.validatePropertyValue` — the three
  kinds of calls.
-/
import GraphValidation.Context

namespace GraphValidation

namespace Engine

/-! ### Constraints -/

/-- Reports what a predicate has found on an invalid value. -/
def reportInvalid (environment : Environment) (node : ConstraintNode) (value : Value)
    (report : Report) : Run Unit := do
  Run.forEach
    (fun (custom : CustomViolation) =>
      Run.report environment node custom.template custom.property value)
    report.custom
  if report.defaultEnabled then
    Run.report environment node node.content.template none value
  else pure ()

/-- Evaluates the validator of a constraint itself. -/
def evaluateOwn (environment : Environment) (node : ConstraintNode) (value : Value) : Run Unit :=
  match node.content.validator with
  | none => pure ()
  | some (name, predicate) => do
    let path := (← get).path.text
    let (valid, report) ← Run.ofExcept (.predicate node.content.constraint name path)
      (predicate environment.heap value (.start node.content.template))
    if valid then pure () else reportInvalid environment node value report

mutual

/-- Evaluates a constraint on a value.  Of a composite that reports as one, the violations of the
composing constraints are only counted; if there are any it reports once and is done. -/
def evaluate (environment : Environment) (place : NodePlace) (value : Value) :
    ConstraintNode → Run Unit
  | .mk content composing => do
    let context ← get
    Run.record (.evaluated context.bean context.path context.group place)
    let node : ConstraintNode := .mk content composing
    if !composing.isEmpty && content.single then do
      if ← Run.isolate (evaluateAll environment place 0 value composing) then
        Run.report environment node content.template none value
      else evaluateOwn environment node value
    else do
      evaluateAll environment place 0 value composing
      evaluateOwn environment node value

/-- Evaluates composing constraints in order. -/
def evaluateAll (environment : Environment) (place : NodePlace) (index : Nat) (value : Value) :
    List ConstraintNode → Run Unit
  | [] => pure ()
  | node :: rest => do
    evaluate environment { place with positions := place.positions ++ [index] } value node
    evaluateAll environment place (index + 1) value rest

end

/-- Validates a constraint of the current bean, if it belongs to the current group and has not been
evaluated on the bean before. -/
def validateConstraint (environment : Environment) (place : NodePlace) (node : ConstraintNode) :
    Run Unit := do
  let context ← get
  if !isMember environment.types node.content.groups node.content.owner context.group then pure ()
  else if !(← Run.markProcessed place) then pure ()
  else match node.content.access with
    | none => evaluate environment place context.bean node
    | some access =>
      if ← Run.isTraversable environment access then do
        let value ← Run.propertyValue environment access
        evaluate environment place value node
      else pure ()

/-- Validates constraints of the current bean in order, from a position in the list of them. -/
def validateConstraints (environment : Environment) (type : TypeKey) (property : Option String)
    (index : Nat) : List ConstraintNode → Run Unit
  | [] => pure ()
  | node :: rest => do
    validateConstraint environment ⟨type, property, [index]⟩ node
    validateConstraints environment type property (index + 1) rest

/-- Validates the constraints of a property. -/
def validateMetaProperty (environment : Environment) (type : TypeKey) (property : MetaProperty) :
    Run Unit :=
  validateConstraints environment type (some property.name) 0 property.constraints

/-- Validates the constraints of the current bean: those of its properties, then its own. -/
def validateOwn (environment : Environment) (metadata : MetaBean) : Run Unit := do
  Run.forEach
    (fun (property : MetaProperty) =>
      if property.constraints.isEmpty then pure ()
      else Run.onProperty property.name
        (validateMetaProperty environment metadata.type property))
    metadata.properties
  validateConstraints environment metadata.type none 0 metadata.constraints

/-! ### Groups -/

/-- Switches to a group. -/
def setGroup (group : TypeKey) : Run Unit := modify fun context => { context with group }

/-- Runs a step and tells whether it reported violations. -/
def reports (step : Run Unit) : Run Bool := do
  let before := (← get).violationCount
  step
  return decide (before < (← get).violationCount)

/-- Runs a step for each group of a sequence, up to the first that reports violations. -/
def runSequence (prepare : TypeKey → Run Unit) (step : Run Unit) : List TypeKey → Run Unit
  | [] => pure ()
  | group :: rest => do
    prepare group
    if ← reports step then pure () else runSequence prepare step rest

/-- Comes back to the default group. -/
def backToDefault (context : Context) : Context := { context with group := .defaultGroup }

/-- Runs a step in the current group, or, if that is the default group and the type redefines it, in
the groups of the sequence. -/
def withDefaultSequence (metadata : MetaBean) (step : Run Unit) : Run Unit := do
  match metadata.groupSequence with
  | some sequence =>
    if (← get).group = .defaultGroup then
      Run.restoring (runSequence setGroup step sequence) backToDefault
    else step
  | none => step

/-- Starts a pass in a group. -/
def startPass (group : TypeKey) : Run Unit :=
  modify fun context => { context with visited := [], group }

/-- Runs a step for each plain group, and for each sequence up to its first violated group. -/
def forEachGroup (groups : Groups) (step : Run Unit) : Run Unit :=
  Run.restoring
    (do
      Run.forEach (fun group => do startPass group; step) groups.plain
      Run.forEach (runSequence startPass step) groups.sequences)
    backToDefault

/-! ### Cascades -/

/-- Whether a value has members that can be validated. -/
def isBeanLike (environment : Environment) : Value → Bool
  | .bean _ => true
  | .map _ => environment.mapsLikeBeans
  | _ => false

/-- Marks the leaf of the path. -/
def markLeaf (mark : Path.Mark) : Run Unit :=
  modify fun context => { context with path := context.path.markLeaf mark }

/-- Validates an element, given how a bean is validated.  What has no members is skipped. -/
def validateElement (environment : Environment) (visit : Value → MetaBean → Run Unit)
    (target : CascadeTarget) (element : Value) : Run Unit :=
  if isBeanLike environment element then do
    let metadata ← Run.metadataOf
      (match target with
        | .static type => type
        | .dynamic => element.runtimeType)
    visit element metadata
  else pure ()

/-- Validates marked elements in order.  Null elements are skipped. -/
def validateElements (environment : Environment) (visit : Value → MetaBean → Run Unit)
    (target : CascadeTarget) : List (Path.Mark × Value) → Run Unit
  | [] => pure ()
  | (mark, element) :: rest => do
    if element.isNull then pure ()
    else
      markLeaf mark
      validateElement environment visit target element
    validateElements environment visit target rest

/-- Elements with the marks of their positions. -/
def withPositions (index : Nat) : List Value → List (Path.Mark × Value)
  | [] => []
  | element :: rest => (.index index, element) :: withPositions (index + 1) rest

/-- The elements of a container with their marks, none for what is validated as a whole. -/
def elements? (environment : Environment) : Value → Option (List (Path.Mark × Value))
  | .list items => some (withPositions 0 items)
  | .array items => some (withPositions 0 items)
  | .set items => some (items.map fun item => (.element, item))
  | .map entries =>
    if environment.mapsLikeBeans then none
    else some (entries.map fun entry => (.key (.entry entry.1), entry.2))
  | _ => none

/-- Validates a related value: its elements if it is a container, else the value itself. -/
def validateValue (environment : Environment) (visit : Value → MetaBean → Run Unit)
    (target : CascadeTarget) (value : Value) : Run Unit :=
  if value.isNull then pure ()
  else match elements? environment value with
    | some elements => do
      validateElements environment visit target elements
      markLeaf .plain
    | none => validateElement environment visit target value

/-- Goes on from a property by each of its accesses. -/
def cascadeProperty (environment : Environment) (visit : Value → MetaBean → Run Unit)
    (target : CascadeTarget) (accesses : List Access) : Run Unit :=
  Run.forEach
    (fun access => do
      if ← Run.isTraversable environment access then do
        let value ← Run.propertyValue environment access
        validateValue environment visit target value
      else pure ())
    accesses

/-- Goes on from all cascaded properties of the current bean. -/
def validateCascades (environment : Environment) (visit : Value → MetaBean → Run Unit)
    (metadata : MetaBean) : Run Unit :=
  Run.forEach
    (fun (property : MetaProperty) =>
      match property.cascade with
      | none => pure ()
      | some target => Run.onProperty property.name
        (cascadeProperty environment visit target property.cascadeAccesses))
    metadata.properties

/-- Validates a bean, or a map in place of one, and everything that is reached from it.  Each level
either enters a bean for the first time in the pass or descends into a map, so the levels are
bounded by the size of the graph; `fuel` is what is left of that. -/
def validateBean (environment : Environment) : Nat → Value → MetaBean → Run Unit
  | 0, _, _ => pure ()
  | fuel + 1, bean, metadata => do
    let isNew ← match bean.bean? with
      | some ref => Run.markVisited ref
      | none => pure true
    if !isNew then pure ()
    else do
      Run.record (.entered bean metadata (← get).path)
      Run.onBean bean metadata do
        withDefaultSequence metadata (validateOwn environment metadata)
        validateCascades environment (validateBean environment fuel) metadata

mutual

/-- The number of values in a value. -/
def weight : Value → Nat
  | .list items => weightAll items + 1
  | .set items => weightAll items + 1
  | .array items => weightAll items + 1
  | .map entries => weightEntries entries + 1
  | _ => 1

/-- The number of values in some values. -/
def weightAll : List Value → Nat
  | [] => 0
  | item :: rest => weight item + weightAll rest

/-- The number of values in the entries of a map. -/
def weightEntries : List (MapKey × Value) → Nat
  | [] => 0
  | (_, value) :: rest => weight value + weightEntries rest

end

/-- The number of values and beans in a heap. -/
def heapWeight (heap : Heap) : Nat :=
  heap.beans.foldl (fun total members =>
    total + weightAll (members.fields.map (·.2)) + weightAll (members.getters.map (·.2)) + 1) 0

/-- A bound for the levels of a graph below a root. -/
def levels (environment : Environment) (root : Value) : Nat :=
  heapWeight environment.heap + weight root + 2

/-- Validates a graph from its root for the requested groups, with the metadata of the root if it is
validated as a whole. -/
def validateGraph (environment : Environment) (root : Value) (metadata : Option MetaBean)
    (groups : Groups) : Run Unit :=
  let visit := validateBean environment (levels environment root)
  forEachGroup groups
    (match metadata with
      | some metadata => visit root metadata
      | none => validateValue environment visit .dynamic root)

/-! ### Single properties -/

/-- Reads a member on the way along a path. -/
def readAt (environment : Environment) (path : Path) (access : Access) (holder : Value) :
    Run Value := do
  Run.record (.read holder access path)
  Run.ofExcept (.access path.text) (access.read environment.heap holder)

/-- The access to the element that a mark names.  A written key names a constant where the keys of
the declared map are constants of an enum. -/
def elementAccess? (types : TypeSystem) (declared : TypeRef) : Path.Mark → Option Access
  | .plain => none
  | .element => none
  | .index position => some (.position position)
  | .key (.entry key) => some (.entry key none)
  | .key (.written text) =>
    match declared.mapKey? types with
    | some keyType =>
      if types.isEnum keyType.raw then some (.entry (.string text) (some keyType.raw))
      else some (.entry (.string text) none)
    | none => some (.entry (.string text) none)

/-- The property of a type that a node of a path names. -/
def namedProperty (metadata : MetaBean) (node : Path.Node) : Run MetaProperty :=
  match node.name with
  | none => throw (.unknownProperty metadata.type "")
  | some name => match metadata.property? name with
    | none => throw (.unknownProperty metadata.type name)
    | some property => pure property

/-- The value that a node of a path leads to, none where an element has no position. -/
def stepInto (environment : Environment) (walked : Path) (node : Path.Node)
    (property : MetaProperty) (bean : Value) : Run (Option Value) := do
  let value ← readAt environment walked property.primaryAccess bean
  if node.mark.isElement then
    match elementAccess? environment.types property.declared node.mark with
    | none => pure none
    | some access => do
      let element ← readAt environment walked access value
      pure (some element)
  else pure (some value)

/-- Follows the nodes of a path from a bean: the last bean with its metadata and the path to it,
none where the way ends at a value without members. -/
def navigate (environment : Environment) (bean : Value) (metadata : MetaBean) (walked : Path) :
    List Path.Node → Run (Option (Value × MetaBean × Path))
  | [] => pure (some (bean, metadata, walked))
  | node :: rest => do
    let property ← namedProperty metadata node
    let walked := walked.push node
    match ← stepInto environment walked node property bean with
    | none => pure none
    | some value =>
      if value.isNull || !isBeanLike environment value then pure none
      else do
        let metadata ← Run.metadataOf value.runtimeType
        navigate environment value metadata walked rest

/-- Validates the constraints of one property of the current bean. -/
def validateOneProperty (environment : Environment) (metadata : MetaBean) (property : MetaProperty)
    (groups : Groups) : Run Unit :=
  Run.onProperty property.name
    (forEachGroup groups
      (withDefaultSequence metadata
        (validateMetaProperty environment metadata.type property)))

/-- Validates the property that a path leads to from a root. -/
def validateProperty (environment : Environment) (root : Value) (metadata : MetaBean) (path : Path)
    (groups : Groups) : Run Unit := do
  match ← navigate environment root metadata .root path.above.reverse with
  | none => pure ()
  | some (bean, metadata, walked) => do
    let property ← namedProperty metadata path.leaf
    modify fun context => { context with path := walked }
    Run.onBean bean metadata (validateOneProperty environment metadata property groups)

/-- Validates a value in place of a property of a type, without an instance of the type. -/
def validatePropertyValue (environment : Environment) (metadata : MetaBean) (name : String)
    (value : Value) (groups : Groups) : Run Unit :=
  match metadata.property? name with
  | none => throw (.unknownProperty metadata.type name)
  | some property =>
    Run.restoring
      (do
        modify fun context => { context with override := some value, lastRead := none }
        Run.onBean .null metadata (validateOneProperty environment metadata property groups))
      fun context => { context with override := none, lastRead := none }

end Engine

end GraphValidation
