/-
**The engine, over a way of fetching values.**

The engine gets the value of a property in one way only, be it for a constraint or to go on from it:
it asks whether the property may be read, and reads it if so.  With this way as a parameter one can
say what another way of fetching makes of a validation.

* `Fetch` — a way of getting what an access reads, if it may be read.
* `Run.fetch` — the way of the engine.
* `Engine.validateBeanBy`, `Engine.validateGraphBy`, `Engine.validatePropertyBy` — the engine over a
  way of fetching.
* `validateGraph_eq_by`, `validateProperty_eq_by`, `validatePropertyValue_eq_by` — **the engine is
  the one over its own way**.
-/
import GraphValidation.Proofs.Passage

namespace GraphValidation

/-- A way of getting what an access reads on the current bean, none where it may not be read. -/
abbrev Fetch := Access → Run (Option Value)

namespace Run

/-- The way of the engine: it asks whether the property may be read, and reads it if so. -/
def fetch (environment : Environment) : Fetch := fun access => do
  if ← isTraversable environment access then some <$> propertyValue environment access
  else pure none

/-- Does something with what an access reads, if it may be read. -/
def withFetched (fetch : Fetch) (access : Access) (use : Value → Run Unit) : Run Unit := do
  match ← fetch access with
  | some value => use value
  | none => pure ()

theorem withFetched_fetch (environment : Environment) (access : Access) (use : Value → Run Unit) :
    withFetched (fetch environment) access use = (do
      if ← isTraversable environment access then do
        let value ← propertyValue environment access
        use value
      else pure ()) := by
  unfold withFetched fetch
  rw [bind_assoc]
  congr 1
  funext allowed
  cases allowed with
  | true => simp only [if_true, map_eq_pure_bind, bind_assoc, pure_bind]
  | false => simp only [Bool.false_eq_true, if_false, pure_bind]

end Run

namespace Engine

variable (environment : Environment) (fetch : Fetch)

/-! ### Constraints and cascades -/

/-- Validates a constraint of the current bean. -/
def validateConstraintBy (place : NodePlace) (node : ConstraintNode) : Run Unit := do
  let context ← get
  if !isMember environment.types node.content.groups node.content.owner context.group then pure ()
  else if !(← Run.markProcessed place) then pure ()
  else match node.content.access with
    | none => evaluate environment place context.bean node
    | some access => Run.withFetched fetch access fun value => evaluate environment place value node

/-- Validates constraints of the current bean in order. -/
def validateConstraintsBy (type : TypeKey) (property : Option String) (index : Nat) :
    List ConstraintNode → Run Unit
  | [] => pure ()
  | node :: rest => do
    validateConstraintBy environment fetch ⟨type, property, [index]⟩ node
    validateConstraintsBy type property (index + 1) rest

/-- Validates the constraints of a property. -/
def validateMetaPropertyBy (type : TypeKey) (property : MetaProperty) : Run Unit :=
  validateConstraintsBy environment fetch type (some property.name) 0 property.constraints

/-- Validates the constraints of the current bean. -/
def validateOwnBy (metadata : MetaBean) : Run Unit := do
  Run.forEach
    (fun (property : MetaProperty) =>
      if property.constraints.isEmpty then pure ()
      else Run.onProperty property.name
        (validateMetaPropertyBy environment fetch metadata.type property))
    metadata.properties
  validateConstraintsBy environment fetch metadata.type none 0 metadata.constraints

/-- Goes on from a property by each of its accesses. -/
def cascadePropertyBy (visit : Value → MetaBean → Run Unit) (target : CascadeTarget)
    (accesses : List Access) : Run Unit :=
  Run.forEach
    (fun access => Run.withFetched fetch access (validateValue environment visit target))
    accesses

/-- Goes on from all cascaded properties of the current bean. -/
def validateCascadesBy (visit : Value → MetaBean → Run Unit) (metadata : MetaBean) : Run Unit :=
  Run.forEach
    (fun (property : MetaProperty) =>
      match property.cascade with
      | none => pure ()
      | some target => Run.onProperty property.name
        (cascadePropertyBy environment fetch visit target property.cascadeAccesses))
    metadata.properties

/-- Enters a bean: validates it, and goes on from it. -/
def enterBy (visit : Value → MetaBean → Run Unit) (bean : Value) (metadata : MetaBean) :
    Run Unit := do
  Run.record (.entered bean metadata (← get).path)
  Run.onBean bean metadata do
    withDefaultSequence metadata (validateOwnBy environment fetch metadata)
    validateCascadesBy environment fetch visit metadata

/-- Validates a bean, or a map in place of one, and everything that is reached from it. -/
def validateBeanBy : Nat → Value → MetaBean → Run Unit
  | 0, _, _ => pure ()
  | fuel + 1, bean, metadata => do
    let isNew ← match bean.bean? with
      | some ref => Run.markVisited ref
      | none => pure true
    if !isNew then pure ()
    else enterBy environment fetch (validateBeanBy fuel) bean metadata

/-! ### Calls -/

/-- Validates a graph from its root for the requested groups. -/
def validateGraphBy (root : Value) (metadata : Option MetaBean) (groups : Groups) : Run Unit :=
  forEachGroup groups
    (passBy environment (validateBeanBy environment fetch (levels environment root)) root metadata)

/-- Validates the constraints of one property of the current bean. -/
def validateOnePropertyBy (metadata : MetaBean) (property : MetaProperty) (groups : Groups) :
    Run Unit :=
  Run.onProperty property.name
    (forEachGroup groups
      (withDefaultSequence metadata
        (validateMetaPropertyBy environment fetch metadata.type property)))

/-- Validates the property that a node names of a bean that has been navigated to. -/
def validateArrivedBy (node : Path.Node) (groups : Groups) :
    Option (Value × MetaBean × Path) → Run Unit
  | none => pure ()
  | some (bean, metadata, walked) => do
    let property ← namedProperty metadata node
    modify fun context => { context with path := walked }
    Run.onBean bean metadata (validateOnePropertyBy environment fetch metadata property groups)

/-- Validates the property that a path leads to from a root. -/
def validatePropertyBy (root : Value) (metadata : MetaBean) (path : Path) (groups : Groups) :
    Run Unit := do
  let arrived ← navigate environment root metadata .root path.above.reverse
  validateArrivedBy environment fetch path.leaf groups arrived

/-- Validates a value in place of a property of a type. -/
def validatePropertyValueBy (metadata : MetaBean) (name : String) (value : Value)
    (groups : Groups) : Run Unit :=
  match metadata.property? name with
  | none => throw (.unknownProperty metadata.type name)
  | some property =>
    Run.restoring
      (do
        modify fun context => { context with override := some value, lastRead := none }
        Run.onBean .null metadata
          (validateOnePropertyBy environment fetch metadata property groups))
      fun context => { context with override := none, lastRead := none }

/-! ### The engine over its own way -/

variable {environment fetch}

theorem validateConstraint_eq_by (place : NodePlace) (node : ConstraintNode) :
    validateConstraint environment place node
      = validateConstraintBy environment (Run.fetch environment) place node := by
  simp only [validateConstraintBy, Run.withFetched_fetch]
  rfl

theorem validateConstraints_eq_by (type : TypeKey) (property : Option String) (index : Nat)
    (nodes : List ConstraintNode) :
    validateConstraints environment type property index nodes
      = validateConstraintsBy environment (Run.fetch environment) type property index nodes := by
  induction nodes generalizing index with
  | nil => rfl
  | cons node rest ih =>
    simp only [validateConstraints, validateConstraintsBy, validateConstraint_eq_by, ih]

theorem validateMetaProperty_eq_by (type : TypeKey) (property : MetaProperty) :
    validateMetaProperty environment type property
      = validateMetaPropertyBy environment (Run.fetch environment) type property :=
  validateConstraints_eq_by type (some property.name) 0 property.constraints

theorem validateOwn_eq_by (metadata : MetaBean) :
    validateOwn environment metadata
      = validateOwnBy environment (Run.fetch environment) metadata := by
  unfold validateOwn validateOwnBy
  simp only [validateMetaProperty_eq_by, validateConstraints_eq_by]

theorem validateCascades_eq_by (visit : Value → MetaBean → Run Unit) (metadata : MetaBean) :
    validateCascades environment visit metadata
      = validateCascadesBy environment (Run.fetch environment) visit metadata := by
  simp only [validateCascadesBy, cascadePropertyBy, Run.withFetched_fetch]
  rfl

/-- The engine validates beans as the one over its own way does, by induction on the levels. -/
theorem validateBean_eq_by (levels : Nat) :
    validateBean environment levels
      = validateBeanBy environment (Run.fetch environment) levels := by
  induction levels with
  | zero => rfl
  | succ levels ih =>
    funext bean metadata
    simp only [validateBeanBy, enterBy, ← ih, ← validateOwn_eq_by, ← validateCascades_eq_by]
    rfl

theorem validateGraph_eq_by (root : Value) (metadata : Option MetaBean) (groups : Groups) :
    validateGraph environment root metadata groups
      = validateGraphBy environment (Run.fetch environment) root metadata groups := by
  simp only [validateGraphBy, passBy, ← validateBean_eq_by]
  rfl

theorem validateOneProperty_eq_by (metadata : MetaBean) (property : MetaProperty)
    (groups : Groups) :
    validateOneProperty environment metadata property groups
      = validateOnePropertyBy environment (Run.fetch environment) metadata property groups := by
  unfold validateOneProperty validateOnePropertyBy
  simp only [validateMetaProperty_eq_by]

theorem validateProperty_eq_by (root : Value) (metadata : MetaBean) (path : Path)
    (groups : Groups) :
    validateProperty environment root metadata path groups
      = validatePropertyBy environment (Run.fetch environment) root metadata path groups := by
  unfold validateProperty validatePropertyBy
  congr 1
  funext arrived
  cases arrived with
  | none => rfl
  | some arrived => simp only [validateOneProperty_eq_by, validateArrivedBy]

theorem validatePropertyValue_eq_by (metadata : MetaBean) (name : String) (value : Value)
    (groups : Groups) :
    validatePropertyValue environment metadata name value groups
      = validatePropertyValueBy environment (Run.fetch environment) metadata name value groups := by
  simp only [validatePropertyValueBy, ← validateOneProperty_eq_by]
  rfl

end Engine

end GraphValidation
