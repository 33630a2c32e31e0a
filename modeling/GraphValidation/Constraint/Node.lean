/-
**Constraint nodes.**

A node is a declared constraint that is ready to be evaluated: its definition is looked up, its
attributes are complete, its validator is chosen and set up, and the constraints that it is composed
of are nodes below it.

* `ConstraintNode` — the trees of nodes.
* `ConstraintDescriptor` — what a node tells about itself.
* `Composition.build` — the node of a declared constraint.
-/
import GraphValidation.Constraint.Definition

namespace GraphValidation

/-- What a constraint tells about itself. -/
inductive ConstraintDescriptor where
  | mk (constraint : String) (attributes : Attributes) (groups payload : List TypeKey)
      (template : String) (single : Bool) (composing : List ConstraintDescriptor)
  deriving Inhabited

namespace ConstraintDescriptor

def constraint : ConstraintDescriptor → String
  | mk constraint _ _ _ _ _ _ => constraint

def attributes : ConstraintDescriptor → Attributes
  | mk _ attributes _ _ _ _ _ => attributes

mutual

/-- Equality of all that a constraint tells. -/
def equal : ConstraintDescriptor → ConstraintDescriptor → Bool
  | mk constraint attributes groups payload template single composing,
    mk constraint' attributes' groups' payload' template' single' composing' =>
    constraint == constraint' && attributes.equal attributes' && groups == groups'
      && payload == payload' && template == template' && single == single'
      && equalAll composing composing'

/-- Equality of lists of descriptors. -/
def equalAll : List ConstraintDescriptor → List ConstraintDescriptor → Bool
  | [], [] => true
  | a :: as, b :: bs => equal a b && equalAll as bs
  | _, _ => false

end

mutual

/-- The document tree; composing constraints show only where there are any. -/
def toJson : ConstraintDescriptor → Json
  | mk constraint attributes groups payload template single composing =>
    .ofEntries
      ([("constraint", .string constraint), ("attributes", attributes.toJson),
        ("groups", TypeKey.listToJson groups), ("payload", TypeKey.listToJson payload),
        ("messageTemplate", .string template), ("reportAsSingleViolation", .bool single)]
      ++ match composing with
        | [] => []
        | first :: rest => [("composing", .array (first.toJson :: allToJson rest))])

/-- The document trees of descriptors. -/
def allToJson : List ConstraintDescriptor → List Json
  | [] => []
  | descriptor :: rest => descriptor.toJson :: allToJson rest

end

end ConstraintDescriptor

/-- What a node holds besides the nodes below it. -/
structure NodeContent where
  constraint : String
  attributes : Attributes
  groups : List TypeKey
  payload : List TypeKey
  template : String
  single : Bool
  /-- The name and the predicate of the validator, where the constraint has one of its own. -/
  validator : Option (String × Predicate)
  /-- The type on which the constraint is declared. -/
  owner : TypeKey
  /-- The way to the validated property, none for a constraint of the type itself. -/
  access : Option Access

/-- A constraint that is ready to be evaluated, with those that it is composed of. -/
inductive ConstraintNode where
  | mk (content : NodeContent) (composing : List ConstraintNode)

namespace ConstraintNode

def content : ConstraintNode → NodeContent
  | mk content _ => content

def composing : ConstraintNode → List ConstraintNode
  | mk _ composing => composing

mutual

/-- What a node tells about itself. -/
def descriptor : ConstraintNode → ConstraintDescriptor
  | mk content composing =>
    .mk content.constraint content.attributes content.groups content.payload content.template
      content.single (descriptors composing)

/-- What nodes tell about themselves. -/
def descriptors : List ConstraintNode → List ConstraintDescriptor
  | [] => []
  | node :: rest => node.descriptor :: descriptors rest

end

end ConstraintNode

/-! ### Building -/

namespace Composition

/-- What a composing constraint takes over from the declared one. -/
structure Inherited where
  groups : List TypeKey
  payload : List TypeKey

/-- Requires that all types of a list are registered. -/
def requireAll (types : TypeSystem) : List TypeKey → Except ConfigError Unit
  | [] => .ok ()
  | key :: rest => do
    let _ ← types.require key
    requireAll types rest

/-- The name and the predicate of the validator for a type. -/
def setUpValidator (types : TypeSystem) (definition : ConstraintDefinition) (target : TypeKey)
    (attributes : Attributes) : Except ConfigError (Option (String × Predicate)) :=
  if definition.validators.isEmpty then .ok none
  else do
    let candidate ← definition.resolve types target
    let predicate ← candidate.setUp attributes
    .ok (some (candidate.name, predicate))

/-- Composing declarations with the attributes handed down to them; `before` holds the names of
those that come earlier. -/
def overrideAll (definition : ConstraintDefinition) (attributes : Attributes)
    (before : List String) : List ConstraintDeclaration → List ConstraintDeclaration
  | [] => []
  | declaration :: rest =>
    definition.override attributes (before.count declaration.constraint) declaration
      :: overrideAll definition attributes (declaration.constraint :: before) rest

/-- The results of a fallible step on each element, in order, up to the first failure. -/
def collect {α β : Type} (step : α → Except ConfigError β) : List α → Except ConfigError (List β)
  | [] => .ok []
  | a :: rest => do
    let b ← step a
    let rest ← collect step rest
    .ok (b :: rest)

/-- The groups of a declaration: those it takes over, else its own, else the default group. -/
def groupsOf (inherited : Option Inherited) (declaration : ConstraintDeclaration) : List TypeKey :=
  match inherited with
  | some above => above.groups
  | none => if declaration.groups.isEmpty then [.defaultGroup] else declaration.groups

/-- The payload of a declaration: what it takes over, else its own. -/
def payloadOf (inherited : Option Inherited) (declaration : ConstraintDeclaration) : List TypeKey :=
  match inherited with
  | some above => above.payload
  | none => declaration.payload

/-- Builds the node of a declaration below the constraints of a chain, given how the declarations
that it is composed of are built. -/
def buildNode (types : TypeSystem) (catalog : Catalog) (owner target : TypeKey)
    (access : Option Access)
    (below : List String → Inherited → List ConstraintDeclaration →
      Except ConfigError (List ConstraintNode))
    (chain : List String) (inherited : Option Inherited) (declaration : ConstraintDeclaration) :
    Except ConfigError ConstraintNode := do
  let definition ← catalog.require declaration.constraint
  if chain.contains definition.name then
    .error (.cyclicComposition (chain ++ [definition.name]))
  else
    let attributes := declaration.attributes.mergeDefaults definition.defaults
    let groups := groupsOf inherited declaration
    requireAll types groups
    let payload := payloadOf inherited declaration
    let validator ← setUpValidator types definition target attributes
    let composing ← below (chain ++ [definition.name]) ⟨groups, payload⟩
      (overrideAll definition attributes [] definition.composedOf)
    .ok ⟨{ constraint := definition.name, attributes, groups, payload
           template := declaration.message.getD definition.message
           single := definition.single, validator, owner, access }, composing⟩

/-- Builds the node of a declaration below the constraints of a chain.  A chain never repeats a
name, so it is never longer than the catalog; `fuel` is what is left of that. -/
def buildBelow (types : TypeSystem) (catalog : Catalog) (owner target : TypeKey)
    (access : Option Access) :
    Nat → List String → Option Inherited → ConstraintDeclaration → Except ConfigError ConstraintNode
  | 0 => buildNode types catalog owner target access fun _ _ _ => .ok []
  | fuel + 1 => buildNode types catalog owner target access fun chain inherited =>
    collect (buildBelow types catalog owner target access fuel chain (some inherited))

/-- The node of a constraint declared on the type `owner`, for values of the type `target`. -/
def build (types : TypeSystem) (catalog : Catalog) (owner target : TypeKey)
    (access : Option Access) (declaration : ConstraintDeclaration) :
    Except ConfigError ConstraintNode :=
  buildBelow types catalog owner target access (catalog.definitions.length + 1) [] none declaration

end Composition

end GraphValidation
