/-
**Constraint definitions.**

A definition says what a constraint means: its validators for different types, the constraints it is
composed of, its default message and its default attributes.  A composite may hand attributes of
its own down to the constraints it is composed of.

* `ConstraintDefinition` — the definitions.
* `ConstraintDefinition.override` — a composing declaration with the attributes handed down to it.
* `ConstraintDefinition.resolve` — the validator for a type, the most specific one that applies.
* `Catalog` — the definitions by name.
-/
import GraphValidation.Constraint.Predicate
import GraphValidation.Declaration.Basic
import GraphValidation.Message

namespace GraphValidation

/-- An attribute of a composite that replaces one of a composing constraint. -/
structure AttributeOverride where
  /-- The attribute of the composite. -/
  source : String
  /-- The name of the composing constraint. -/
  constraint : String
  /-- Which of the composing constraints of that name, all where none is given. -/
  index : Option Nat
  /-- The attribute of the composing constraint. -/
  target : String
  deriving DecidableEq, Repr

/-- What a constraint means. -/
structure ConstraintDefinition where
  name : String
  validators : List Candidate
  composedOf : List ConstraintDeclaration
  /-- Whether violations of the composing constraints show as one of the composite. -/
  single : Bool
  /-- The default template. -/
  message : String
  defaults : Attributes
  overrides : List AttributeOverride

namespace AttributeOverride

/-- Whether an override reaches the composing constraint with a name and a position among those of
that name. -/
def reaches (override : AttributeOverride) (constraint : String) (position : Nat) : Bool :=
  override.constraint == constraint
    && (override.index.isNone || override.index == some position)

/-- The attributes of a composing constraint after an override, which changes nothing where it does
not reach the constraint or its own attribute is not set. -/
def apply (override : AttributeOverride) (composite : Attributes) (constraint : String)
    (position : Nat) (attributes : Attributes) : Attributes :=
  if override.reaches constraint position then
    match composite.get? override.source with
    | some value => attributes.insert override.target value
    | none => attributes
  else attributes

end AttributeOverride

namespace ConstraintDefinition

/-- A constraint with validators of its own. -/
def ofValidators (name : String) (validators : List Candidate) : ConstraintDefinition :=
  ⟨name, validators, [], false, Bundle.defaultTemplate name, .empty, []⟩

def isComposite (definition : ConstraintDefinition) : Bool := !definition.composedOf.isEmpty

/-- The attributes of a composing constraint after all overrides, in order. -/
def overrideAttributes (definition : ConstraintDefinition) (composite : Attributes)
    (constraint : String) (position : Nat) (attributes : Attributes) : Attributes :=
  definition.overrides.foldl
    (fun attributes override => override.apply composite constraint position attributes)
    attributes

/-- A composing declaration with the attributes handed down to it. -/
def override (definition : ConstraintDefinition) (composite : Attributes) (position : Nat)
    (declaration : ConstraintDeclaration) : ConstraintDeclaration :=
  { declaration with
    attributes := definition.overrideAttributes composite declaration.constraint position
      declaration.attributes }

/-! ### Validators for a type -/

/-- The validators whose type admits values of a type. -/
def applicable (types : TypeSystem) (definition : ConstraintDefinition) (target : TypeKey) :
    List Candidate :=
  definition.validators.filter fun candidate => types.isAssignable candidate.supported target

/-- Whether another one of some validators is for a strictly more specific type. -/
def isOutdone (types : TypeSystem) (candidates : List Candidate) (candidate : Candidate) : Bool :=
  candidates.any fun other =>
    other.supported != candidate.supported
      && types.isAssignable candidate.supported other.supported

/-- The applicable validators of which none is outdone by another one. -/
def mostSpecific (types : TypeSystem) (definition : ConstraintDefinition) (target : TypeKey) :
    List Candidate :=
  let candidates := definition.applicable types target
  candidates.filter fun candidate => !isOutdone types candidates candidate

/-- The validator for a type. -/
def resolve (types : TypeSystem) (definition : ConstraintDefinition) (target : TypeKey) :
    Except ConfigError Candidate :=
  match definition.mostSpecific types target with
  | [] => .error (.noValidatorForType definition.name target)
  | [candidate] => .ok candidate
  | candidates =>
    .error (.ambiguousValidators definition.name target (candidates.map Candidate.name))

end ConstraintDefinition

/-- Definitions of different names, in the order of their registration. -/
structure Catalog where
  definitions : List ConstraintDefinition

namespace Catalog

def empty : Catalog := ⟨[]⟩

/-- The definition of a name. -/
def get? (catalog : Catalog) (name : String) : Option ConstraintDefinition :=
  catalog.definitions.find? fun definition => definition.name == name

/-- The definition of a name that has to be known. -/
def require (catalog : Catalog) (name : String) : Except ConfigError ConstraintDefinition :=
  match catalog.get? name with
  | some definition => .ok definition
  | none => .error (.unknownConstraint name)

/-- Adds a definition with a new name and some meaning. -/
def register (catalog : Catalog) (definition : ConstraintDefinition) :
    Except ConfigError Catalog :=
  if (catalog.get? definition.name).isSome then .error (.duplicateConstraint definition.name)
  else if definition.validators.isEmpty && definition.composedOf.isEmpty then
    .error (.malformedConstraint definition.name .hollow)
  else .ok ⟨catalog.definitions ++ [definition]⟩

/-- The names of all definitions, in order. -/
def names (catalog : Catalog) : List String := catalog.definitions.map (·.name)

end Catalog

end GraphValidation
