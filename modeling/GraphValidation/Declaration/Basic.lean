/-
**Declarations.**

What is said about a type: the constraints of the type itself and of its properties, an identifier,
a redefinition of its default group, and whether external declarations replace those made beside the
type.

* `ConstraintDeclaration`, `Annotation` — one constraint, or a container of several.
* `PropertyDeclaration`, `BeanDeclaration` — what is said about a property and about a type.
* `DeclarationRegistry` — declarations of different types, in the order in which they were made.
-/
import GraphValidation.Attribute
import GraphValidation.Access

namespace GraphValidation

/-- A declared constraint. -/
structure ConstraintDeclaration where
  constraint : String
  attributes : Attributes
  groups : List TypeKey
  payload : List TypeKey
  /-- A template in place of the default one. -/
  message : Option String

/-- A constraint without attributes, in the default group. -/
def ConstraintDeclaration.plain (constraint : String) : ConstraintDeclaration :=
  ⟨constraint, .empty, [], [], none⟩

/-- A constraint, or a named container of several. -/
inductive Annotation where
  | constraint (declaration : ConstraintDeclaration)
  | container (name : String) (declarations : List ConstraintDeclaration)

/-- The constraints of an annotation. -/
def Annotation.declarations : Annotation → List ConstraintDeclaration
  | constraint declaration => [declaration]
  | container _ declarations => declarations

/-- How a property is read. -/
inductive AccessKind where
  | field
  | getter
  deriving DecidableEq, Repr

namespace AccessKind

/-- The name of a kind of access. -/
def name : AccessKind → String
  | field => "field"
  | getter => "getter"

/-- The kind of access of a name. -/
def ofName? (name : String) : Option AccessKind :=
  if name = "field" then some field
  else if name = "getter" then some getter
  else none

end AccessKind

/-- What is said about a property. -/
structure PropertyDeclaration where
  name : String
  access : AccessKind
  declared : TypeRef
  annotations : List Annotation
  /-- Whether validation goes on with the value of the property. -/
  cascade : Bool

namespace PropertyDeclaration

/-- The access to the property that a declaration speaks of. -/
def accessTo (property : PropertyDeclaration) : Access :=
  match property.access with
  | .field => .field property.name property.declared
  | .getter => .getter property.name property.declared

/-- The constraints of a property, those in containers in place. -/
def constraints (property : PropertyDeclaration) : List ConstraintDeclaration :=
  property.annotations.flatMap Annotation.declarations

end PropertyDeclaration

/-- What is said about a type. -/
structure BeanDeclaration where
  type : TypeKey
  id : Option String
  annotations : List Annotation
  properties : List PropertyDeclaration
  groupSequence : Option (List TypeKey)
  ignoreAnnotations : Bool

/-- The constraints of a type itself, those in containers in place. -/
def BeanDeclaration.constraints (bean : BeanDeclaration) : List ConstraintDeclaration :=
  bean.annotations.flatMap Annotation.declarations

/-- Declarations of different types, in order. -/
structure DeclarationRegistry where
  beans : List BeanDeclaration

namespace DeclarationRegistry

def empty : DeclarationRegistry := ⟨[]⟩

/-- The declaration of a type. -/
def get? (registry : DeclarationRegistry) (type : TypeKey) : Option BeanDeclaration :=
  registry.beans.find? fun bean => bean.type == type

/-- Adds the declaration of a type that has none. -/
def declare (registry : DeclarationRegistry) (bean : BeanDeclaration) :
    Except ConfigError DeclarationRegistry :=
  if (registry.get? bean.type).isSome then .error (.duplicateDeclaration bean.type)
  else .ok ⟨registry.beans ++ [bean]⟩

/-- Adds declarations in order up to the first that is refused: what was added, and the refusal. -/
def declareAll (registry : DeclarationRegistry) :
    List BeanDeclaration → DeclarationRegistry × Option ConfigError
  | [] => (registry, none)
  | bean :: rest => match registry.declare bean with
    | .ok registry => registry.declareAll rest
    | .error error => (registry, some error)

/-- The registry of some declarations. -/
def ofList (beans : List BeanDeclaration) : Except ConfigError DeclarationRegistry :=
  match empty.declareAll beans with
  | (registry, none) => .ok registry
  | (_, some error) => .error error

/-- The first type that is declared with an identifier. -/
def typeOfId? (registry : DeclarationRegistry) (id : String) : Option TypeKey :=
  (registry.beans.find? fun bean => bean.id == some id).map (·.type)

/-- The declared types, in order. -/
def types (registry : DeclarationRegistry) : List TypeKey := registry.beans.map (·.type)

end DeclarationRegistry

end GraphValidation
