/-
**Metadata of types.**

What validation knows of a type: its properties with their constraints, where validation goes on
from them, and the constraints of the type itself.

* `MetaProperty`, `MetaBean` — the metadata.
* `MetaProperty.primaryAccess` — how a path reads a property.
* `BeanDescriptor` — what the metadata of a type tells about itself.
-/
import GraphValidation.Constraint.Node

namespace GraphValidation

/-- Whose metadata a related value is validated with: that of a fixed type, or its own type's. -/
inductive CascadeTarget where
  | static (type : TypeKey)
  | dynamic
  deriving DecidableEq, Repr

/-- What is known of a property. -/
structure MetaProperty where
  name : String
  declared : TypeRef
  constraints : List ConstraintNode
  cascade : Option CascadeTarget
  /-- The ways to the related value, each once. -/
  cascadeAccesses : List Access

namespace MetaProperty

/-- A property without constraints. -/
def plain (name : String) (declared : TypeRef) : MetaProperty := ⟨name, declared, [], none, []⟩

/-- How a path reads a property: as a cascade does, else as a constraint does, else as a field. -/
def primaryAccess (property : MetaProperty) : Access :=
  match property.cascadeAccesses with
  | access :: _ => access
  | [] => (property.constraints.findSome? fun node => node.content.access).getD
      (.field property.name property.declared)

end MetaProperty

/-- What is known of a type. -/
structure MetaBean where
  type : TypeKey
  id : Option String
  properties : List MetaProperty
  constraints : List ConstraintNode
  /-- The sequence that redefines the default group. -/
  groupSequence : Option (List TypeKey)

namespace MetaBean

/-- A type of which nothing is known. -/
def blank (type : TypeKey) : MetaBean := ⟨type, none, [], [], none⟩

/-- What is known of a property. -/
def property? (bean : MetaBean) (name : String) : Option MetaProperty :=
  bean.properties.find? fun property => property.name == name

/-- The names of the features that finished metadata has. -/
def featureNames (bean : MetaBean) : List String :=
  (if bean.groupSequence.isSome then ["group-sequence"] else []) ++ ["descriptor"]

end MetaBean

/-! ### Descriptions -/

/-- What a property tells about itself. -/
structure PropertyDescriptor where
  name : String
  declared : String
  cascaded : Bool
  constraints : List ConstraintDescriptor

/-- What the metadata of a type tells about itself. -/
structure BeanDescriptor where
  type : TypeKey
  id : Option String
  constraints : List ConstraintDescriptor
  properties : List PropertyDescriptor
  groupSequence : Option (List TypeKey)

namespace BeanDescriptor

/-- Whether there is anything to validate. -/
def isConstrained (bean : BeanDescriptor) : Bool :=
  !bean.constraints.isEmpty
    || bean.properties.any fun property => property.cascaded || !property.constraints.isEmpty

/-- What a property tells about itself. -/
def property? (bean : BeanDescriptor) (name : String) : Option PropertyDescriptor :=
  bean.properties.find? fun property => property.name == name

/-- The document tree; an identifier and a sequence show only where there are any. -/
def toJson (bean : BeanDescriptor) : Json :=
  .ofEntries
    ([("beanType", .string bean.type.name),
      ("constraints", .array (bean.constraints.map ConstraintDescriptor.toJson)),
      ("properties", .array (bean.properties.map fun property => .ofEntries
        [("name", .string property.name), ("declaredType", .string property.declared),
         ("cascaded", .bool property.cascaded),
         ("constraints", .array (property.constraints.map ConstraintDescriptor.toJson))]))]
    ++ (bean.id.map fun id => ("id", .string id)).toList
    ++ (bean.groupSequence.map fun sequence =>
        ("groupSequence", TypeKey.listToJson sequence)).toList)

end BeanDescriptor

/-- What the metadata of a type tells about itself. -/
def MetaBean.describe (bean : MetaBean) : BeanDescriptor where
  type := bean.type
  id := bean.id
  constraints := bean.constraints.map ConstraintNode.descriptor
  properties := bean.properties.map fun property =>
    { name := property.name
      declared := property.declared.text
      cascaded := property.cascade.isSome
      constraints := property.constraints.map ConstraintNode.descriptor }
  groupSequence := bean.groupSequence

end GraphValidation
