/-
**Inspection of a configuration.**

What types, constraint definitions, declarations and metadata hold, as document trees.  Nothing is
filled in: a container of constraints shows as it was declared, and metadata shows what was made of
it.

* `TypeInfo.toJson`, `ConstraintDefinition.toJson`, `BeanDeclaration.toJson` — what was configured.
* `MetaBean.toJson` — the metadata of a type, with the validators and accesses that were chosen.
-/
import GraphValidation.Metadata.Basic

namespace GraphValidation

/-! ### Types and definitions -/

/-- The document tree of the description of a type. -/
def TypeInfo.toJson (info : TypeInfo) : Json :=
  .ofEntries
    [("name", .string info.key.name), ("kind", .string info.kind.name),
     ("constants", .ofOption Json.ofTexts info.constants?),
     ("superclass", .ofOption TypeKey.toJson info.superclass),
     ("interfaces", TypeKey.listToJson info.interfaces),
     ("isInterface", .bool info.isInterface), ("isAbstract", .bool info.isAbstract),
     ("isEnum", .bool info.isEnum)]

/-- The document tree of a declared constraint. -/
def ConstraintDeclaration.toJson (declaration : ConstraintDeclaration) : Json :=
  .ofEntries
    [("constraint", .string declaration.constraint),
     ("attributes", declaration.attributes.toJson),
     ("groups", TypeKey.listToJson declaration.groups),
     ("payload", TypeKey.listToJson declaration.payload),
     ("message", .ofOption .string declaration.message)]

/-- The document tree of an override: the attribute, the constraint, its index and the target. -/
def AttributeOverride.toJson (override : AttributeOverride) : Json :=
  .array
    [.string override.source, .string override.constraint,
     .ofOption (fun (index : Nat) => .integer index) override.index, .string override.target]

/-- The document tree of a constraint definition. -/
def ConstraintDefinition.toJson (definition : ConstraintDefinition) : Json :=
  .ofEntries
    [("name", .string definition.name), ("message", .string definition.message),
     ("defaults", definition.defaults.toJson), ("single", .bool definition.single),
     ("composite", .bool definition.isComposite),
     ("validators", .array (definition.validators.map fun candidate =>
       Json.ofTexts [candidate.name, candidate.supported.name])),
     ("composedOf", .array (definition.composedOf.map ConstraintDeclaration.toJson)),
     ("overrides", .array (definition.overrides.map AttributeOverride.toJson))]

/-! ### Declarations -/

/-- The name of the container. -/
def Annotation.containerName? : Annotation → Option String
  | constraint _ => none
  | container name _ => some name

/-- The document tree of an annotation; one constraint stands in no container. -/
def Annotation.toJson (declared : Annotation) : Json :=
  .ofEntries
    [("container", .ofOption .string declared.containerName?),
     ("declarations", .array (declared.declarations.map ConstraintDeclaration.toJson))]

/-- The document tree of what is declared of a property. -/
def PropertyDeclaration.toJson (property : PropertyDeclaration) : Json :=
  .ofEntries
    [("name", .string property.name), ("type", .string property.declared.text),
     ("cascade", .bool property.cascade), ("access", .string property.access.name),
     ("constraints", .array (property.annotations.map Annotation.toJson))]

/-- The document tree of what is declared of a type. -/
def BeanDeclaration.toJson (bean : BeanDeclaration) : Json :=
  .ofEntries
    [("type", bean.type.toJson), ("id", .ofOption .string bean.id),
     ("ignoreAnnotations", .bool bean.ignoreAnnotations),
     ("groupSequence", .ofOption TypeKey.listToJson bean.groupSequence),
     ("constraints", .array (bean.annotations.map Annotation.toJson)),
     ("properties", .array (bean.properties.map PropertyDeclaration.toJson))]

/-! ### Metadata -/

namespace ConstraintNode

mutual

/-- The document tree of a node. -/
def toJson : ConstraintNode → Json
  | mk content composing => .ofEntries
    [("constraint", .string content.constraint), ("owner", content.owner.toJson),
     ("groups", TypeKey.listToJson content.groups),
     ("payload", TypeKey.listToJson content.payload), ("template", .string content.template),
     ("single", .bool content.single),
     ("validator", .ofOption (fun validator => .string validator.1) content.validator),
     ("access", .ofOption (fun (access : Access) => .string access.text) content.access),
     ("attributes", content.attributes.toJson), ("composing", .array (listToJson composing))]

/-- The document trees of nodes. -/
def listToJson : List ConstraintNode → List Json
  | [] => []
  | node :: rest => node.toJson :: listToJson rest

end

end ConstraintNode

/-- The document tree of a cascade target. -/
def CascadeTarget.toJson : CascadeTarget → Json
  | static type => .ofEntries [("static", type.toJson)]
  | dynamic => .string "dynamic"

/-- The document tree of what is known of a property.  Properties have no features of their own. -/
def MetaProperty.toJson (property : MetaProperty) : Json :=
  .ofEntries
    [("name", .string property.name), ("type", .string property.declared.text),
     ("constraints", .array (property.constraints.map ConstraintNode.toJson)),
     ("cascade", .ofOption CascadeTarget.toJson property.cascade),
     ("cascadeAccesses", Json.ofTexts (property.cascadeAccesses.map Access.text)),
     ("primaryAccess", .string property.primaryAccess.text), ("features", .array [])]

/-- The document tree of the metadata of a type. -/
def MetaBean.toJson (bean : MetaBean) : Json :=
  .ofEntries
    [("type", bean.type.toJson), ("id", .ofOption .string bean.id),
     ("properties", .array (bean.properties.map MetaProperty.toJson)),
     ("constraints", .array (bean.constraints.map ConstraintNode.toJson)),
     ("groupSequence", .ofOption TypeKey.listToJson bean.groupSequence),
     ("features", Json.ofTexts bean.featureNames),
     ("described", .bool (bean.featureNames.contains "descriptor"))]

end GraphValidation
