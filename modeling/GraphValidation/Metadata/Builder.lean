/-
**Building metadata.**

The metadata of a type combines what is declared on the type and on all types above it, from the
most general one downwards, each class after the interfaces it lists.  Of one type the declarations
made beside it come first and the external mappings after them; a mapping can ask to drop the
former.

* `Configuration` — types, constraints and declarations.
* `Configuration.levels` — the types whose declarations a type inherits, in order.
* `Configuration.build` — the metadata of a type.
* `Configuration.groupSequence` — the sequence that a group carries.
-/
import GraphValidation.Metadata.Basic
import GraphValidation.Group

namespace GraphValidation

/-- Everything that metadata is built from. -/
structure Configuration where
  types : TypeSystem
  catalog : Catalog
  /-- Declarations made beside the types. -/
  annotations : List DeclarationRegistry
  /-- External declarations. -/
  mappings : List DeclarationRegistry

namespace Configuration

/-- A type and all types above it, in the order in which their declarations apply. -/
def levels (configuration : Configuration) (type : TypeKey) : List TypeKey :=
  (configuration.types.classChain type).foldl
    (fun levels level =>
      addOnce ((configuration.types.interfacesOf level).foldl addOnce levels) level)
    []

/-- The declarations in force for a type. -/
def declarationsFor (configuration : Configuration) (type : TypeKey) : List BeanDeclaration :=
  let external := configuration.mappings.filterMap fun source => source.get? type
  let annotated :=
    if external.any (·.ignoreAnnotations) then []
    else configuration.annotations.filterMap fun source => source.get? type
  annotated ++ external

/-- The last answer that a list of declarations gives. -/
def lastSome? {α : Type} (answer : BeanDeclaration → Option α) (beans : List BeanDeclaration) :
    Option α :=
  beans.reverse.findSome? answer

/-- The sequence that a group carries: the last one that is declared for its marker. -/
def groupSequence (configuration : Configuration) : SequenceSource := fun group =>
  .ok (lastSome? (·.groupSequence) (configuration.declarationsFor group))

mutual

/-- Requires that a declared type and all its arguments are registered. -/
def requireRef (types : TypeSystem) : TypeRef → Except ConfigError Unit
  | .mk raw args => do
    let _ ← types.require raw
    requireRefs types args

/-- Requires that declared types are registered. -/
def requireRefs (types : TypeSystem) : List TypeRef → Except ConfigError Unit
  | [] => .ok ()
  | type :: rest => do
    requireRef types type
    requireRefs types rest

end

/-- The more specific one of two declared types of a property. -/
def mergeDeclared (types : TypeSystem) (bean : TypeKey) (property : String)
    (current declared : TypeRef) : Except ConfigError TypeRef :=
  if current.raw = declared.raw then .ok current
  else if types.isAssignable current.raw declared.raw then .ok declared
  else if types.isAssignable declared.raw current.raw then .ok current
  else .error (.conflictingMetadata bean property current.raw declared.raw)

/-- Whose metadata the related values of a declared type are validated with: that of the declared
element type where it is a class with instances of its own. -/
def cascadeTarget (types : TypeSystem) (declared : TypeRef) : Except ConfigError CascadeTarget :=
  match declared.cascadeElement? types with
  | none => .ok .dynamic
  | some element => do
    let info ← types.require element.raw
    .ok (if element.raw == .object || info.isAbstract then .dynamic else .static element.raw)

/-- A property with one more way to cascade; the last target counts. -/
def addCascade (target : CascadeTarget) (access : Access) (property : MetaProperty) :
    MetaProperty :=
  { property with
    cascade := some target
    cascadeAccesses := addOnce property.cascadeAccesses access }

/-- What is known of a property after one more declaration of it. -/
def applyTo (configuration : Configuration) (bean level : TypeKey)
    (declaration : PropertyDeclaration) (property : MetaProperty) :
    Except ConfigError MetaProperty := do
  let declared ← mergeDeclared configuration.types bean declaration.name property.declared
    declaration.declared
  let nodes ← Composition.collect
    (Composition.build configuration.types configuration.catalog level declaration.declared.raw
      (some declaration.accessTo))
    declaration.constraints
  let property := { property with declared, constraints := property.constraints ++ nodes }
  if declaration.cascade then do
    let target ← cascadeTarget configuration.types declaration.declared
    .ok (addCascade target declaration.accessTo property)
  else .ok property

/-- Properties with one put in place of that of its name, or at the end. -/
def putProperty (property : MetaProperty) : List MetaProperty → List MetaProperty
  | [] => [property]
  | first :: rest =>
    if first.name = property.name then property :: rest else first :: putProperty property rest

/-- Metadata after one more declaration of a property. -/
def applyProperty (configuration : Configuration) (level : TypeKey) (bean : MetaBean)
    (declaration : PropertyDeclaration) : Except ConfigError MetaBean := do
  requireRef configuration.types declaration.declared
  let property ← configuration.applyTo bean.type level declaration
    ((bean.property? declaration.name).getD (.plain declaration.name declaration.declared))
  .ok { bean with properties := putProperty property bean.properties }

/-- Metadata after one more declaration of one of its types. -/
def apply (configuration : Configuration) (level : TypeKey) (bean : MetaBean)
    (declaration : BeanDeclaration) : Except ConfigError MetaBean := do
  let nodes ← Composition.collect
    (Composition.build configuration.types configuration.catalog level level none)
    declaration.constraints
  declaration.properties.foldlM (configuration.applyProperty level)
    { bean with constraints := bean.constraints ++ nodes }

/-- Metadata after all declarations of one of its types. -/
def applyLevel (configuration : Configuration) (bean : MetaBean) (level : TypeKey) :
    Except ConfigError MetaBean :=
  (configuration.declarationsFor level).foldlM (configuration.apply level) bean

/-- The sequence that redefines the default group of a type; interfaces have none. -/
def defaultSequence (configuration : Configuration) (info : TypeInfo)
    (own : List BeanDeclaration) : Except ConfigError (Option (List TypeKey)) :=
  if info.isInterface then .ok none
  else match lastSome? (·.groupSequence) own with
    | none => .ok none
    | some sequence => do
      Composition.requireAll configuration.types sequence
      let sequence ← checkDefaultSequence info.key sequence
      .ok (some sequence)

/-- The metadata of a type. -/
def build (configuration : Configuration) (type : TypeKey) : Except ConfigError MetaBean := do
  let info ← configuration.types.require type
  let bean ← (configuration.levels type).foldlM configuration.applyLevel (.blank type)
  let own := configuration.declarationsFor type
  let groupSequence ← configuration.defaultSequence info own
  .ok { bean with id := lastSome? (·.id) own, groupSequence }

/-- The type that is declared with an identifier: by a mapping, else beside the type. -/
def typeOfId? (configuration : Configuration) (id : String) : Option TypeKey :=
  (configuration.mappings ++ configuration.annotations).findSome? fun source =>
    source.typeOfId? id

end Configuration

end GraphValidation
