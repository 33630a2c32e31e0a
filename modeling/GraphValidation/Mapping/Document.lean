/-
**Mapping documents.**

A mapping document declares constraints for types from outside.  It is the external counterpart of
what is declared beside the types, and says the same things but for containers of constraints.

* `BeanMapping`, `MappingDocument` — what a document says.
* `MappingDocument.declarations` — the declarations it makes.
-/
import GraphValidation.Declaration.Basic

namespace GraphValidation

/-- What a document says about a type. -/
structure BeanMapping where
  type : TypeKey
  id : Option String
  /-- Whether declarations made beside the type are dropped; the document decides where none is
  given. -/
  ignoreAnnotations : Option Bool
  groupSequence : Option (List TypeKey)
  constraints : List ConstraintDeclaration
  properties : List PropertyDeclaration

/-- A document. -/
structure MappingDocument where
  /-- What counts for types that do not decide by themselves. -/
  ignoreAnnotations : Bool
  beans : List BeanMapping

/-- The declaration of a type, with the document's decision for those that have none. -/
def BeanMapping.declaration (mapping : BeanMapping) (ignoreAnnotations : Bool) :
    BeanDeclaration where
  type := mapping.type
  id := mapping.id
  annotations := mapping.constraints.map .constraint
  properties := mapping.properties
  groupSequence := mapping.groupSequence
  ignoreAnnotations := mapping.ignoreAnnotations.getD ignoreAnnotations

namespace MappingDocument

/-- A document that says nothing. -/
def empty : MappingDocument := ⟨false, []⟩

/-- The declarations of a document, in order. -/
def declarations (document : MappingDocument) : List BeanDeclaration :=
  document.beans.map fun mapping => mapping.declaration document.ignoreAnnotations

/-- The registry of the declarations; no type may be declared twice. -/
def toRegistry (document : MappingDocument) : Except ConfigError DeclarationRegistry :=
  DeclarationRegistry.ofList document.declarations

end MappingDocument

end GraphValidation
