/-
**Reading mapping documents.**

The text of a document is refused because it is no text of the format or because it has another
shape than a mapping.  The outline of the text is read in document order, so of several reasons the
first one in the text counts.  A record is an object, whose entries stand in any order, or an array
of its fields in their declared order.

* `Record.read` — a record with given fields.
* `MappingDocument.read` — the document of a text, or why there is none.
-/
import GraphValidation.Mapping.Document
import GraphValidation.Json.Outline

namespace GraphValidation

/-- Why a text is no mapping document. -/
inductive MappingFault where
  /-- The text breaks. -/
  | broken (reason : Json.Break)
  /-- The text has another shape. -/
  | misfit
  deriving DecidableEq, Repr

/-- A way to read an outline. -/
abbrev Reading (α : Type) := Json.Outline → Except MappingFault α

namespace Reading

/-- Fails where a container does not close. -/
def closed : Option Json.Stop → Except MappingFault Unit
  | none => .ok ()
  | some stop => .error (.broken stop.reason)

/-- The fault of an outline of an unexpected shape; what it holds is not looked at. -/
def unexpected {α : Type} : Reading α
  | .broken stop => .error (.broken stop.reason)
  | _ => .error .misfit

/-! ### Scalars and lists -/

def text : Reading String
  | .string text => .ok text
  | other => unexpected other

def truth : Reading Bool
  | .bool value => .ok value
  | other => unexpected other

def key : Reading TypeKey := fun outline => do
  let name ← text outline
  .ok ⟨name⟩

/-- A declared type, as a type expression. -/
def declared : Reading TypeRef := fun outline => do
  let expression ← text outline
  match TypeRef.parse expression with
  | .ok type => .ok type
  | .error _ => .error .misfit

/-- Null, or what another reading reads. -/
def optional {α : Type} (read : Reading α) : Reading (Option α)
  | .null => .ok none
  | other => do
    let value ← read other
    .ok (some value)

/-- What a reading reads from each item. -/
def items {α : Type} (read : Reading α) : List Json.Outline → Except MappingFault (List α)
  | [] => .ok []
  | item :: rest => do
    let value ← read item
    let values ← items read rest
    .ok (value :: values)

/-- An array. -/
def list {α : Type} (read : Reading α) : Reading (List α)
  | .array outlines unclosed => do
    let values ← items read outlines
    closed unclosed
    .ok values
  | other => unexpected other

/-! ### Access -/

/-- Why nothing is read where a name or an object should stand.  Any other word is refused by its
first character alone, so that it does not count where the word breaks. -/
def noName (stop : Json.Stop) : MappingFault :=
  match stop.place, stop.word with
  | _, none => .broken .ended
  | .value _, some (.broken reason true) => .broken reason
  | _, some _ => .broken .malformed

/-- Why an object with one entry does not close.  Whatever follows the entry is refused unseen. -/
def notClosed (stop : Json.Stop) : MappingFault :=
  match stop.place, stop.word with
  | .next, none => .broken .ended
  | _, _ => .broken .malformed

/-- A kind of access: its name, or an object with the name as its only key and null under it. -/
def access : Reading AccessKind
  | .string name => match AccessKind.ofName? name with
    | some kind => .ok kind
    | none => .error .misfit
  | .object [] none => .error (.broken .malformed)
  | .object [] (some stop) => .error (.broken stop.reason)
  | .object ((name, content) :: rest) unclosed =>
    match AccessKind.ofName? name, content with
    | none, _ => .error .misfit
    | some kind, .null => match rest, unclosed with
      | [], none => .ok kind
      | [], some stop => .error (notClosed stop)
      | _ :: _, _ => .error (.broken .malformed)
    | some _, content => unexpected content
  | .broken stop => .error (noName stop)
  | _ => .error (.broken .malformed)

/-! ### Attributes -/

/-- The value of an attribute, which is read as a whole before its shape counts. -/
def attributeValue : Reading AttributeValue := fun outline =>
  match outline.toJson with
  | .error reason => .error (.broken reason)
  | .ok json => match AttributeValue.ofJson? json with
    | some value => .ok value
    | none => .error .misfit

/-- Adds attributes in order; of a repeated name the last value counts. -/
def attributesFrom (attributes : Attributes) :
    List (String × Json.Outline) → Except MappingFault Attributes
  | [] => .ok attributes
  | (name, outline) :: rest => do
    let value ← attributeValue outline
    attributesFrom (attributes.insert name value) rest

/-- Named attributes. -/
def attributes : Reading Attributes
  | .object entries unclosed => do
    let attributes ← attributesFrom .empty entries
    closed unclosed
    .ok attributes
  | other => unexpected other

end Reading

/-! ### Records -/

/-- A field of a record under construction. -/
structure RecordField (ρ : Type) where
  name : String
  /-- Whether a record without the field is refused. -/
  required : Bool
  /-- The record after the field was read. -/
  read : ρ → Reading ρ

/-- The field that some reading reads and that is put into a record. -/
def RecordField.ofReading {ρ α : Type} (name : String) (required : Bool) (reading : Reading α)
    (put : ρ → α → ρ) : RecordField ρ :=
  ⟨name, required, fun record outline => do
    let value ← reading outline
    .ok (put record value)⟩

namespace Record

variable {ρ : Type}

/-- Reads entries into a record, each field at most once; `seen` holds the fields before. -/
def readEntries (fields : List (RecordField ρ)) (seen : List String) (record : ρ) :
    List (String × Json.Outline) → Except MappingFault (List String × ρ)
  | [] => .ok (seen, record)
  | (name, outline) :: rest =>
    match fields.find? fun field => field.name == name with
    | none => .error .misfit
    | some field =>
      if seen.contains name then .error .misfit
      else do
        let record ← field.read record outline
        readEntries fields (name :: seen) record rest

/-- Reads items as the fields in their order: the fields that are left, and the record. -/
def readItems (record : ρ) :
    List (RecordField ρ) → List Json.Outline →
      Except MappingFault (List (RecordField ρ) × ρ)
  | fields, [] => .ok (fields, record)
  | [], _ :: _ => .error (.broken .malformed)
  | field :: fields, outline :: rest => do
    let record ← field.read record outline
    readItems record fields rest

/-- The record, unless a required field is missing. -/
def complete (missing : List (RecordField ρ)) (record : ρ) : Except MappingFault ρ :=
  if missing.any (·.required) then .error .misfit else .ok record

/-- A record that starts as `blank`. -/
def read (blank : ρ) (fields : List (RecordField ρ)) : Reading ρ
  | .object entries unclosed => do
    let (seen, record) ← readEntries fields [] blank entries
    Reading.closed unclosed
    complete (fields.filter fun field => !seen.contains field.name) record
  | .array outlines unclosed => do
    let (missing, record) ← readItems blank fields outlines
    Reading.closed unclosed
    complete missing record
  | other => Reading.unexpected other

end Record

/-! ### Mappings -/

namespace Reading

open RecordField

/-- A declared constraint. -/
def constraint : Reading ConstraintDeclaration :=
  Record.read (.plain "")
    [ofReading "constraint" true text fun record constraint => { record with constraint },
     ofReading "attributes" false attributes fun record attributes => { record with attributes },
     ofReading "groups" false (list key) fun record groups => { record with groups },
     ofReading "payload" false (list key) fun record payload => { record with payload },
     ofReading "message" false (optional text) fun record message => { record with message }]

/-- A declared property; it is a field that admits every value where nothing else is said. -/
def property : Reading PropertyDeclaration :=
  Record.read ⟨"", .field, .object, [], false⟩
    [ofReading "name" true text fun record name => { record with name },
     ofReading "access" false access fun record access => { record with access },
     ofReading "type" false declared fun record declared => { record with declared },
     ofReading "cascade" false truth fun record cascade => { record with cascade },
     ofReading "constraints" false (list constraint) fun record constraints =>
       { record with annotations := constraints.map .constraint }]

/-- What a document says about a type. -/
def bean : Reading BeanMapping :=
  Record.read ⟨⟨""⟩, none, none, none, [], []⟩
    [ofReading "type" true key fun record type => { record with type },
     ofReading "id" false (optional text) fun record id => { record with id },
     ofReading "ignoreAnnotations" false (optional truth) fun record ignoreAnnotations =>
       { record with ignoreAnnotations },
     ofReading "groupSequence" false (optional (list key)) fun record groupSequence =>
       { record with groupSequence },
     ofReading "constraints" false (list constraint) fun record constraints =>
       { record with constraints },
     ofReading "properties" false (list property) fun record properties =>
       { record with properties }]

/-- A document. -/
def document : Reading MappingDocument :=
  Record.read .empty
    [ofReading "ignoreAnnotations" false truth fun record ignoreAnnotations =>
       { record with ignoreAnnotations },
     ofReading "beans" false (list bean) fun record beans => { record with beans }]

end Reading

/-- The document of a text.  What follows it in the text counts only where the document fits. -/
def MappingDocument.read (text : String) : Except MappingFault MappingDocument :=
  let (outline, trailing) := Json.Outline.ofText text
  do
    let document ← Reading.document outline
    match trailing with
    | none => .ok document
    | some reason => .error (.broken reason)

end GraphValidation
