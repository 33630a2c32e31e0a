/-
**Outlines of texts in the JSON format.**

A reader that expects a certain shape may refuse a text because of its shape or because it is no
document at all, and which of the two it meets first decides its answer.  So a text is first turned
into an outline: the tree up to the place where the text breaks, with that place marked.  Reading an
outline in document order meets every refusal in the order of the text.

* `Json.Stop` — the place where a text breaks.
* `Json.Outline.ofText` — the outline of a text, and what is wrong after its end.
* `Json.Outline.toJson` — the tree, where nothing is broken.
* `Json.read` — a whole text as a tree.
-/
import GraphValidation.Json.Token

namespace GraphValidation

namespace Json

/-- What may come next in a text. -/
inductive Place where
  /-- A value, or the end of an array that is empty so far. -/
  | value (closable : Bool)
  /-- A key, or the end of an object that is empty so far. -/
  | key (closable : Bool)
  | colon
  /-- A comma or the end of the innermost container. -/
  | next
  deriving DecidableEq, Repr

/-- The place where a text breaks. -/
structure Stop where
  reason : Break
  /-- What might have come there. -/
  place : Place
  /-- The word that came there; none where the text ends. -/
  word : Option Token
  deriving Repr

/-- A document tree in which places may be broken.  An array or an object that never closes carries
the place where it breaks. -/
inductive Outline where
  | null
  | bool (value : Bool)
  | integer (value : Int)
  | float (value : Binary64)
  | string (text : String)
  | array (items : List Outline) (unclosed : Option Stop)
  | object (entries : List (String × Outline)) (unclosed : Option Stop)
  | broken (stop : Stop)
  deriving Inhabited, Repr

namespace Outline

/-! ### From words to outlines -/

/-- A container that is still open, with what it holds so far, backwards. -/
inductive Frame where
  | array (items : List Outline)
  | object (entries : List (String × Outline)) (key : Option String)

/-- How many containers may be open at once. -/
def depthLimit : Nat := 127

/-- The outline whose text breaks within the open containers. -/
def abandon (stop : Stop) (inner : Option Outline) : List Frame → Outline
  | [] => inner.getD (.broken stop)
  | .array items :: frames =>
    abandon stop (some (.array (inner.toList ++ items).reverse (some stop))) frames
  | .object entries key :: frames =>
    let last := match key with
      | some k => [(k, inner.getD (.broken stop))]
      | none => []
    abandon stop (some (.object (last ++ entries).reverse (some stop))) frames

/-- The outline whose text breaks where a value or something else might have come. -/
def abandonAt (stop : Stop) (frames : List Frame) : Outline :=
  match stop.place with
  | .value _ => abandon stop (some (.broken stop)) frames
  | _ => abandon stop none frames

/-- The innermost container with one more value; none where no container is open. -/
def addTo (value : Outline) : List Frame → Option (List Frame)
  | [] => none
  | .array items :: frames => some (.array (value :: items) :: frames)
  | .object entries key :: frames => some (.object ((key.getD "", value) :: entries) none :: frames)

/-- The value of a word that is one. -/
def ofScalar? : Token → Option Outline
  | .null => some .null
  | .bool value => some (.bool value)
  | .integer value => some (.integer value)
  | .float value => some (.float value)
  | .string text => some (.string text)
  | _ => none

/-- Reads words into the open containers.  The answer holds what is wrong after the document. -/
def build (frames : List Frame) (place : Place) : List Token → Outline × Option Break
  | [] => (abandonAt ⟨.ended, place, none⟩ frames, none)
  | token :: rest =>
    let put := fun (value : Outline) (frames : List Frame) =>
      match addTo value frames with
      | some frames => build frames .next rest
      | none => (value, if rest.isEmpty then none else some .malformed)
    let fail := fun (reason : Break) => (abandonAt ⟨reason, place, some token⟩ frames, none)
    match place, token, frames with
    | .value true, .closeArray, .array items :: frames => put (.array items.reverse none) frames
    | .value _, .openArray, _ =>
      if frames.length < depthLimit then build (.array [] :: frames) (.value true) rest
      else fail .malformed
    | .value _, .openObject, _ =>
      if frames.length < depthLimit then build (.object [] none :: frames) (.key true) rest
      else fail .malformed
    | .value _, .broken reason _, _ => fail reason
    | .value _, token, _ => match ofScalar? token with
      | some value => put value frames
      | none => fail .malformed
    | .key true, .closeObject, .object entries _ :: frames =>
      put (.object entries.reverse none) frames
    | .key _, .string key, .object entries _ :: frames =>
      build (.object entries (some key) :: frames) .colon rest
    | .key _, .broken reason true, _ => fail reason
    | .colon, .colon, _ => build frames (.value false) rest
    | .next, .comma, .array _ :: _ => build frames (.value false) rest
    | .next, .comma, .object _ _ :: _ => build frames (.key false) rest
    | .next, .closeArray, .array items :: frames => put (.array items.reverse none) frames
    | .next, .closeObject, .object entries _ :: frames =>
      put (.object entries.reverse none) frames
    | _, _, _ => fail .malformed

/-- The outline of a text, and what is wrong after its end. -/
def ofText (text : String) : Outline × Option Break := build [] (.value false) (Token.scan text)

/-! ### From outlines to trees -/

/-- A value, unless something behind it is broken. -/
def finish {α : Type} (value : α) : Option Break → Except Break α
  | none => .ok value
  | some reason => .error reason

mutual

/-- The tree of an outline, or the first place where it is broken. -/
def toJson : Outline → Except Break Json
  | null => .ok .null
  | bool value => .ok (.bool value)
  | integer value => .ok (.integer value)
  | float value => .ok (.float value)
  | string text => .ok (.string text)
  | array items unclosed => do
    let items ← itemsToJson items
    finish (.array items) (unclosed.map (·.reason))
  | object entries unclosed => do
    let entries ← entriesToJson entries
    finish (Json.ofEntries entries) (unclosed.map (·.reason))
  | broken stop => .error stop.reason

/-- The trees of items. -/
def itemsToJson : List Outline → Except Break (List Json)
  | [] => .ok []
  | item :: rest => do
    let item ← item.toJson
    let rest ← itemsToJson rest
    .ok (item :: rest)

/-- The trees of entries. -/
def entriesToJson : List (String × Outline) → Except Break (List (String × Json))
  | [] => .ok []
  | (key, value) :: rest => do
    let value ← value.toJson
    let rest ← entriesToJson rest
    .ok ((key, value) :: rest)

end

end Outline

/-- A whole text as a tree. -/
def read (text : String) : Except Break Json :=
  match Outline.ofText text with
  | (outline, trailing) => do
    let json ← outline.toJson
    Outline.finish json trailing

end Json

end GraphValidation
