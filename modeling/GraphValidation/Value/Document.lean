/-
**Values as documents and texts.**

* `Value.ofJson` — the value of a document tree; an integer that does not fit 64 bits is a float.
* `Value.toJson` — the document tree of a value.  A bean shows nothing but its type, a number that
  is not finite becomes null, and the keys of a map become texts.
* `Value.text` — the text of a value in a message.
-/
import GraphValidation.Value.Basic
import GraphValidation.Json.Basic

namespace GraphValidation

namespace Value

mutual

/-- The value of a document tree. -/
def ofJson : Json → Value
  | .null => null
  | .bool value => bool value
  | .integer value =>
    if Int64.minValue.toInt ≤ value ∧ value ≤ Int64.maxValue.toInt then int (Int64.ofInt value)
    else float (Binary64.ofInt value)
  | .float value => float value
  | .string text => string text
  | .array items => list (itemsOfJson items)
  | .object entries => ofPairs (entriesOfJson entries)

/-- The values of items. -/
def itemsOfJson : List Json → List Value
  | [] => []
  | item :: rest => ofJson item :: itemsOfJson rest

/-- The entries of an object, under their keys as texts. -/
def entriesOfJson : List (String × Json) → List (MapKey × Value)
  | [] => []
  | (key, value) :: rest => (.string key, ofJson value) :: entriesOfJson rest

end

mutual

/-- The document tree of a value. -/
def toJson : Value → Json
  | null => .null
  | bool value => .bool value
  | int value => .integer value.toInt
  | float value => .ofFloat value
  | string text => .string text
  | enum constant => .string constant.constant
  | list items => .array (itemsToJson items)
  | set items => .array (itemsToJson items)
  | array items => .array (itemsToJson items)
  | map entries => .ofEntries (entriesToJson entries)
  | bean ref => .object [("$type", .string ref.type.name)]

/-- The document trees of elements. -/
def itemsToJson : List Value → List Json
  | [] => []
  | item :: rest => toJson item :: itemsToJson rest

/-- The entries of a map, under the texts of their keys. -/
def entriesToJson : List (MapKey × Value) → List (String × Json)
  | [] => []
  | (key, value) :: rest => (key.text, toJson value) :: entriesToJson rest

end

/-- The text of a value: scalars bare, a bean by type and identity, a container as a document. -/
def text (value : Value) : String :=
  match value with
  | null => "null"
  | bool value => toString value
  | int value => toString value.toInt
  | float value => FloatLayout.plain.text value
  | string text => text
  | enum constant => constant.constant
  | bean ref => ref.text
  | container => container.toJson.print

end Value

end GraphValidation
