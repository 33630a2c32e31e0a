/-
**Attributes of constraints.**

A constraint has named attributes, kept in the order in which their names were first inserted.

* `AttributeValue` — the values of attributes; they have no null and no objects.
* `Attributes.mergeDefaults` — fills in what is not set.
* `Attributes.int?`, `Attributes.number?` — readings of numbers: a float without a fraction is an
  integer, any integer is a float.
-/
import GraphValidation.Value.Document

namespace GraphValidation

/-- The value of an attribute. -/
inductive AttributeValue where
  | bool (value : Bool)
  | int (value : Int64)
  | float (value : Binary64)
  | string (text : String)
  | list (items : List AttributeValue)
  deriving Inhabited, Repr

namespace AttributeValue

mutual

/-- Equality; an integer and a float always differ. -/
def equal : AttributeValue → AttributeValue → Bool
  | bool a, bool b => a == b
  | int a, int b => a == b
  | float a, float b => a.equal b
  | string a, string b => a == b
  | list as, list bs => equalItems as bs
  | _, _ => false

/-- Equality of items in order. -/
def equalItems : List AttributeValue → List AttributeValue → Bool
  | [], [] => true
  | a :: as, b :: bs => equal a b && equalItems as bs
  | _, _ => false

end

mutual

/-- The text in a message. -/
def text : AttributeValue → String
  | bool value => toString value
  | int value => toString value.toInt
  | float value => FloatLayout.plain.text value
  | string text => text
  | list items => "[" ++ String.intercalate ", " (itemTexts items) ++ "]"

/-- The texts of items. -/
def itemTexts : List AttributeValue → List String
  | [] => []
  | item :: rest => item.text :: itemTexts rest

end

mutual

/-- The document tree. -/
def toJson : AttributeValue → Json
  | bool value => .bool value
  | int value => .integer value.toInt
  | float value => .ofFloat value
  | string text => .string text
  | list items => .array (itemsToJson items)

/-- The document trees of items. -/
def itemsToJson : List AttributeValue → List Json
  | [] => []
  | item :: rest => item.toJson :: itemsToJson rest

end

mutual

/-- The value of a document tree; null and objects are none. -/
def ofJson? : Json → Option AttributeValue
  | .null => none
  | .bool value => some (bool value)
  | .integer value =>
    if Int64.minValue.toInt ≤ value ∧ value ≤ Int64.maxValue.toInt then
      some (int (Int64.ofInt value))
    else some (float (Binary64.ofInt value))
  | .float value => some (float value)
  | .string text => some (string text)
  | .array items => (itemsOfJson? items).map list
  | .object _ => none

/-- The values of items. -/
def itemsOfJson? : List Json → Option (List AttributeValue)
  | [] => some []
  | item :: rest =>
    match ofJson? item, itemsOfJson? rest with
    | some item, some rest => some (item :: rest)
    | _, _ => none

end

end AttributeValue

/-- Named attributes, each name once. -/
structure Attributes where
  entries : List (String × AttributeValue)
  deriving Inhabited, Repr

namespace Attributes

def empty : Attributes := ⟨[]⟩

/-- The value of an attribute. -/
def get? (attributes : Attributes) (name : String) : Option AttributeValue :=
  attributes.entries.lookup name

/-- Whether an attribute is set. -/
def contains (attributes : Attributes) (name : String) : Bool := (attributes.get? name).isSome

/-- Sets an attribute; a known name keeps its place. -/
def insert (attributes : Attributes) (name : String) (value : AttributeValue) : Attributes :=
  ⟨insertEntry name value attributes.entries⟩

theorem get?_insert (attributes : Attributes) (name other : String) (value : AttributeValue) :
    (attributes.insert name value).get? other
      = if other == name then some value else attributes.get? other :=
  lookup_insertEntry name other value attributes.entries

/-- Attributes from pairs in order. -/
def ofList (pairs : List (String × AttributeValue)) : Attributes := ⟨entriesOf pairs⟩

/-- The attributes of a document tree, where it is an object of attribute values. -/
def ofJson? : Json → Option Attributes
  | .object entries =>
    (entries.mapM fun entry => (AttributeValue.ofJson? entry.2).map (entry.1, ·)).map ofList
  | _ => none

/-- The attributes that are set, and after them the defaults of those that are not. -/
def mergeDefaults (attributes defaults : Attributes) : Attributes :=
  defaults.entries.foldl
    (fun merged entry => if merged.contains entry.1 then merged else merged.insert entry.1 entry.2)
    attributes

/-- One default stands for its attribute if that is not set. -/
theorem get?_mergeDefault (attributes : Attributes) (own name : String) (value : AttributeValue) :
    (if attributes.contains own then attributes else attributes.insert own value).get? name
      = (attributes.get? name).or (if name == own then some value else none) := by
  by_cases here : name = own
  · subst here
    cases known : attributes.get? name <;> simp [contains, known, get?_insert]
  · split <;> simp [here, get?_insert]

/-- A default stands for what is not set. -/
theorem get?_mergeDefaults (attributes defaults : Attributes) (name : String) :
    (attributes.mergeDefaults defaults).get? name
      = (attributes.get? name).or (defaults.get? name) := by
  obtain ⟨entries⟩ := defaults
  unfold mergeDefaults
  induction entries generalizing attributes with
  | nil => exact Option.or_none.symm
  | cons entry rest ih =>
    obtain ⟨own, value⟩ := entry
    have first : (Attributes.mk ((own, value) :: rest)).get? name
        = (if name == own then some value else none).or ((Attributes.mk rest).get? name) := by
      rw [get?, List.lookup_cons]
      cases name == own <;> rfl
    rw [List.foldl_cons, ih, get?_mergeDefault, first, Option.or_assoc]

/-- An integer, or a float without a fraction. -/
def int? (attributes : Attributes) (name : String) : Option Int64 :=
  match attributes.get? name with
  | some (.int value) => some value
  | some (.float value) => if value.isIntegral then some value.toInt64 else none
  | _ => none

/-- A number; an integer is rounded. -/
def number? (attributes : Attributes) (name : String) : Option Binary64 :=
  match attributes.get? name with
  | some (.int value) => some (Binary64.ofInt value.toInt)
  | some (.float value) => some value
  | _ => none

def string? (attributes : Attributes) (name : String) : Option String :=
  match attributes.get? name with
  | some (.string text) => some text
  | _ => none

def bool? (attributes : Attributes) (name : String) : Option Bool :=
  match attributes.get? name with
  | some (.bool value) => some value
  | _ => none

/-- Whether the same names are set to equal values, in any order. -/
def equal (a b : Attributes) : Bool :=
  a.entries.length == b.entries.length && a.entries.all fun entry =>
    match b.get? entry.1 with
    | some value => entry.2.equal value
    | none => false

/-- The document tree. -/
def toJson (attributes : Attributes) : Json :=
  .ofEntries (attributes.entries.map fun entry => (entry.1, entry.2.toJson))

end Attributes

end GraphValidation
