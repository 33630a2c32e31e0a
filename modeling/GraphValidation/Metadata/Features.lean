/-
**Features.**

Named values of different types, in the order in which their names were first put.  A key names a
feature and the type that its value is expected to have; a value of another type is not found.

* `Features.put`, `Features.contains` — write a feature, and ask for one of any type.
* `Features.text?`, `Features.number?` — read a feature of one type.
-/
import GraphValidation.Value.Basic
import GraphValidation.Text.Escaped

namespace GraphValidation

/-- The value of a feature. -/
inductive FeatureValue where
  | text (text : String)
  | number (value : Int64)
  deriving DecidableEq

/-- Named values. -/
structure Features where
  values : List (String × FeatureValue)

namespace Features

def empty : Features := ⟨[]⟩

/-- Puts a feature in place of that of its name, or at the end. -/
def put (features : Features) (name : String) (value : FeatureValue) : Features :=
  ⟨insertEntry name value features.values⟩

/-- Whether there is a feature of a name. -/
def contains (features : Features) (name : String) : Bool :=
  (features.values.lookup name).isSome

/-- The feature of a name, if it is a text. -/
def text? (features : Features) (name : String) : Option String :=
  match features.values.lookup name with
  | some (.text text) => some text
  | _ => none

/-- The feature of a name, if it is a number. -/
def number? (features : Features) (name : String) : Option Int64 :=
  match features.values.lookup name with
  | some (.number value) => some value
  | _ => none

/-- The names, in order. -/
def names (features : Features) : List String := features.values.map (·.1)

/-- The names as a set. -/
def describe (features : Features) : String :=
  "\x7b" ++ String.intercalate ", " (features.names.map Text.quoteName) ++ "\x7d"

/-- The text of a key. -/
def describeKey (name : String) : String := "FeatureKey(" ++ name ++ ")"

end Features

end GraphValidation
