/-
**Keys of map values.**

A map is indexed by texts, integers, truth values and enum constants.  Keys are compared whole;
their texts may coincide, as those of the integer 1 and the text "1" do.
-/
import GraphValidation.Type.Key

namespace GraphValidation

/-- A constant of an enum type. -/
structure EnumConstant where
  enumType : TypeKey
  constant : String
  deriving DecidableEq, Repr

/-- A key of a map. -/
inductive MapKey where
  | string (text : String)
  | int (value : Int64)
  | bool (value : Bool)
  | enum (constant : EnumConstant)
  deriving DecidableEq, Repr

namespace MapKey

/-- The written form, in which an enum constant loses its type. -/
def text : MapKey → String
  | string text => text
  | int value => toString value.toInt
  | bool value => toString value
  | enum constant => constant.constant

end MapKey

end GraphValidation
