/-
**Type names.**

A type is known by its name alone.  A name need not be registered anywhere: values may carry the
name of a type that no description mentions.
-/

namespace GraphValidation

/-- The name of a type. -/
structure TypeKey where
  name : String
  deriving DecidableEq, Repr, Inhabited

namespace TypeKey

/-- The supertype of every type. -/
def object : TypeKey := ⟨"Object"⟩
def comparable : TypeKey := ⟨"Comparable"⟩
def charSequence : TypeKey := ⟨"CharSequence"⟩
def string : TypeKey := ⟨"String"⟩
def number : TypeKey := ⟨"Number"⟩
def integer : TypeKey := ⟨"Integer"⟩
def double : TypeKey := ⟨"Double"⟩
def boolean : TypeKey := ⟨"Boolean"⟩
def enum : TypeKey := ⟨"Enum"⟩
def iterable : TypeKey := ⟨"Iterable"⟩
def collection : TypeKey := ⟨"Collection"⟩
def list : TypeKey := ⟨"List"⟩
def set : TypeKey := ⟨"Set"⟩
def map : TypeKey := ⟨"Map"⟩
def array : TypeKey := ⟨"Array"⟩
/-- The marker of the group that a constraint without groups belongs to. -/
def defaultGroup : TypeKey := ⟨"Default"⟩

end TypeKey

end GraphValidation
