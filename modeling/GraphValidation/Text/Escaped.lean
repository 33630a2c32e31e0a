/-
**Names in quotes.**

The form in which a message shows a name that may hold any character: quotes around it, and an
escape for each character that a reader could not see or would take for the end of the name.
-/
import GraphValidation.Text.Class

namespace GraphValidation.Text

/-- A character of a quoted name. -/
def escapeName (c : Char) : List Char :=
  if c = '\x00' then ['\\', '0']
  else if c = '\t' then ['\\', 't']
  else if c = '\n' then ['\\', 'n']
  else if c = '\r' then ['\\', 'r']
  else if c = '"' then ['\\', '"']
  else if c = '\\' then ['\\', '\\']
  else if !isPrintable c then
    ['\\', 'u', '\x7b'] ++ Nat.toDigits 16 c.toNat ++ ['\x7d']
  else [c]

/-- A name in quotes. -/
def quoteName (name : String) : String :=
  String.ofList ('"' :: name.toList.flatMap escapeName ++ ['"'])

/-- Names in quotes, between square brackets. -/
def quoteNames (names : List String) : String :=
  "[" ++ String.intercalate ", " (names.map quoteName) ++ "]"

end GraphValidation.Text
