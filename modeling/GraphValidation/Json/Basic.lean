/-
**Documents of the JSON format.**

The tree of a document, with the three things that a number can be kept apart: an integer, or a
binary64 number, never both.  The entries of an object stand in ascending order of their keys.

* `Json` — the tree.
* `Json.ofEntries` — an object from entries in any order; the last one of a key counts.
* `Json.print` — the compact written form.
-/
import GraphValidation.Number.Shortest

namespace GraphValidation

/-- A document tree. -/
inductive Json where
  | null
  | bool (value : Bool)
  | integer (value : Int)
  | float (value : Binary64)
  | string (text : String)
  | array (items : List Json)
  | object (entries : List (String × Json))
  deriving Inhabited, Repr

namespace Json

/-- Inserts an entry by its key into ascending entries; an entry of the same key is replaced. -/
def insertEntry {α : Type} (key : String) (value : α) : List (String × α) → List (String × α)
  | [] => [(key, value)]
  | (k, v) :: rest =>
    if key = k then (key, value) :: rest
    else if key < k then (key, value) :: (k, v) :: rest
    else (k, v) :: insertEntry key value rest

/-- Entries in ascending order of their keys; the last one of a key counts. -/
def sortEntries {α : Type} (entries : List (String × α)) : List (String × α) :=
  entries.foldl (fun sorted entry => insertEntry entry.1 entry.2 sorted) []

/-- The object with some entries. -/
def ofEntries (entries : List (String × Json)) : Json := object (sortEntries entries)

/-- The entry of a key, in an object. -/
def get? (json : Json) (key : String) : Option Json :=
  match json with
  | object entries => entries.lookup key
  | _ => none

/-- A number as a binary64, null where the format has no text for it. -/
def ofFloat (x : Binary64) : Json := if x.isFinite then float x else null

/-- The texts of a list. -/
def ofTexts (texts : List String) : Json := array (texts.map string)

/-- What may be missing, null where it is. -/
def ofOption {α : Type} (encode : α → Json) : Option α → Json
  | some a => encode a
  | none => null

/-! ### The written form -/

/-- A character of a quoted text. -/
def escapeChar (c : Char) : List Char :=
  if c = '"' then ['\\', '"']
  else if c = '\\' then ['\\', '\\']
  else if c = '\n' then ['\\', 'n']
  else if c = '\r' then ['\\', 'r']
  else if c = '\t' then ['\\', 't']
  else if c = '\x08' then ['\\', 'b']
  else if c = '\x0c' then ['\\', 'f']
  else if c.toNat < 0x20 then
    ['\\', 'u', '0', '0'] ++ [Nat.digitChar (c.toNat / 16), Nat.digitChar (c.toNat % 16)]
  else [c]

/-- A text in quotes. -/
def quote (text : String) : String :=
  String.ofList ('"' :: text.toList.flatMap escapeChar ++ ['"'])

mutual

/-- The compact form: no blanks, entries in their order, floats in the document layout. -/
def print : Json → String
  | null => "null"
  | bool value => toString value
  | integer value => toString value
  | float value => if value.isFinite then FloatLayout.document.text value else "null"
  | string text => quote text
  | array items => "[" ++ String.intercalate "," (printItems items) ++ "]"
  | object entries => "\x7b" ++ String.intercalate "," (printEntries entries) ++ "\x7d"

/-- The forms of the items of an array. -/
def printItems : List Json → List String
  | [] => []
  | item :: rest => item.print :: printItems rest

/-- The forms of the entries of an object. -/
def printEntries : List (String × Json) → List String
  | [] => []
  | (key, value) :: rest => (quote key ++ ":" ++ value.print) :: printEntries rest

end

end Json

end GraphValidation
