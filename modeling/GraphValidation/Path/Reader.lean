/-
**Reading paths.**

An expression is a list of segments with dots between them.  A segment is a name, which brackets may
follow; what they hold is a position if it is a number, a key if it is anything else, and nothing
for an element without position.  Blanks around the expression carry no meaning.

* `Path.parse` — the path of an expression.
* `PathError` — where and why an expression is refused.
-/
import GraphValidation.Path
import GraphValidation.Number.Reader
import GraphValidation.Text.Blank

namespace GraphValidation

/-- Why an expression is refused. -/
inductive PathFault where
  | emptyName
  | unterminatedBracket
  | missingDot
  | unexpectedBracket
  | endsWithDot
  deriving DecidableEq, Repr

/-- The text of a fault. -/
def PathFault.message : PathFault → String
  | emptyName => "empty property name"
  | unterminatedBracket => "unterminated '['"
  | missingDot => "expected '.' after ']'"
  | unexpectedBracket => "unexpected ']'"
  | endsWithDot => "path ends with '.'"

/-- A refused expression, without the blanks around it, and the place of the fault in bytes. -/
structure PathError where
  expression : String
  offset : Nat
  fault : PathFault
  deriving DecidableEq, Repr

/-- The text of an error. -/
def PathError.message (error : PathError) : String :=
  "invalid property path '" ++ error.expression ++ "' at offset " ++ toString error.offset ++ ": "
    ++ error.fault.message

namespace Path

/-- The mark that brackets with some content stand for. -/
def markOfContent (content : List Char) : Mark :=
  if content.isEmpty then .element
  else match readIndex? content with
    | some position => .index position
    | none => .key (.written (String.ofList content))

/-- What has been read of a segment. -/
inductive Progress where
  /-- Nothing: a segment has to follow. -/
  | start
  /-- A part of its name, backwards. -/
  | name (reversed : List Char)
  /-- A part of what its brackets hold, backwards; they open at an offset. -/
  | content (opened : Nat) (reversed : List Char)
  /-- All of it, up to the closing bracket. -/
  | closed

/-- The path with one more node, for a name backwards. -/
def addReversed (path : Path) (reversed : List Char) : Path :=
  path.add (String.ofList reversed.reverse)

/-- Reads the rest of an expression from an offset.  Brackets without a name mark the last node. -/
def readFrom (path : Path) (progress : Progress) (offset : Nat) :
    List Char → Except (Nat × PathFault) Path
  | [] => match progress with
    | .start => .error (offset, .endsWithDot)
    | .name reversed => .ok (path.addReversed reversed)
    | .content opened _ => .error (opened, .unterminatedBracket)
    | .closed => .ok path
  | c :: rest =>
    let next := offset + c.utf8Size
    match progress with
    | .content opened reversed =>
      if c = ']' then readFrom (path.markLeaf (markOfContent reversed.reverse)) .closed next rest
      else readFrom path (.content opened (c :: reversed)) next rest
    | .closed => if c = '.' then readFrom path .start next rest else .error (offset, .missingDot)
    | .start =>
      if c = '.' then .error (offset, .emptyName)
      else if c = '[' then readFrom path (.content offset []) next rest
      else if c = ']' then .error (offset, .unexpectedBracket)
      else readFrom path (.name [c]) next rest
    | .name reversed =>
      if c = '.' then readFrom (path.addReversed reversed) .start next rest
      else if c = '[' then readFrom (path.addReversed reversed) (.content offset []) next rest
      else if c = ']' then .error (offset, .unexpectedBracket)
      else readFrom path (.name (c :: reversed)) next rest

/-- The path of an expression; that of an empty one is the root. -/
def parse (expression : String) : Except PathError Path :=
  match Text.trim expression.toList with
  | [] => .ok root
  | trimmed => match readFrom root .start 0 trimmed with
    | .ok path => .ok path
    | .error (offset, fault) => .error ⟨String.ofList trimmed, offset, fault⟩

end Path

end GraphValidation
