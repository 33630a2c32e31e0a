/-
**Sets of characters as bytes.**

In UTF-8 a range of characters is a union of sequences, each of which allows a range of values for
each of its bytes: the characters of one sequence agree in all bytes before the first one whose
range is narrower than it could be.

* `sequences` — the sequences of a set, in ascending order.
-/
import GraphValidation.Text.CharSet

namespace GraphValidation.Pattern

open Text (CharSet CodeRange)

/-- The values of one byte. -/
structure ByteRange where
  first : UInt8
  last : UInt8
  deriving DecidableEq, Repr

/-- The code points at which the number of bytes changes, and those around the surrogates. -/
def byteBounds : List Nat := [0x80, 0x800, 0xD800, 0xE000, 0x10000]

/-- Where a range has to be cut so that its pieces start and end with blocks of some size. -/
def blockCut? (size : Nat) (range : CodeRange) : Option Nat :=
  if range.first / size = range.last / size then none
  else if range.first % size ≠ 0 then some ((range.first / size + 1) * size)
  else if range.last % size ≠ size - 1 then some (range.last / size * size)
  else none

/-- Where a range has to be cut first. -/
def cut? (range : CodeRange) : Option Nat :=
  (byteBounds.find? fun bound => range.first < bound && bound ≤ range.last).or
    (if range.last < 0x80 then none
     else [64, 4096, 262144].findSome? fun size => blockCut? size range)

/-- The pieces of a range, each of which is one sequence. -/
def pieces (range : CodeRange) : List CodeRange :=
  match cut? range with
  | none => [range]
  | some bound =>
    if range.first < bound ∧ bound ≤ range.last then
      pieces ⟨range.first, bound - 1⟩ ++ pieces ⟨bound, range.last⟩
    else [range]
termination_by range.last - range.first

/-- Whether a piece holds characters and no surrogates. -/
def isCoded (range : CodeRange) : Bool := range.first < 0xD800 || 0xE000 ≤ range.first

/-- The sequence of a piece. -/
def bytesOf (range : CodeRange) : List ByteRange :=
  (String.utf8EncodeChar (Char.ofNat range.first)).zipWith ByteRange.mk
    (String.utf8EncodeChar (Char.ofNat range.last))

/-- The sequences of a set. -/
def sequences (set : CharSet) : List (List ByteRange) :=
  set.ranges.toList.flatMap fun range => ((pieces range).filter isCoded).map bytesOf

end GraphValidation.Pattern
