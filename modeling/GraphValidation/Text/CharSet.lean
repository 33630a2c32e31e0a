/-
**Sets of characters.**

A set of characters is kept as ranges of code points in ascending order, with a gap between each two
of them, so that a set has one form only.  No character is a surrogate: the last code point before
the surrogates and the first one behind them are neighbours.

* `CharSet.ofRanges` — the set of some ranges in any order.
* `CharSet.union`, `complement`, `intersection`, `difference`, `symmetricDifference`.
* `CharSet.contains` — whether a character belongs to a set.
* `CharSet.ofTable` — the set that the lines of a table list.
-/

namespace GraphValidation.Text

/-- The code points from the first to the last. -/
structure CodeRange where
  first : Nat
  last : Nat
  deriving DecidableEq, Repr

namespace CodeRange

/-- The code point that follows another one among those of characters. -/
def following (n : Nat) : Nat := if n = 0xD7FF then 0xE000 else n + 1

/-- The code point that precedes another one among those of characters. -/
def preceding (n : Nat) : Nat := if n = 0xE000 then 0xD7FF else n - 1

/-- The last code point of all. -/
def greatest : Nat := 0x10FFFF

/-- Joins ascending ranges that touch each other; `current` comes before the others. -/
def join (current : CodeRange) : List CodeRange → List CodeRange
  | [] => [current]
  | range :: rest =>
    if range.first ≤ following current.last then
      join ⟨current.first, max current.last range.last⟩ rest
    else current :: join range rest

/-- Joins ascending ranges that touch each other. -/
def joinAll : List CodeRange → List CodeRange
  | [] => []
  | range :: rest => join range rest

/-- The ranges between some ascending ranges, from a code point on. -/
def gaps (start : Nat) : List CodeRange → List CodeRange
  | [] => if start ≤ greatest then [⟨start, greatest⟩] else []
  | range :: rest =>
    if start < range.first then
      ⟨start, preceding range.first⟩ :: gaps (following range.last) rest
    else gaps (following range.last) rest

/-- Whether one range starts no later than another one. -/
def startsBefore (a b : CodeRange) : Bool := a.first ≤ b.first

end CodeRange

/-- A set of characters. -/
structure CharSet where
  ranges : Array CodeRange
  deriving DecidableEq, Repr

namespace CharSet

/-- The set without characters. -/
def empty : CharSet := ⟨#[]⟩

/-- The set of some ranges in any order. -/
def ofRanges (ranges : List CodeRange) : CharSet :=
  ⟨(CodeRange.joinAll (ranges.mergeSort CodeRange.startsBefore)).toArray⟩

/-- The characters from the first to the last. -/
def range (first last : Nat) : CharSet := ⟨#[⟨first, last⟩]⟩

/-- The set of one character. -/
def single (c : Char) : CharSet := range c.toNat c.toNat

/-- The set of some code points. -/
def ofPoints (points : List Nat) : CharSet := ofRanges (points.map fun n => ⟨n, n⟩)

/-- All characters. -/
def all : CharSet := range 0 CodeRange.greatest

/-- The characters of one set or of another one. -/
def union (a b : CharSet) : CharSet :=
  ⟨(CodeRange.joinAll
    (a.ranges.toList.merge b.ranges.toList CodeRange.startsBefore)).toArray⟩

/-- The characters of any of some sets. -/
def unionAll (sets : List CharSet) : CharSet :=
  ofRanges (sets.flatMap fun set => set.ranges.toList)

/-- The characters that do not belong to a set. -/
def complement (a : CharSet) : CharSet := ⟨(CodeRange.gaps 0 a.ranges.toList).toArray⟩

/-- The characters that belong to both sets. -/
def intersection (a b : CharSet) : CharSet := (a.complement.union b.complement).complement

/-- The characters of one set that do not belong to another one. -/
def difference (a b : CharSet) : CharSet := (a.complement.union b).complement

/-- The characters that belong to exactly one of two sets. -/
def symmetricDifference (a b : CharSet) : CharSet :=
  (a.union b).difference (a.intersection b)

/-- Whether a code point lies in one of the ranges from place `low` to the place before `high`. -/
def covers (ranges : Array CodeRange) (n low high : Nat) : Bool :=
  if _ : low < high then
    let middle := (low + high) / 2
    match ranges[middle]? with
    | none => false
    | some range =>
      if n < range.first then covers ranges n low middle
      else if range.last < n then covers ranges n (middle + 1) high
      else true
  else false
termination_by high - low

/-- Whether a code point belongs to a set. -/
def containsPoint (a : CharSet) (n : Nat) : Bool := covers a.ranges n 0 a.ranges.size

/-- Whether a character belongs to a set. -/
def contains (a : CharSet) (c : Char) : Bool := a.containsPoint c.toNat

/-- Whether a set holds no character. -/
def isEmpty (a : CharSet) : Bool := a.ranges.isEmpty

/-- Whether a set holds ASCII characters alone. -/
def isAscii (a : CharSet) : Bool := a.ranges.all fun range => range.last < 128

/-- The only character of a set, if it has one and no other. -/
def only? (a : CharSet) : Option Char :=
  match a.ranges.toList with
  | [range] => if range.first = range.last then some (Char.ofNat range.first) else none
  | _ => none

/-! ### Tables -/

/-- The value of a hexadecimal digit in capitals. -/
def digitValue (c : Char) : Nat :=
  if c.isDigit then c.toNat - '0'.toNat else c.toNat - 'A'.toNat + 10

/-- The ranges of a text such as `41-5A 61-7A AA`.  `number` is the part of a number that has been
read, and `first` the number before a hyphen. -/
def readTable (first : Option Nat) (number : Nat) : List Char → List CodeRange
  | [] => [⟨first.getD number, number⟩]
  | c :: rest =>
    if c = ' ' then ⟨first.getD number, number⟩ :: readTable none 0 rest
    else if c = '-' then readTable (some number) 0 rest
    else readTable first (number * 16 + digitValue c) rest

/-- The set that the lines of a table list. -/
def ofTable (lines : List String) : CharSet :=
  ofRanges (readTable none 0 (String.intercalate " " lines).toList)

end CharSet

end GraphValidation.Text
