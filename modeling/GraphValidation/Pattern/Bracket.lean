/-
**Bracketed classes.**

A class between brackets lists characters, ranges and other classes, and combines what it lists by
operations between sets.  Operations are applied from left to right.

* `SetOperation` — the operations.
* `Elements` — what a class lists up to an operation.
* `readBracket` — a class after its opening bracket.
-/
import GraphValidation.Pattern.Escape

namespace GraphValidation.Pattern

open Text (CharSet CodeRange)

/-- The greatest depth of a pattern: how many of its parts may lie inside of each other. -/
def greatestDepth : Nat := 250

/-- A set and the depth of what it is written as. -/
structure DeepSet where
  set : CharSet
  depth : Nat

/-! ### Operations -/

/-- An operation between two sets. -/
inductive SetOperation where
  | intersection
  | difference
  | symmetricDifference

/-- The set of an operation. -/
def SetOperation.apply (a b : CharSet) : SetOperation → CharSet
  | intersection => a.intersection b
  | difference => a.difference b
  | symmetricDifference => a.symmetricDifference b

/-- What a class lists up to an operation or to its end. -/
structure Elements where
  ranges : List CodeRange
  count : Nat
  depth : Nat

namespace Elements

/-- No elements. -/
def empty : Elements := ⟨[], 0, 0⟩

/-- Adds an element. -/
def add (elements : Elements) (found : DeepSet) : Elements :=
  ⟨found.set.ranges.toList ++ elements.ranges, elements.count + 1, max elements.depth found.depth⟩

/-- All elements; a list of several is one level deeper. -/
def total (elements : Elements) : DeepSet :=
  ⟨.ofRanges elements.ranges, if 2 ≤ elements.count then elements.depth + 1 else elements.depth⟩

end Elements

/-- The set before an operation, and the operation. -/
abbrev Pending := Option (DeepSet × SetOperation)

/-- What has been read of a class, with the operation before the last elements. -/
def resolve (flags : Flags) (pending : Pending) (elements : Elements) : DeepSet :=
  let after := elements.total
  match pending with
  | none => after
  | some (before, operation) =>
    ⟨operation.apply (flags.fold before.set) (flags.fold after.set),
      max before.depth after.depth + 1⟩

/-! ### Elements -/

/-- The classes of ASCII with a name between colons. -/
def asciiClasses : List (String × CharSet) :=
  [("alnum", .ofTable ["30-39 41-5A 61-7A"]),
   ("alpha", .ofTable ["41-5A 61-7A"]),
   ("ascii", .ofTable ["0-7F"]),
   ("blank", .ofTable ["9 20"]),
   ("cntrl", .ofTable ["0-1F 7F"]),
   ("digit", asciiDigits),
   ("graph", .ofTable ["21-7E"]),
   ("lower", .ofTable ["61-7A"]),
   ("print", .ofTable ["20-7E"]),
   ("punct", .ofTable ["21-2F 3A-40 5B-60 7B-7E"]),
   ("space", asciiBlank),
   ("upper", .ofTable ["41-5A"]),
   ("word", asciiWord),
   ("xdigit", .ofTable ["30-39 41-46 61-66"])]

/-- What flags and a negation make of a set, unless it may not stand there. -/
def negate? (flags : Flags) (negated : Bool) (set : CharSet) : Option CharSet :=
  let set := flags.fold set
  let set := if negated then set.complement else set
  if flags.allows set then some set else none

/-- A class between colons, after its opening bracket, and whether it is negated. -/
def readAsciiClass? (text : List Char) : Option (CharSet × Bool × List Char) := do
  let rest ← dropText? [':'] text
  let (negated, rest) := match rest with
    | '^' :: rest => (true, rest)
    | _ => (false, rest)
  let (name, rest) := rest.span (· != ':')
  let rest ← dropText? [':', ']'] rest
  let set ← asciiClasses.lookup (String.ofList name)
  some (set, negated, rest)

/-- A character or an escape in a class. -/
def readElement (flags : Flags) : List Char → Option (Atom × List Char)
  | [] => none
  | '\\' :: rest => readEscape flags rest
  | c :: rest => some (.literal c false, rest)

/-- Whether a character may stand in a class: without Unicode it has to be one of ASCII. -/
def isListable (flags : Flags) (c : Char) : Bool := flags.unicode || c.toNat < 128

/-- The set of an element that is no part of a range. -/
def elementSet? (flags : Flags) : Atom → Option CharSet
  | .literal c _ => if isListable flags c then some (.single c) else none
  | .set chars => some chars
  | .look _ => none

/-- The set of a range. -/
def rangeSet? (flags : Flags) : Atom → Atom → Option CharSet
  | .literal first _, .literal last _ =>
    if isListable flags first && isListable flags last && first.toNat ≤ last.toNat then
      some (.range first.toNat last.toNat)
    else none
  | _, _ => none

/-- The character behind a hyphen that decides whether the hyphen means a range.  Of blanks and
comments, at most the mark of one comment is passed over, not its words. -/
def behindHyphen? (flags : Flags) (text : List Char) : Option Char :=
  if !flags.spaced then text.head?
  else match text.dropWhile Text.isBlank with
    | '#' :: rest => (rest.dropWhile Text.isBlank).head?
    | rest => rest.head?

/-- One element of a class, or a range of characters. -/
def readRange (flags : Flags) (text : List Char) : Option (CharSet × List Char) := do
  let (first, rest) ← readElement flags text
  match flags.skip rest with
  | [] => none
  | '-' :: after =>
    let behind := behindHyphen? flags after
    if behind == some ']' || behind == some '-' then
      (elementSet? flags first).map (·, '-' :: after)
    else do
      let (last, rest) ← readElement flags (flags.skip after)
      (rangeSet? flags first last).map (·, rest)
  | rest => (elementSet? flags first).map (·, rest)

/-! ### Classes -/

/-- What stands at the front of a class: whether it is negated, and the hyphens or the closing
bracket that mean themselves there. -/
def readFront (flags : Flags) (text : List Char) : Bool × Elements × List Char :=
  let text := flags.skip text
  let (negated, text) := match text with
    | '^' :: rest => (true, flags.skip rest)
    | _ => (false, text)
  match text with
  | ']' :: rest => (negated, Elements.empty.add ⟨.single ']', 0⟩, flags.skip rest)
  | _ =>
    let (hyphens, rest) := flags.takeWhile (· == '-') text
    (negated, hyphens.foldl (fun elements c => elements.add ⟨.single c, 0⟩) .empty, rest)

mutual

/-- A class after its opening bracket; `level` counts the classes around it. -/
def readClass (flags : Flags) : Nat → Nat → List Char → Option (DeepSet × List Char)
  | 0, _, _ => none
  | fuel + 1, level, text =>
    if greatestDepth ≤ level then none
    else
      let (negated, elements, rest) := readFront flags text
      match readBody flags fuel level none elements rest with
      | none => none
      | some (found, rest) =>
        (negate? flags negated found.set).map fun set => (⟨set, found.depth + 1⟩, rest)

/-- The rest of a class, after some elements and what stands before them. -/
def readBody (flags : Flags) : Nat → Nat → Pending → Elements → List Char →
    Option (DeepSet × List Char)
  | 0, _, _, _, _ => none
  | fuel + 1, level, pending, elements, text =>
    let operate := fun (operation : SetOperation) (rest : List Char) =>
      readBody flags fuel level (some (resolve flags pending elements, operation)) .empty rest
    match flags.skip text with
    | [] => none
    | '[' :: rest => match readAsciiClass? rest with
      | some (set, negated, rest) => match negate? flags negated set with
        | some set => readBody flags fuel level pending (elements.add ⟨set, 0⟩) rest
        | none => none
      | none => match readClass flags fuel (level + 1) rest with
        | some (inner, rest) => readBody flags fuel level pending (elements.add inner) rest
        | none => none
    | ']' :: rest => some (resolve flags pending elements, rest)
    | '&' :: '&' :: rest => operate .intersection rest
    | '-' :: '-' :: rest => operate .difference rest
    | '~' :: '~' :: rest => operate .symmetricDifference rest
    | text => match readRange flags text with
      | some (set, rest) => readBody flags fuel level pending (elements.add ⟨set, 0⟩) rest
      | none => none

end

/-- A class after its opening bracket.  Every second call takes a character, so that the length of
the text and one is fuel enough. -/
def readBracket (flags : Flags) (fuel : Nat) (text : List Char) :
    Option (DeepSet × List Char) :=
  readClass flags (2 * fuel + 2) 0 text

end GraphValidation.Pattern
