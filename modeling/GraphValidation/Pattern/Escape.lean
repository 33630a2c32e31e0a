/-
**Escapes in patterns.**

What a backslash introduces: a character with a meaning of its own, a character by its number, a
class by one letter or by a Unicode name, or a condition on a place.

* `Atom` — one element of a pattern.
* `readEscape` — what follows a backslash.
-/
import GraphValidation.Pattern.Expr
import GraphValidation.Pattern.Flags
import GraphValidation.Pattern.Property
import GraphValidation.Json.Token

namespace GraphValidation.Pattern

open Text (CharSet Category)

/-- One element of a pattern. -/
inductive Atom where
  /-- A character, and whether it is written by the number of a byte. -/
  | literal (c : Char) (byte : Bool)
  | set (chars : CharSet)
  | look (condition : Look)

/-- Takes a given text off the front. -/
def dropText? : List Char → List Char → Option (List Char)
  | [], text => some text
  | _ :: _, [] => none
  | p :: ps, c :: rest => if p = c then dropText? ps rest else none

/-! ### Characters -/

/-- Characters that mean something in a pattern unless a backslash precedes them. -/
def isMeta (c : Char) : Bool := "\\.+*?()|[]\x7b\x7d^$#&-~".toList.contains c

/-- Characters that a backslash leaves as they are. -/
def isEscapable (c : Char) : Bool :=
  isMeta c || (c.toNat < 128 && !c.isAlphanum && c != '<' && c != '>')

/-- The character of a number. -/
def charOf? (n : Nat) : Option Char := if n.isValidChar then some (Char.ofNat n) else none

/-- The character whose number has some hexadecimal digits. -/
def charOfDigits? (digits : List Char) : Option Char :=
  (digits.foldlM (fun value c => (Json.Token.hexDigit? c).map (value * 16 + ·)) 0).bind charOf?

/-- A fixed number of characters; what means nothing may stand between them. -/
def takeCount (flags : Flags) : Nat → List Char → Option (List Char × List Char)
  | 0, text => some ([], text)
  | _ + 1, [] => none
  | count + 1, c :: rest =>
    (takeCount flags count (if count = 0 then rest else flags.skip rest)).map fun taken =>
      (c :: taken.1, taken.2)

/-- A character by its number, with a fixed number of digits or any number in braces. -/
def readHex (flags : Flags) (digits : Nat) (text : List Char) : Option (Atom × List Char) :=
  match flags.skip text with
  | '\x7b' :: rest => do
    let (inside, rest) ← flags.takeBraced rest
    if inside.isEmpty then none
    else (charOfDigits? inside).map fun c => (.literal c false, rest)
  | text => do
    let (inside, rest) ← takeCount flags digits text
    (charOfDigits? inside).map fun c => (.literal c (digits == 2), rest)

/-! ### Classes -/

/-- Splits a text at the first place where another one starts. -/
def splitAt? (mark : List Char) : List Char → Option (List Char × List Char)
  | [] => none
  | c :: rest => match dropText? mark (c :: rest) with
    | some after => some ([], after)
    | none => (splitAt? mark rest).map fun split => (c :: split.1, split.2)

/-- The set that the inside of a named class means, and whether it is negated. -/
def classOfName? (name : List Char) : Option (CharSet × Bool) :=
  match splitAt? ['!', '='] name with
  | some (property, value) => (valuedSet? property value).map (·, true)
  | none => match (splitAt? [':'] name).or (splitAt? ['='] name) with
    | some (property, value) => (valuedSet? property value).map (·, false)
    | none => (namedSet? name).map (·, false)

/-- A class by its Unicode name. -/
def readNamed (flags : Flags) (negated : Bool) (text : List Char) : Option (Atom × List Char) := do
  let (name, rest) ← match flags.skip text with
    | [] => none
    | '\\' :: _ => none
    | '\x7b' :: rest => flags.takeBraced rest
    | c :: rest => some ([c], rest)
  let (set, differs) ← classOfName? name
  if !flags.unicode then none
  else
    let set := flags.fold set
    some (.set (if negated != differs then set.complement else set), rest)

/-- Decimal digits. -/
def digits : CharSet := Category.set .decimalNumber

/-- The decimal digits of ASCII. -/
def asciiDigits : CharSet := .ofTable ["30-39"]

/-- The characters of words in ASCII. -/
def asciiWord : CharSet := .ofTable ["30-39 41-5A 5F 61-7A"]

/-- The blanks of ASCII. -/
def asciiBlank : CharSet := .ofTable ["9-D 20"]

/-- A class by one letter.  Without Unicode there is none with characters beyond ASCII. -/
def letterClass? (flags : Flags) (c : Char) : Option CharSet :=
  if flags.unicode then
    match c with
    | 'd' => some digits
    | 's' => some Text.Property.whiteSpace
    | 'w' => some Text.Property.word
    | 'D' => some digits.complement
    | 'S' => some Text.Property.whiteSpace.complement
    | 'W' => some Text.Property.word.complement
    | _ => none
  else
    match c with
    | 'd' => some asciiDigits
    | 's' => some asciiBlank
    | 'w' => some asciiWord
    | _ => none

/-! ### Conditions -/

/-- The condition of a name in braces. -/
def boundaryOfName? (ascii : Bool) (name : List Char) : Option Look :=
  match String.ofList name with
  | "start" => some (.wordStart ascii)
  | "end" => some (.wordEnd ascii)
  | "start-half" => some (.halfStart ascii)
  | "end-half" => some (.halfEnd ascii)
  | _ => none

/-- A word boundary with a name in braces; braces that hold no name are read as something else. -/
def readBoundary (flags : Flags) (text : List Char) : Option (Look × List Char) :=
  let ascii := !flags.unicode
  let isNameChar := fun (c : Char) => c.isAlpha || c == '-'
  match text with
  | '\x7b' :: rest => match flags.skip rest with
    | [] => none
    | c :: rest =>
      if !isNameChar c then some (.boundary ascii, text)
      else match flags.takeWhile isNameChar (c :: rest) with
        | (name, '\x7d' :: after) => (boundaryOfName? ascii name).map (·, after)
        | _ => none
  | _ => some (.boundary ascii, text)

/-! ### Escapes -/

/-- The character that a letter stands for. -/
def controlChar? (c : Char) : Option Char :=
  match c with
  | 'a' => some '\x07'
  | 'f' => some '\x0c'
  | 't' => some '\t'
  | 'n' => some '\n'
  | 'r' => some '\r'
  | 'v' => some '\x0b'
  | _ => none

/-- The condition that a letter or a bracket stands for. -/
def lookOf? (ascii : Bool) (c : Char) : Option Look :=
  match c with
  | 'A' => some .textStart
  | 'z' => some .textEnd
  | 'B' => some (.noBoundary ascii)
  | '<' => some (.wordStart ascii)
  | '>' => some (.wordEnd ascii)
  | _ => none

/-- What follows a backslash. -/
def readEscape (flags : Flags) (text : List Char) : Option (Atom × List Char) :=
  match text with
  | [] => none
  | 'x' :: rest => readHex flags 2 rest
  | 'u' :: rest => readHex flags 4 rest
  | 'U' :: rest => readHex flags 8 rest
  | 'p' :: rest => readNamed flags false rest
  | 'P' :: rest => readNamed flags true rest
  | 'b' :: rest => (readBoundary flags rest).map fun found => (.look found.1, found.2)
  | c :: rest =>
    if isEscapable c then some (.literal c false, rest)
    else
      let ascii := !flags.unicode
      let atom := ((letterClass? flags c).map Atom.set).or
        (((controlChar? c).map (Atom.literal · false)).or ((lookOf? ascii c).map Atom.look))
      atom.map (·, rest)

end GraphValidation.Pattern
