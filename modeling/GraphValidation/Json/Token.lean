/-
**Words of the JSON format.**

A text is cut into its words up to the first place where it breaks a rule.  What follows that place
is never looked at.  A text breaks in one of two ways: it ends early, or it goes on wrongly.

* `Json.Token.scan` — the words of a text.
* `Json.Token.scanNumber` — a number.  Its leading digits are kept as long as they fit 64 bits and
  are then scaled by a power of ten, with one rounding for each step.
-/
import GraphValidation.Json.Basic
import GraphValidation.Number.Reader

namespace GraphValidation

namespace Json

/-- How a text fails to be a document. -/
inductive Break where
  /-- It ends early. -/
  | ended
  /-- It goes on with something that no document has there. -/
  | malformed
  deriving DecidableEq, Repr

/-- A word. -/
inductive Token where
  | openArray | closeArray | openObject | closeObject | comma | colon
  | null
  | bool (value : Bool)
  | integer (value : Int)
  | float (value : Binary64)
  | string (text : String)
  /-- The place where the text breaks, and whether a quoted text breaks there. -/
  | broken (reason : Break) (inQuotes : Bool)
  deriving Repr

namespace Token

/-- Blank characters between words. -/
def isGap (c : Char) : Bool := c == ' ' || c == '\n' || c == '\t' || c == '\r'

/-! ### Numbers -/

/-- Scales a number by a power of ten, in steps of at most `10 ^ 308`, rounding after each. -/
def scale (number : Binary64) : Nat → Int → Except Break Binary64
  | 0, _ => .ok number
  | fuel + 1, exponent =>
    if exponent.natAbs ≤ 308 then
      let power := Binary64.ofRatio false (Nat.pow 10 exponent.natAbs) 1
      if exponent < 0 then .ok (number.div power)
      else
        let product := number.mul power
        if product.isFinite then .ok product else .error .malformed
    else if number.isZero then .ok number
    else if 0 ≤ exponent then .error .malformed
    else scale (number.div (Binary64.ofRatio false (Nat.pow 10 308) 1)) fuel (exponent + 308)

/-- The number with a sign, a significand of 64 bits and a power of ten. -/
def fromParts (negative : Bool) (significand : Nat) (exponent : Int) : Except Break Token := do
  let size ← scale (Binary64.ofRatio false significand 1) 40 (max exponent (-12000))
  .ok (.float (if negative then size.neg else size))

/-- The digits that keep a significand below `2 ^ 64`, the significand, how many digits it took, and
the digits that it did not take. -/
def accumulate (significand taken : Nat) : List Char → Nat × Nat × List Char
  | [] => (significand, taken, [])
  | c :: rest =>
    let next := significand * 10 + (c.toNat - '0'.toNat)
    if next < Nat.pow 2 64 then accumulate next (taken + 1) rest
    else (significand, taken, c :: rest)

/-- The power of ten of a number, after its mark, and what follows it. -/
def scanPower (negative : Bool) (significand : Nat) (exponent : Int) (text : List Char) :
    Except Break (Token × List Char) := do
  let (down, rest) := takeSign text
  let (digits, rest) := takeDigits rest
  match digits, rest with
  | [], [] => .error .ended
  | [], _ => .error .malformed
  | _, _ =>
    let power := digitsValue digits
    if Nat.pow 2 31 ≤ power then
      if significand ≠ 0 ∧ !down then .error .malformed
      else .ok (.float (Binary64.ofMagnitude negative 0), rest)
    else
      let exponent := if down then exponent - power else exponent + power
      let number ← fromParts negative significand exponent
      .ok (number, rest)

/-- What may follow the digits of a number that is no integer. -/
def scanTail (negative : Bool) (significand : Nat) (exponent : Int) (text : List Char) :
    Except Break (Token × List Char) :=
  match text with
  | 'e' :: rest => scanPower negative significand exponent rest
  | 'E' :: rest => scanPower negative significand exponent rest
  | rest => do .ok (← fromParts negative significand exponent, rest)

/-- The places after the point of a number. -/
def scanPlaces (negative : Bool) (significand : Nat) (exponent : Int) (text : List Char) :
    Except Break (Token × List Char) :=
  let (digits, rest) := takeDigits text
  match digits, rest with
  | [], [] => .error .ended
  | [], _ => .error .malformed
  | _, _ =>
    let (significand, taken, _) := accumulate significand 0 digits
    scanTail negative significand (exponent - taken) rest

/-- An integer of 64 bits, signed or unsigned; minus zero and what is too small are floats. -/
def ofInteger (negative : Bool) (significand : Nat) : Token :=
  if negative then
    if significand = 0 ∨ Binary64.signBit < significand then
      .float (Binary64.ofRatio true significand 1)
    else .integer (-(significand : Int))
  else .integer significand

/-- A number after its sign. -/
def scanNumber (negative : Bool) (text : List Char) : Except Break (Token × List Char) :=
  let (digits, rest) := takeDigits text
  match digits with
  | [] => if text.isEmpty then .error .ended else .error .malformed
  | '0' :: _ :: _ => .error .malformed
  | _ =>
    let (significand, _, left) := accumulate 0 0 digits
    match rest with
    | '.' :: after => scanPlaces negative significand left.length after
    | 'e' :: _ => scanTail negative significand left.length rest
    | 'E' :: _ => scanTail negative significand left.length rest
    | _ =>
      if left.isEmpty then .ok (ofInteger negative significand, rest)
      else scanTail negative significand left.length rest

/-! ### Quoted texts -/

/-- The value of a hexadecimal digit. -/
def hexDigit? (c : Char) : Option Nat :=
  if c.isDigit then some (c.toNat - '0'.toNat)
  else if 'a' ≤ c ∧ c ≤ 'f' then some (c.toNat - 'a'.toNat + 10)
  else if 'A' ≤ c ∧ c ≤ 'F' then some (c.toNat - 'A'.toNat + 10)
  else none

/-- Four hexadecimal digits.  Fewer than four bytes are an early end, whatever they hold. -/
def scanHex (text : List Char) : Except Break (Nat × List Char) :=
  if (String.ofList (text.take 4)).utf8ByteSize < 4 then .error .ended
  else match (text.take 4).mapM hexDigit? with
    | some [a, b, c, d] => .ok (((a * 16 + b) * 16 + c) * 16 + d, text.drop 4)
    | _ => .error .malformed

/-- The character of a numeric escape: two escapes where the first is half of a pair. -/
def scanEscapedUnit (text : List Char) : Except Break (Char × List Char) := do
  let (unit, rest) ← scanHex text
  if 0xDC00 ≤ unit ∧ unit ≤ 0xDFFF then .error .malformed
  else if 0xD800 ≤ unit ∧ unit ≤ 0xDBFF then
    match rest with
    | [] => .error .ended
    | ['\\'] => .error .ended
    | '\\' :: 'u' :: after => do
      let (low, rest) ← scanHex after
      if 0xDC00 ≤ low ∧ low ≤ 0xDFFF then
        .ok (Char.ofNat ((unit - 0xD800) * 0x400 + (low - 0xDC00) + 0x10000), rest)
      else .error .malformed
    | _ => .error .malformed
  else .ok (Char.ofNat unit, rest)

/-- The character of an escape of one letter. -/
def escaped? (c : Char) : Option Char :=
  match c with
  | '"' => some '"'
  | '\\' => some '\\'
  | '/' => some '/'
  | 'b' => some '\x08'
  | 'f' => some '\x0c'
  | 'n' => some '\n'
  | 'r' => some '\r'
  | 't' => some '\t'
  | _ => none

/-- A quoted text after its opening quote; `seen` holds its characters backwards. -/
def scanQuoted : Nat → List Char → List Char → Except Break (String × List Char)
  | 0, _, _ => .error .ended
  | _, _, [] => .error .ended
  | fuel + 1, seen, c :: rest =>
    if c = '"' then .ok (String.ofList seen.reverse, rest)
    else if c = '\\' then
      match rest with
      | [] => .error .ended
      | 'u' :: after => do
        let (unit, rest) ← scanEscapedUnit after
        scanQuoted fuel (unit :: seen) rest
      | e :: after => match escaped? e with
        | some plain => scanQuoted fuel (plain :: seen) after
        | none => .error .malformed
    else if c.toNat < 0x20 then .error .malformed
    else scanQuoted fuel (c :: seen) rest

/-! ### Words -/

/-- A literal word, of whose letters `text` must hold all. -/
def scanLiteral (token : Token) : List Char → List Char → Except Break (Token × List Char)
  | [], text => .ok (token, text)
  | _ :: _, [] => .error .ended
  | letter :: letters, c :: rest =>
    if letter = c then scanLiteral token letters rest else .error .malformed

/-- The word at the front of a text without leading gaps. -/
def scanWord (c : Char) (rest : List Char) : Except Break (Token × List Char) :=
  match c with
  | '[' => .ok (.openArray, rest)
  | ']' => .ok (.closeArray, rest)
  | '\x7b' => .ok (.openObject, rest)
  | '\x7d' => .ok (.closeObject, rest)
  | ',' => .ok (.comma, rest)
  | ':' => .ok (.colon, rest)
  | 'n' => scanLiteral .null ['u', 'l', 'l'] rest
  | 't' => scanLiteral (.bool true) ['r', 'u', 'e'] rest
  | 'f' => scanLiteral (.bool false) ['a', 'l', 's', 'e'] rest
  | '"' => do
    let (text, rest) ← scanQuoted (rest.length + 1) [] rest
    .ok (.string text, rest)
  | '-' => scanNumber true rest
  | _ => if c.isDigit then scanNumber false (c :: rest) else .error .malformed

/-- The words of a text, up to where it breaks; each word takes at least one character. -/
def scanAll : Nat → List Char → List Token
  | 0, _ => []
  | _, [] => []
  | fuel + 1, c :: rest =>
    if isGap c then scanAll fuel rest
    else match scanWord c rest with
      | .ok (token, rest) => token :: scanAll fuel rest
      | .error reason => [.broken reason (c == '"')]

/-- The words of a text. -/
def scan (text : String) : List Token := scanAll (text.length + 1) text.toList

end Token

end Json

end GraphValidation
