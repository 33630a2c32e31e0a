/-
**Numbers read from text.**

* `readFloat?` — a decimal text as the nearest binary64 number, with the words for infinity and NaN.
* `readIndex?` — a position that fits 64 bits.
-/
import GraphValidation.Number.Binary64

namespace GraphValidation

/-- The value of a list of decimal digits. -/
def digitsValue (digits : List Char) : Nat :=
  digits.foldl (fun value c => value * 10 + (c.toNat - '0'.toNat)) 0

/-- The digits at the front of a text, and what follows. -/
def takeDigits (text : List Char) : List Char × List Char := text.span Char.isDigit

/-- The sign at the front of a text, and what follows. -/
def takeSign : List Char → Bool × List Char
  | '-' :: rest => (true, rest)
  | '+' :: rest => (false, rest)
  | text => (false, text)

/-- An optional sign and at least one digit, up to the end of the text. -/
def readSignedDigits? (text : List Char) : Option Int :=
  let (negative, rest) := takeSign text
  if rest.isEmpty || !rest.all Char.isDigit then none
  else some (if negative then -(digitsValue rest : Int) else digitsValue rest)

/-- An unsigned decimal text: digits with at most one point, at least one digit in all, and an
optional power of ten. -/
def readDecimal? (negative : Bool) (text : List Char) : Option Binary64 :=
  let (whole, rest) := takeDigits text
  let (places, rest) := match rest with
    | '.' :: after => takeDigits after
    | _ => ([], rest)
  if whole.isEmpty && places.isEmpty then none
  else
    let number := fun (power : Int) =>
      Binary64.ofDecimal negative (digitsValue (whole ++ places)) (power - places.length)
    match rest with
    | [] => some (number 0)
    | c :: power => if c == 'e' || c == 'E' then (readSignedDigits? power).map number else none

/-- A number with an optional sign; letters of either case in `inf`, `infinity` and `nan`. -/
def readFloat? (text : String) : Option Binary64 :=
  let (negative, rest) := takeSign text.toList
  let word := String.ofList (rest.map Char.toLower)
  if word == "inf" || word == "infinity" then some (Binary64.infinity negative)
  else if word == "nan" then some Binary64.nan
  else readDecimal? negative rest

/-- A position: an optional plus sign and decimal digits, below `2 ^ 64`. -/
def readIndex? (text : List Char) : Option Nat :=
  let digits := match text with
    | '+' :: rest => rest
    | _ => text
  if digits.isEmpty || !digits.all Char.isDigit then none
  else if digitsValue digits < Nat.pow 2 64 then some (digitsValue digits) else none

end GraphValidation
