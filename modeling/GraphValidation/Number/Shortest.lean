/-
**Shortest decimal texts of binary64 numbers.**

A finite number is written with the fewest digits that still read back as it.  For one, two, … up to
seventeen digits the two neighbours of the number on the decimal grid of that many digits are
tested against the interval of reals that round to the number; the first grid with a hit wins, and
of two hits the nearer one.

* `Binary64.shortest` — the digits and the power of ten of a positive number.
* `FloatLayout` — where positional notation ends, whether an integral number keeps a fraction, and
  how a tie between two neighbours goes.
* `FloatLayout.plain`, `FloatLayout.document` — the two layouts of this library.
-/
import GraphValidation.Number.Binary64

namespace GraphValidation

/-- A decimal number `digits * 10 ^ exponent`. -/
structure Decimal where
  digits : Nat
  exponent : Int
  deriving DecidableEq, Repr

/-- How a number halfway between two decimals of the shortest length is written. -/
inductive Tie where
  | up
  | toEven
  deriving DecidableEq, Repr

/-- Drops the trailing zeros of the digits, at most `fuel` of them. -/
def Decimal.strip : Nat → Decimal → Decimal
  | 0, d => d
  | fuel + 1, d =>
    if d.digits != 0 && d.digits % 10 == 0 then strip fuel ⟨d.digits / 10, d.exponent + 1⟩ else d

/-- The reals that round to a number, and the number itself, as multiples of `1 / unit`. -/
structure RoundingInterval where
  low : Nat
  value : Nat
  high : Nat
  unit : Nat
  closed : Bool

namespace RoundingInterval

/-- Whether the grid point `point / scale`, in multiples of `1 / unit`, lies in the interval. -/
def contains (interval : RoundingInterval) (point scale : Nat) : Bool :=
  if interval.closed then
    decide (interval.low * scale ≤ point) && decide (point ≤ interval.high * scale)
  else decide (interval.low * scale < point) && decide (point < interval.high * scale)

/-- The neighbour of the value on the grid of multiples of `10 ^ exponent` that is nearest to it
among those in the interval. -/
def onGrid? (interval : RoundingInterval) (tie : Tie) (exponent : Int) : Option Decimal :=
  let scale := if 0 ≤ exponent then 1 else Nat.pow 10 (-exponent).toNat
  let step := interval.unit * if 0 ≤ exponent then Nat.pow 10 exponent.toNat else 1
  let below := interval.value * scale / step
  let rest := interval.value * scale % step
  let lower := interval.contains (below * step) scale
  let upper := interval.contains ((below + 1) * step) scale
  let preferUpper :=
    if 2 * rest == step then (match tie with | .up => true | .toEven => below % 2 == 1)
    else decide (step < 2 * rest)
  if lower && (!upper || !preferUpper) then some ⟨below, exponent⟩
  else if upper then some ⟨below + 1, exponent⟩
  else none

/-- The first hit on the grids with more and more digits, from the exponent of the first digit
downwards. -/
def search (interval : RoundingInterval) (tie : Tie) : Nat → Int → Decimal
  | 0, exponent => ⟨0, exponent⟩
  | fuel + 1, exponent =>
    match interval.onGrid? tie exponent with
    | some found => found
    | none => search interval tie fuel (exponent - 1)

end RoundingInterval

namespace Binary64

/-- The reals that round to a positive finite number. -/
def roundingInterval (x : Binary64) : RoundingInterval :=
  let m := x.significand
  let q := x.exponent - 2
  let up := if 0 ≤ q then Nat.pow 2 q.toNat else 1
  let lowest := if m = leadingBit ∧ -1074 < x.exponent then 4 * m - 1 else 4 * m - 2
  let down := if 0 ≤ q then 1 else Nat.pow 2 (-q).toNat
  ⟨lowest * up, 4 * m * up, (4 * m + 2) * up, down, m % 2 == 0⟩

/-- The number of decimal digits of a natural number. -/
def digitCount (n : Nat) : Nat := (Nat.toDigits 10 n).length

/-- The number of places after the point up to the first digit of `value / unit`, for a value below
the unit. -/
def leadingPlaces (value unit : Nat) : Nat → Nat
  | 0 => 0
  | fuel + 1 => if unit ≤ value * 10 then 1 else 1 + leadingPlaces (value * 10) unit fuel

/-- The exponent of the first digit of a positive finite number. -/
def firstExponent (x : Binary64) : Int :=
  let interval := x.roundingInterval
  if interval.unit ≤ interval.value then (digitCount (interval.value / interval.unit) : Int) - 1
  else -(leadingPlaces interval.value interval.unit 400 : Int)

/-- The shortest decimal that rounds to a positive finite number. -/
def shortest (tie : Tie) (x : Binary64) : Decimal :=
  (x.roundingInterval.search tie 18 x.firstExponent).strip 400

end Binary64

/-! ### Layouts -/

/-- How the digits of a number are laid out. -/
structure FloatLayout where
  /-- Which way a tie between two shortest decimals goes. -/
  tie : Tie
  /-- The exponents of the first digit that are written positionally, `none` for all. -/
  positional : Option (Int × Int)
  /-- What an integral number in positional notation ends in. -/
  integralEnd : String

namespace FloatLayout

/-- The layout of values in messages: no exponent, and no point in an integral number. -/
def plain : FloatLayout := ⟨.up, none, ""⟩

/-- The layout of numbers in documents: positional from `10 ^ -5` up to `10 ^ 16`, always with a
point or an exponent. -/
def document : FloatLayout := ⟨.toEven, some (-5, 15), ".0"⟩

/-- Digits with a point after the first `before` of them, filled with zeros on either side. -/
def positionalText (layout : FloatLayout) (digits : List Char) (before : Int) : String :=
  if before ≤ 0 then
    "0." ++ String.ofList (List.replicate (-before).toNat '0' ++ digits)
  else if digits.length ≤ before.toNat then
    let zeros := List.replicate (before.toNat - digits.length) '0'
    String.ofList (digits ++ zeros) ++ layout.integralEnd
  else
    String.ofList (digits.take before.toNat) ++ "." ++ String.ofList (digits.drop before.toNat)

/-- The first digit, a point where more follow, and the power of ten with its sign. -/
def scientificText (digits : List Char) (exponent : Int) : String :=
  String.ofList (digits.take 1)
    ++ (if digits.length ≤ 1 then "" else "." ++ String.ofList (digits.drop 1))
    ++ "e" ++ (if exponent < 0 then "-" else "+") ++ toString exponent.natAbs

/-- The text of a number. -/
def text (layout : FloatLayout) (x : Binary64) : String :=
  if x.isNaN then "NaN"
  else
    let sign := if x.isNegative then "-" else ""
    if !x.isFinite then sign ++ "inf"
    else if x.isZero then sign ++ "0" ++ layout.integralEnd
    else
      let decimal := x.shortest layout.tie
      let digits := Nat.toDigits 10 decimal.digits
      let first := decimal.exponent + digits.length - 1
      let isPositional := match layout.positional with
        | none => true
        | some (low, high) => decide (low ≤ first) && decide (first ≤ high)
      sign ++ if isPositional then layout.positionalText digits (first + 1)
        else scientificText digits first

end FloatLayout

end GraphValidation
