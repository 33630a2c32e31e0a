/-
**Binary floating-point numbers of 64 bits.**

A number is its word: one sign bit, eleven exponent bits, fifty-two fraction bits.  Everything is
computed on natural numbers, so comparisons, roundings and texts can be reasoned about.

* `Binary64.key` — an integer that orders the numbers that are not NaN; both zeros have key 0.
* `Binary64.equal`, `Binary64.less` — comparison; NaN is unequal to everything, itself included.
* `Binary64.ofRatio` — the nearest number of a quotient, a half going to the even neighbour.
* `Binary64.toInt64` — the integral part, saturating at the ends of the range.
-/

namespace GraphValidation

/-- A word of the binary64 format. -/
structure Binary64 where
  bits : UInt64
  deriving DecidableEq, Repr, Inhabited

namespace Binary64

/-- The value of the sign bit. -/
def signBit : Nat := Nat.pow 2 63

/-- The value of the leading bit of a significand, which is one more than the greatest fraction. -/
def leadingBit : Nat := Nat.pow 2 52

/-- The sign bit. -/
def isNegative (x : Binary64) : Bool := signBit ≤ x.bits.toNat

/-- The word without its sign bit. -/
def magnitude (x : Binary64) : Nat := x.bits.toNat % signBit

/-- The exponent bits. -/
def exponentField (x : Binary64) : Nat := x.magnitude / leadingBit

/-- The fraction bits. -/
def fraction (x : Binary64) : Nat := x.magnitude % leadingBit

/-- The magnitude of an infinity. -/
def infinityMagnitude : Nat := 2047 * leadingBit

def isNaN (x : Binary64) : Bool := infinityMagnitude < x.magnitude

def isFinite (x : Binary64) : Bool := x.magnitude < infinityMagnitude

def isZero (x : Binary64) : Bool := x.magnitude == 0

/-- The number with a sign and a magnitude. -/
def ofMagnitude (negative : Bool) (magnitude : Nat) : Binary64 :=
  ⟨UInt64.ofNat (magnitude + if negative then signBit else 0)⟩

def zero : Binary64 := ofMagnitude false 0

def infinity (negative : Bool) : Binary64 := ofMagnitude negative infinityMagnitude

def nan : Binary64 := ofMagnitude false (infinityMagnitude + Nat.pow 2 51)

/-- The number with the opposite sign. -/
def neg (x : Binary64) : Binary64 := ofMagnitude (!x.isNegative) x.magnitude

/-- The significand `m` of a finite number `m * 2 ^ q`. -/
def significand (x : Binary64) : Nat :=
  if x.exponentField = 0 then x.fraction else x.fraction + leadingBit

/-- The exponent `q` of a finite number `m * 2 ^ q`. -/
def exponent (x : Binary64) : Int :=
  if x.exponentField = 0 then -1074 else (x.exponentField : Int) - 1075

/-! ### Comparison -/

/-- The place of a number in the order of all numbers that are not NaN. -/
def key (x : Binary64) : Int := if x.isNegative then -(x.magnitude : Int) else x.magnitude

/-- Numeric equality: NaN differs from itself, and the two zeros are equal. -/
def equal (x y : Binary64) : Bool := !x.isNaN && !y.isNaN && x.key == y.key

/-- Numeric order: false when either side is NaN. -/
def less (x y : Binary64) : Bool := !x.isNaN && !y.isNaN && decide (x.key < y.key)

theorem equal_comm (x y : Binary64) : x.equal y = y.equal x := by
  simp only [equal, Bool.and_comm (!x.isNaN), Bool.beq_comm (a := x.key)]

theorem equal_trans {x y z : Binary64} (first : x.equal y = true) (second : y.equal z = true) :
    x.equal z = true := by
  simp only [equal, Bool.and_eq_true, beq_iff_eq] at *
  exact ⟨⟨first.1.1, second.1.2⟩, first.2.trans second.2⟩

theorem equal_self (x : Binary64) : x.equal x = !x.isNaN := by
  simp [equal]

/-! ### Rounding -/

/-- The quotient rounded to the nearest natural number, a half going to the even one. -/
def roundQuotient (numerator denominator : Nat) : Nat :=
  let quotient := numerator / denominator
  let twice := 2 * (numerator % denominator)
  if twice < denominator then quotient
  else if denominator < twice then quotient + 1
  else quotient + quotient % 2

/-- The largest `e` with `2 ^ e * denominator ≤ numerator`, for positive arguments. -/
def floorLog (numerator denominator : Nat) : Int :=
  let guess := (numerator.log2 : Int) - denominator.log2
  let fits :=
    if 0 ≤ guess then decide (denominator * Nat.pow 2 guess.toNat ≤ numerator)
    else decide (denominator ≤ numerator * Nat.pow 2 (-guess).toNat)
  if fits then guess else guess - 1

/-- The number nearest to a quotient of natural numbers with a sign. -/
def ofRatio (negative : Bool) (numerator denominator : Nat) : Binary64 :=
  if numerator = 0 then ofMagnitude negative 0
  else
    let e := floorLog numerator denominator
    if 1023 < e then infinity negative
    else
      let q := max (e - 52) (-1074)
      let m :=
        if 0 ≤ q then roundQuotient numerator (denominator * Nat.pow 2 q.toNat)
        else roundQuotient (numerator * Nat.pow 2 (-q).toNat) denominator
      let magnitude :=
        if m < leadingBit then m else (q + 1075).toNat * leadingBit + (m - leadingBit)
      ofMagnitude negative (min magnitude infinityMagnitude)

/-- The number nearest to an integer. -/
def ofInt (i : Int) : Binary64 := ofRatio (i < 0) i.natAbs 1

/-- The number nearest to `digits * 10 ^ exponent`.  Exponents far outside the range are cut, which
changes no result. -/
def ofDecimal (negative : Bool) (digits : Nat) (exponent : Int) : Binary64 :=
  if digits = 0 then ofMagnitude negative 0
  else
    let size := (digits.log2 : Int)
    if 4000 < exponent + size ∧ 0 ≤ exponent then infinity negative
    else if exponent * 3 + size < -4000 then ofMagnitude negative 0
    else if 0 ≤ exponent then ofRatio negative (digits * Nat.pow 10 exponent.toNat) 1
    else ofRatio negative digits (Nat.pow 10 (-exponent).toNat)

/-- The exact product of two finite numbers, rounded. -/
def mul (x y : Binary64) : Binary64 :=
  let m := x.significand * y.significand
  let q := x.exponent + y.exponent
  let negative := x.isNegative != y.isNegative
  if 0 ≤ q then ofRatio negative (m * Nat.pow 2 q.toNat) 1
  else ofRatio negative m (Nat.pow 2 (-q).toNat)

/-- The exact quotient of two finite numbers, rounded; the divisor is not zero. -/
def div (x y : Binary64) : Binary64 :=
  let q := x.exponent - y.exponent
  let negative := x.isNegative != y.isNegative
  if 0 ≤ q then ofRatio negative (x.significand * Nat.pow 2 q.toNat) y.significand
  else ofRatio negative x.significand (y.significand * Nat.pow 2 (-q).toNat)

/-! ### Integral part -/

/-- The integer that is left when the fraction of a finite number is dropped. -/
def truncate (x : Binary64) : Int :=
  let size := if 0 ≤ x.exponent then x.significand * Nat.pow 2 x.exponent.toNat
    else x.significand / Nat.pow 2 (-x.exponent).toNat
  if x.isNegative then -(size : Int) else size

/-- The integral part as an integer of 64 bits: the nearest end of the range where it does not fit,
zero for NaN. -/
def toInt64 (x : Binary64) : Int64 :=
  if x.isNaN then 0
  else if x.magnitude = infinityMagnitude then
    if x.isNegative then Int64.minValue else Int64.maxValue
  else if x.truncate < Int64.minValue.toInt then Int64.minValue
  else if Int64.maxValue.toInt < x.truncate then Int64.maxValue
  else Int64.ofInt x.truncate

/-- Whether a finite number has no fraction. -/
def isIntegral (x : Binary64) : Bool :=
  x.isFinite && (decide (0 ≤ x.exponent) || x.significand % Nat.pow 2 (-x.exponent).toNat == 0)

example : ofInt 9007199254740993 = ofInt 9007199254740992 := by decide
example : (ofRatio false 1 10).bits = 0x3FB999999999999A := by decide
example : (ofDecimal true 5 (-324)).bits = 0x8000000000000001 := by decide +kernel
example : (ofDecimal false 1 400) = infinity false := by decide +kernel
example : (ofDecimal true 15 (-1)).toInt64 = -1 := by decide

end Binary64

end GraphValidation
