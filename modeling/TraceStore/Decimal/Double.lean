/-!
# Double precision numbers

Numbers that are no 64-bit integers are held in double precision.  A finite one is `± m · 2 ^ e`
with `m < 2 ^ 53` and `e` from -1074 to 971, where `m` has all 53 bits unless `e = -1074`; so two
finite values are equal exactly if their parts are, and all arithmetic is on natural numbers.

`Double.ofRatio` rounds a quotient of naturals to the nearest double, a tie to the even neighbour;
multiplication, division and reading decimal digits are that rounding of the exact result.
-/

namespace TraceStore

/-- A double precision number. -/
inductive Double where
  | finite (negative : Bool) (significand : Nat) (exponent : Int)
  | infinite (negative : Bool)
  | nan
  deriving Repr, DecidableEq, Inhabited

namespace Double

/-- Positive or negative zero. -/
def zero (negative : Bool) : Double := .finite negative 0 (-1074)

/-- The weight of the first of 53 bits, the 52nd power of two. -/
def leadingBit : Nat := 4503599627370496

/-- Scales a quotient by a power of two, keeping numerator and denominator natural. -/
def scaled (numerator denominator : Nat) (power : Int) : Nat × Nat :=
  if 0 ≤ power then (numerator, denominator * Nat.pow 2 power.toNat)
  else (numerator * Nat.pow 2 (-power).toNat, denominator)

/-- The exponent `e` for which the quotient lies in `[2 ^ 52, 2 ^ 53) · 2 ^ e`, but at least
-1074. -/
def binaryExponent (numerator denominator : Nat) : Int :=
  let guess : Int := (numerator.log2 : Int) - denominator.log2 - 52
  let (up, down) := scaled numerator denominator guess
  let exact := if up < down * leadingBit then guess - 1 else guess
  max exact (-1074)

/-- A quotient rounded to the nearest natural, a half to the even one. -/
def roundHalfEven (numerator denominator : Nat) : Nat :=
  let whole := numerator / denominator
  let twice := 2 * (numerator % denominator)
  if denominator < twice || (twice == denominator && whole % 2 == 1) then whole + 1 else whole

/-- The double nearest to a quotient of naturals. -/
def ofRatio (negative : Bool) (numerator denominator : Nat) : Double :=
  if numerator = 0 then zero negative
  else
    let exponent := binaryExponent numerator denominator
    let (up, down) := scaled numerator denominator exponent
    let rounded := roundHalfEven up down
    let (significand, exponent) :=
      if rounded = 2 * leadingBit then (leadingBit, exponent + 1) else (rounded, exponent)
    if 971 < exponent then .infinite negative else .finite negative significand exponent

/-- The double nearest to a natural number. -/
def ofNat (value : Nat) : Double := ofRatio false value 1

/-- The double nearest to `digits · 10 ^ power`. -/
def ofDecimal (negative : Bool) (digits : Nat) (power : Int) : Double :=
  if 0 ≤ power then ofRatio negative (digits * Nat.pow 10 power.toNat) 1
  else ofRatio negative digits (Nat.pow 10 (-power).toNat)

/-- The double nearest to `digits · 10 ^ power`, for any power: one far outside the range of
doubles decides the result by itself. -/
def ofScientific (negative : Bool) (digits : Nat) (power : Int) : Double :=
  if digits = 0 then zero negative
  else
    let leading := (Nat.toDigits 10 digits).length + power
    if 310 < leading then .infinite negative
    else if leading < -330 then zero negative
    else ofDecimal negative digits power

/-- The value of a significand and an exponent as a quotient of naturals. -/
def ratio (significand : Nat) (exponent : Int) : Nat × Nat :=
  if 0 ≤ exponent then (significand * Nat.pow 2 exponent.toNat, 1)
  else (significand, Nat.pow 2 (-exponent).toNat)

/-- The exact product of two finite numbers, rounded; anything else is not a number. -/
def mul : Double → Double → Double
  | .finite left m e, .finite right n f =>
      let (up, down) := ratio (m * n) (e + f)
      ofRatio (left != right) up down
  | _, _ => .nan

/-- The exact quotient of two finite numbers, rounded; anything else, a zero divisor included, is
not a number. -/
def div : Double → Double → Double
  | .finite left m e, .finite right n f =>
      if n = 0 then .nan
      else
        let (up, down) := ratio m (e - f)
        ofRatio (left != right) up (down * n)
  | _, _ => .nan

/-- The number of opposite sign. -/
def neg : Double → Double
  | .finite negative significand exponent => .finite (!negative) significand exponent
  | .infinite negative => .infinite (!negative)
  | .nan => .nan

/-- Whether the number is zero of either sign. -/
def isZero : Double → Bool
  | .finite _ significand _ => significand == 0
  | _ => false

/-- Whether the number is an infinity. -/
def isInfinite : Double → Bool
  | .infinite _ => true
  | _ => false

/-- The nearest integer, a half away from zero, kept within the given bounds; what is not a number
counts as zero. -/
def toIntClamped (least greatest : Int) : Double → Int
  | .nan => 0
  | .infinite negative => if negative then least else greatest
  | .finite negative significand exponent =>
      let (up, down) := ratio significand exponent
      let magnitude : Int := ((2 * up + down) / (2 * down) : Nat)
      max least (min greatest (if negative then -magnitude else magnitude))

end Double

end TraceStore
