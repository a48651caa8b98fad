import TraceStore.Decimal.Double

/-!
# The shortest decimal of a double

A double is written with the fewest digits that read back as the same double; of the decimals with
that many digits the one nearest to its exact value is taken.  All comparisons are exact, on
natural numbers.

`Notation` is the choice of layout on top: when digits are written positionally and how the rest
is written.
-/

namespace TraceStore

namespace Double

/-- A decimal `digits · 10 ^ power`. -/
structure Decimal where
  digits : Nat
  power : Int
  deriving Repr, DecidableEq, Inhabited

/-- Whether a decimal lies among the numbers that round to `significand · 2 ^ exponent`.  The
interval reaches half way to the neighbours; below a power of two the lower neighbour is nearer.
The ends belong to it if the significand is even. -/
def readsBack (significand : Nat) (exponent : Int) (candidate : Decimal) : Bool :=
  let narrow := significand = leadingBit ∧ exponent ≠ -1074
  -- in quarters of the distance to the upper neighbour
  let low := 4 * significand - (if narrow then 1 else 2)
  let high := 4 * significand + 2
  let (unitUp, unitDown) := ratio 1 (exponent - 2)
  let (up, down) :=
    if 0 ≤ candidate.power then (candidate.digits * Nat.pow 10 candidate.power.toNat, 1)
    else (candidate.digits, Nat.pow 10 (-candidate.power).toNat)
  let left := low * unitUp * down
  let middle := up * unitDown
  let right := high * unitUp * down
  if significand % 2 = 0 then left ≤ middle && middle ≤ right
  else left < middle && middle < right

/-- The two decimals with the given power on either side of the value, the nearer one first, and
the even one first if both are as near. -/
def neighbours (significand : Nat) (exponent power : Int) : List Decimal :=
  let (up, down) := ratio significand exponent
  let (up, down) :=
    if 0 ≤ power then (up, down * Nat.pow 10 power.toNat)
    else (up * Nat.pow 10 (-power).toNat, down)
  let below := up / down
  let twice := 2 * (up % down)
  let belowFirst := twice < down || (twice == down && below % 2 == 0)
  if belowFirst then [⟨below, power⟩, ⟨below + 1, power⟩] else [⟨below + 1, power⟩, ⟨below, power⟩]

/-- The power of the leading digit of a positive value. -/
def leadingPower (significand : Nat) (exponent : Int) : Int :=
  let (up, down) := ratio significand exponent
  let guess : Int :=
    (((up.log2 : Int) - down.log2) * 30103).tdiv 100000
  let reaches (power : Int) : Bool :=
    if 0 ≤ power then down * Nat.pow 10 power.toNat ≤ up
    else down ≤ up * Nat.pow 10 (-power).toNat
  (([guess + 2, guess + 1, guess, guess - 1].find? reaches).getD (guess - 2))

/-- The shortest decimal that reads back as a positive value: grids of one, two, up to seventeen
digits are tried in turn. -/
def shortest (significand : Nat) (exponent : Int) : Decimal :=
  let leading := leadingPower significand exponent
  let candidates := (List.range 17).flatMap fun (count : Nat) =>
    neighbours significand exponent (leading - count)
  ((candidates.find? (readsBack significand exponent)).getD ⟨significand, exponent⟩)

/-- How digits are laid out. -/
structure Layout where
  /-- The least power of the leading digit that is written without an exponent, if there is a
  limit. -/
  positionalFrom : Option Int
  /-- The greatest such power, if there is a limit. -/
  positionalTo : Option Int
  /-- Written after an integral number without an exponent. -/
  integralMark : String
  /-- Written between the exponent mark and the digits of an exponent that is not negative. -/
  plusSign : String
  /-- The names of the infinity and of what is not a number. -/
  infinity : String
  notANumber : String

/-- Digits without trailing zeros, with the power of the last one. -/
def Decimal.trimmed (decimal : Decimal) : Decimal :=
  let text := (Nat.toDigits 10 decimal.digits).reverse
  let zeros := if decimal.digits = 0 then 0 else (text.takeWhile (· = '0')).length
  ⟨decimal.digits / Nat.pow 10 zeros, decimal.power + zeros⟩

/-- A positive decimal in the given layout. -/
def Layout.decimal (layout : Layout) (decimal : Decimal) : String :=
  let decimal := decimal.trimmed
  let digits := Nat.toDigits 10 decimal.digits
  let leading : Int := decimal.power + digits.length - 1
  let positional :=
    layout.positionalFrom.all (fun least => decide (least ≤ leading)) &&
      layout.positionalTo.all (fun greatest => decide (leading ≤ greatest))
  if positional then
    if 0 ≤ decimal.power then
      String.ofList (digits ++ List.replicate decimal.power.toNat '0') ++ layout.integralMark
    else if 0 ≤ leading then
      let whole := leading.toNat + 1
      String.ofList (digits.take whole ++ '.' :: digits.drop whole)
    else
      String.ofList ('0' :: '.' :: List.replicate ((-leading).toNat - 1) '0' ++ digits)
  else
    let mantissa := match digits with
      | first :: second :: rest => first :: '.' :: second :: rest
      | short => short
    let sign := if 0 ≤ leading then layout.plusSign else "-"
    String.ofList mantissa ++ "e" ++ sign ++ toString leading.natAbs

/-- A number in the given layout. -/
def Layout.text (layout : Layout) : Double → String
  | .nan => layout.notANumber
  | .infinite negative => (if negative then "-" else "") ++ layout.infinity
  | .finite negative significand exponent =>
      (if negative then "-" else "") ++
        (if significand = 0 then "0" ++ layout.integralMark
         else layout.decimal (shortest significand exponent))

end Double

end TraceStore
