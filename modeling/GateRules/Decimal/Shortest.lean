import GateRules.Decimal.Binary64

/-!
# The shortest decimal of a number

Of the decimals that are read back as a given binary number, the one with the fewest digits is written, and of those the
nearest; if two are equally near, the one whose last digit is even. `shortest` looks for it on one decimal grid after the
other, from coarse to fine: if a grid has a point that reads back, one of the two grid points around the number does.
-/

namespace GateRules

/-- The decimal `digits * 10 ^ power`. -/
structure Decimal where
  digits : Nat
  power : Int
deriving DecidableEq

/-- The numerator of a decimal. -/
def Decimal.num (x : Decimal) : Nat := x.digits * Nat.pow 10 x.power.toNat

/-- The denominator of a decimal. -/
def Decimal.den (x : Decimal) : Nat := Nat.pow 10 (-x.power).toNat

/-- Whether a decimal lies between the middles to the neighbours of a binary number, and so is read back as it. The
middles themselves count if the significand is even. -/
def Decimal.readsAs (x : Decimal) (b : Binary64) : Bool :=
  let below := if b.significand = Nat.pow 2 52 ∧ Binary64.minExponent < b.exponent then 1 else 2
  let value := 4 * x.num * b.den
  let unit := b.num / b.significand * x.den
  let low := (4 * b.significand - below) * unit
  let high := (4 * b.significand + 2) * unit
  if b.significand % 2 = 0 then low ≤ value && value ≤ high else low < value && value < high

/-- How many digits `b` has before the point; for a number below one, minus the zeros after it. -/
def Binary64.magnitude (b : Binary64) : Int :=
  if b.den ≤ b.num then ((Nat.toDigits 10 (b.num / b.den)).length : Int)
  else -((List.range 400).findIdx fun zeros => b.den ≤ b.num * Nat.pow 10 (zeros + 1) : Nat)

/-- The point of the grid of `10 ^ power` that is nearest to `b` of those that read back as it, a tie going to the even
point. -/
def Decimal.onGrid? (b : Binary64) (power : Int) : Option Decimal :=
  let num := b.num * Nat.pow 10 (-power).toNat
  let den := b.den * Nat.pow 10 power.toNat
  let low : Decimal := ⟨num / den, power⟩
  let high : Decimal := ⟨num / den + 1, power⟩
  match low.readsAs b, high.readsAs b with
  | true, true => some ⟨Binary64.roundDiv num den, power⟩
  | true, false => some low
  | false, true => some high
  | false, false => none

/-- The same decimal without zeros at the end of its digits. -/
def Decimal.trim (x : Decimal) : Decimal :=
  if x.digits ≠ 0 ∧ x.digits % 10 = 0 then trim ⟨x.digits / 10, x.power + 1⟩ else x
termination_by x.digits
decreasing_by
  rename_i h
  exact Nat.div_lt_self (Nat.pos_of_ne_zero h.1) (by decide)

/-- The shortest decimal of a binary number. -/
def Decimal.shortest (b : Binary64) : Decimal :=
  if b.significand = 0 then ⟨0, 0⟩
  else trim <| ((List.range' 1 17).findSome? fun n => onGrid? b (b.magnitude - (n : Nat))).getD ⟨0, 0⟩

/-- How a decimal is written: with a point from `0.00001` up to sixteen digits before the point, and otherwise with an
exponent, always with its sign, after one digit. -/
def Decimal.text (x : Decimal) : String :=
  let digits := (toString x.digits).toList
  let before := digits.length + x.power
  let zeros (n : Int) : List Char := List.replicate n.toNat '0'
  String.ofList <|
    if x.digits = 0 then ['0', '.', '0']
    else if 0 ≤ x.power ∧ before ≤ 16 then digits ++ zeros x.power ++ ['.', '0']
    else if 0 < before ∧ before ≤ 16 then digits.take before.toNat ++ '.' :: digits.drop before.toNat
    else if -5 < before ∧ before ≤ 0 then '0' :: '.' :: zeros (-before) ++ digits
    else
      let mantissa := if digits.length = 1 then digits else digits.take 1 ++ '.' :: digits.drop 1
      mantissa ++ 'e' :: (if before < 1 then [] else ['+']) ++ (toString (before - 1)).toList

end GateRules
