/-!
# Binary floating point

The finite numbers of the 64-bit binary format, without their sign, and the arithmetic that rounds to the nearest of
them, a tie going to the even significand. All of it is done on natural numbers. Powers are `Nat.pow` by name: what `^` means
for natural numbers depends on what is imported.
-/

namespace GateRules

/-- The number `significand * 2 ^ exponent`. -/
structure Binary64 where
  significand : Nat
  exponent : Int
deriving DecidableEq

/-- The least exponent of the format. -/
def Binary64.minExponent : Int := -1074

/-- The greatest exponent of the format. -/
def Binary64.maxExponent : Int := 971

/-- The number zero. -/
def Binary64.zero : Binary64 := ⟨0, minExponent⟩

/-- The quotient rounded to the nearest whole number, a tie to the even one. -/
def Binary64.roundDiv (num den : Nat) : Nat :=
  let quotient := num / den
  let twice := 2 * (num % den)
  if twice < den then quotient
  else if den < twice then quotient + 1
  else if quotient % 2 = 0 then quotient else quotient + 1

/-- The numerator and the denominator of `num / den / 2 ^ exponent`. -/
def Binary64.scaled (num den : Nat) (exponent : Int) : Nat × Nat :=
  (num * Nat.pow 2 (-exponent).toNat, den * Nat.pow 2 exponent.toNat)

/-- The number of the format nearest to `num / den`; none if that is too large for the format. -/
def Binary64.round (num den : Nat) : Option Binary64 :=
  if num = 0 then some zero
  else
    let guess : Int := (num.log2 : Int) - den.log2 - 52
    let (n, d) := scaled num den guess
    let exponent := max minExponent (if n / d < Nat.pow 2 52 then guess - 1 else guess)
    let (n, d) := scaled num den exponent
    let significand := roundDiv n d
    let (significand, exponent) :=
      if significand = Nat.pow 2 53 then (Nat.pow 2 52, exponent + 1) else (significand, exponent)
    if maxExponent < exponent then none else some ⟨significand, exponent⟩

/-- The numerator of a number of the format. -/
def Binary64.num (x : Binary64) : Nat := x.significand * Nat.pow 2 x.exponent.toNat

/-- The denominator of a number of the format. -/
def Binary64.den (x : Binary64) : Nat := Nat.pow 2 (-x.exponent).toNat

/-- The product of two numbers, rounded. -/
def Binary64.mul (x y : Binary64) : Option Binary64 := round (x.num * y.num) (x.den * y.den)

/-- The quotient of two numbers, rounded. -/
def Binary64.div (x y : Binary64) : Option Binary64 := round (x.num * y.den) (x.den * y.num)

/-- The natural number `n`, rounded. -/
def Binary64.ofNat (n : Nat) : Option Binary64 := round n 1

/-- Multiplies by a power of ten, in steps of at most `10 ^ 308` that are each rounded; none if the result is too
large. -/
def Binary64.scaleTen (x : Binary64) (power : Int) : Option Binary64 :=
  if power.natAbs ≤ 308 then
    (ofNat (Nat.pow 10 power.natAbs)).bind fun ten => if 0 ≤ power then x.mul ten else x.div ten
  else if x.significand = 0 then some x
  else if 0 ≤ power then none
  else ((ofNat (Nat.pow 10 308)).bind x.div).bind fun x => x.scaleTen (power + 308)
termination_by power.natAbs
decreasing_by omega

end GateRules
