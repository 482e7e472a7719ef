import GateRules.Decimal.Shortest
import GateRules.Json.Fault

/-!
# Numbers in JSON

No number is ever wanted, but a message about a number in the wrong place says which number it is. An integer of 64 bits
is kept; any other number is rounded to binary, from as many leading digits as fit into 64 bits, and written out again
as the shortest decimal. A number too large for that is not accepted as JSON.
-/

namespace GateRules

/-- A number as it is written: its sign, its digits before and after the point, and the sign and digits of its
exponent. -/
structure Json.Number where
  negative : Bool
  whole : List Char
  fraction : Option (List Char)
  exponent : Option (Bool × List Char)

/-- Whether the text goes on with a digit. -/
def Json.atDigit : List Char → Bool
  | c :: _ => c.isDigit
  | [] => false

/-- At least one digit. -/
def Json.readDigits (cs : List Char) : Except Fault (List Char × List Char) :=
  match cs with
  | [] => .error .ended
  | c :: _ => if c.isDigit then .ok (cs.takeWhile Char.isDigit, cs.dropWhile Char.isDigit) else .error .garbled

/-- The exponent of a number, if it has one; the result tells whether it is negative, and its digits. -/
def Json.readExponent : List Char → Except Fault (Option (Bool × List Char))
  | e :: rest =>
    if e = 'e' ∨ e = 'E' then
      let (negative, rest) := match rest with
        | '+' :: rest => (false, rest)
        | '-' :: rest => (true, rest)
        | rest => (false, rest)
      (readDigits rest).map fun (digits, _) => some (negative, digits)
    else .ok none
  | [] => .ok none

/-- The number at the front of a text, after its sign. Only one zero may lead. -/
def Json.readNumber (negative : Bool) (cs : List Char) : Except Fault Number := do
  let (whole, rest) ← match cs with
    | '0' :: rest => if atDigit rest then .error .garbled else .ok (['0'], rest)
    | _ => readDigits cs
  match rest with
  | '.' :: rest =>
    let (fraction, rest) ← readDigits rest
    return ⟨negative, whole, some fraction, ← readExponent rest⟩
  | _ => return ⟨negative, whole, none, ← readExponent rest⟩

/-- The value of decimal digits. -/
def Json.digitsValue (digits : List Char) : Nat := digits.foldl (fun n c => n * 10 + (c.toNat - '0'.toNat)) 0

/-- Digits are added to a number for as long as it fits into 64 bits; the result tells how many were. -/
def Json.absorb (n : Nat) : List Char → Nat × Nat
  | [] => (n, 0)
  | c :: cs =>
    let next := n * 10 + (c.toNat - '0'.toNat)
    if next < Nat.pow 2 64 then
      let (n, count) := absorb next cs
      (n, count + 1)
    else (n, 0)

/-- The text of a number that is not kept as an integer, if it is not too large. -/
def Json.decimalText (negative : Bool) (significand : Nat) (power : Int) : Except Fault Found :=
  match (Binary64.ofNat significand).bind fun x => x.scaleTen power with
  | none => .error .garbled
  | some x => .ok (.decimal ((if negative then "-" else "") ++ (Decimal.shortest x).text))

/-- The greatest exponent that is counted. -/
def Json.maxExponent : Nat := Nat.pow 2 31 - 1

/-- What a number is, in a message. -/
def Json.Number.found (x : Number) : Except Fault Found :=
  let (whole, wholeCount) := absorb 0 x.whole
  let dropped : Int := (x.whole.length - wholeCount : Nat)
  let (significand, fractionCount) := absorb whole (x.fraction.getD [])
  let power := dropped - fractionCount
  match x.fraction, x.exponent with
  | none, none =>
    if dropped = 0 then
      if !x.negative then .ok (.integer whole)
      else if 0 < whole ∧ whole ≤ Nat.pow 2 63 then .ok (.integer (-whole))
      else decimalText true whole 0
    else decimalText x.negative whole dropped
  | _, none => decimalText x.negative significand power
  | _, some (isDown, digits) =>
    let exponent := digitsValue digits
    if maxExponent < exponent then
      if significand ≠ 0 ∧ !isDown then .error .garbled else decimalText x.negative 0 0
    else decimalText x.negative significand (if isDown then power - exponent else power + exponent)

end GateRules
