/-
Finite binary64 numbers in exact integer arithmetic. The magnitude is `mantissa * 2 ^ scale`
units of `2 ^ -1074`, so every finite number is a sign and a natural number of units.
Infinities and NaN have no value here: an operation that leaves the range answers `none`.
-/
namespace TwoPhase

structure Double where
  negative : Bool
  mantissa : Nat
  scale : Nat
  mantissa_lt : mantissa < Nat.pow 2 53
  scale_le : scale ≤ 2045
  normal : scale = 0 ∨ Nat.pow 2 52 ≤ mantissa
deriving DecidableEq

/-- The integer nearest to `num / den`; of two equally near the even one. -/
def roundHalfEven (num den : Nat) : Nat :=
  let below := num / den
  let twice := 2 * (num % den)
  if twice < den ∨ (twice = den ∧ below % 2 = 0) then below else below + 1

namespace Double

def one : Nat := Nat.pow 2 1074

def units (x : Double) : Nat := x.mantissa * Nat.pow 2 x.scale

def ofParts? (negative : Bool) (mantissa scale : Nat) : Option Double :=
  if fits : mantissa < Nat.pow 2 53 ∧ scale ≤ 2045 ∧ (scale = 0 ∨ Nat.pow 2 52 ≤ mantissa) then
    some ⟨negative, mantissa, scale, fits.1, fits.2.1, fits.2.2⟩
  else none

/-- The number nearest to `num / den` units, ties to the even mantissa. A mantissa rounded up
to `2 ^ 53` moves to the next scale; beyond the largest scale there is no finite number. -/
def round? (negative : Bool) (num den : Nat) : Option Double :=
  let scale := (num / den).log2 - 52
  let mantissa := roundHalfEven num (den * Nat.pow 2 scale)
  if mantissa = Nat.pow 2 53 then ofParts? negative (Nat.pow 2 52) (scale + 1)
  else ofParts? negative mantissa scale

def zero (negative : Bool) : Double := ⟨negative, 0, 0, by decide, by decide, Or.inl rfl⟩

instance : Inhabited Double := ⟨zero false⟩

def isZero (x : Double) : Bool := x.mantissa = 0

def negate (x : Double) : Double := { x with negative := !x.negative }

def agrees (x y : Double) : Bool := x = y || (x.isZero && y.isZero)

def ofNat? (n : Nat) : Option Double := round? false (n * one) 1

def ofInt? (i : Int) : Option Double := round? (decide (i < 0)) (i.natAbs * one) 1

/-- The number nearest to `digits * 10 ^ exponent`. Exponents past both ends of the range are
settled without building the power. -/
def ofDecimal? (negative : Bool) (digits : Nat) (exponent : Int) : Option Double :=
  if digits = 0 then some (zero negative)
  else if 309 < exponent then none
  else if exponent + digits.log2 < -400 then some (zero negative)
  else if 0 ≤ exponent then round? negative (digits * Nat.pow 10 exponent.toNat * one) 1
  else round? negative (digits * one) (Nat.pow 10 (-exponent).toNat)

def mul? (x y : Double) : Option Double :=
  round? (x.negative != y.negative) (x.units * y.units) one

def div? (x y : Double) : Option Double :=
  if y.isZero then none
  else round? (x.negative != y.negative) (x.units * one) y.units

def truncate (x : Double) : Int :=
  let whole : Int := (x.units / one : Nat)
  if x.negative then -whole else whole

end Double
end TwoPhase
