import TwoPhase.Json.Basic
import TwoPhase.Number.Numeral

/-
Number literals. An integer within 64 bits is exact. Any other literal is read in two binary64
steps: its leading digits as an integer significand of at most 64 bits, then one scaling by a
power of ten. The result is therefore not always the nearest number; a literal whose
scaling leaves the range is refused.
-/
namespace TwoPhase.Json

structure NumberLiteral where
  negative : Bool
  whole : List Char
  fraction : Option (List Char)
  exponent : Option Int

namespace NumberLiteral

def read? (text : List Char) : Option NumberLiteral := do
  let (negative, text) := match text with
    | '-' :: rest => (true, rest)
    | text => (false, text)
  let (whole, text) := text.span Char.isDigit
  if whole.isEmpty || (whole.head? = some '0' && whole.length ≠ 1) then none
  let (fraction, text) ← match text with
    | '.' :: rest =>
      let (digits, rest) := rest.span Char.isDigit
      if digits.isEmpty then none else some (some digits, rest)
    | text => some (none, text)
  match text with
  | [] => some ⟨negative, whole, fraction, none⟩
  | mark :: rest =>
    if mark = 'e' ∨ mark = 'E' then
      (readInt? rest).map fun exponent => ⟨negative, whole, fraction, some exponent⟩
    else none

def gather (significand : Nat) : List Char → Nat × List Char
  | [] => (significand, [])
  | digit :: rest =>
    let next := significand * 10 + (digit.toNat - '0'.toNat)
    if next < Nat.pow 2 64 then gather next rest else (significand, digit :: rest)

/-- The significand with the power of ten it stands for. Digits of the whole part that do not
fit still count as places; digits of the fraction that do not fit are dropped. -/
def scientific (literal : NumberLiteral) : Nat × Int :=
  let fraction := literal.fraction.getD []
  let (significand, excess) := gather 0 literal.whole
  let (significand, dropped) := gather significand fraction
  let places : Int := excess.length - (fraction.length - dropped.length : Nat)
  (significand, places + literal.exponent.getD 0)

/-- One multiplication or division by a power of ten up to `10 ^ 308`; smaller numbers are first
divided by `10 ^ 308`, until they are zero or within reach. -/
def scaleBy? (x : Double) (exponent : Int) : Option Double :=
  if exponent < -308 then
    if x.isZero then some x
    else do
      let power ← Double.ofDecimal? false 1 308
      scaleBy? (← x.div? power) (exponent + 308)
  else if exponent < 0 then do
    x.div? (← Double.ofDecimal? false 1 (-exponent))
  else if exponent ≤ 308 then do
    x.mul? (← Double.ofDecimal? false 1 exponent)
  else if x.isZero then some x
  else none
termination_by exponent.natAbs
decreasing_by omega

def value? (literal : NumberLiteral) : Option Json := do
  let (significand, exponent) := literal.scientific
  let isWhole := literal.fraction.isNone && literal.exponent.isNone && exponent = 0
  let sign := fun (x : Double) => if literal.negative then x.negate else x
  if isWhole && !literal.negative then ofInt? significand
  else if isWhole && 0 < significand && significand ≤ Nat.pow 2 63 then ofInt? (-significand)
  else
    let start ← Double.ofNat? significand
    if isWhole then some (float (sign start))
    else (scaleBy? start exponent).map fun x => float (sign x)

end NumberLiteral
end TwoPhase.Json
