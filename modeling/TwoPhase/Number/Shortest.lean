import TwoPhase.Number.Double

/-
The shortest decimal that reads back as a given number, and its text. On the grid of each
digit count only the two neighbours of the number can be nearest, so only those are tried.
Seventeen digits always suffice; the exact expansion behind them keeps the search total
without that fact.
-/
namespace TwoPhase

structure Decimal where
  digits : Nat
  exponent : Int
deriving DecidableEq

structure FloatFormat where
  lowest : Int
  highest : Int

namespace Double

def readsBack (x : Double) (digits : Nat) (exponent : Int) : Bool :=
  ofDecimal? x.negative digits exponent = some x

def quotient (x : Double) (exponent : Int) : Nat × Nat :=
  if 0 ≤ exponent then (x.units, one * Nat.pow 10 exponent.toNat)
  else (x.units * Nat.pow 10 (-exponent).toNat, one)

/-- The neighbour on the grid of `10 ^ exponent` that reads back: the nearer one if both do,
and the even one if both are equally near. -/
def onGrid? (x : Double) (exponent : Int) : Option Decimal :=
  let (num, den) := x.quotient exponent
  let below := num / den
  let nearest := roundHalfEven num den
  let other := if nearest = below then below + 1 else below
  if x.readsBack nearest exponent then some ⟨nearest, exponent⟩
  else if x.readsBack other exponent then some ⟨other, exponent⟩
  else none

/-- The exponent of the leading decimal digit. Four hundred places bring every nonzero
number above one, where its whole digits can be counted. -/
def leadingExponent (x : Double) : Int :=
  ((Nat.toDigits 10 (x.units * Nat.pow 10 400 / one)).length : Int) - 401

def exact (x : Double) : Decimal := ⟨x.units * Nat.pow 5 1074, -1074⟩

def shortest (x : Double) : Decimal :=
  let top := x.leadingExponent
  ((List.range 17).findSome? fun (count : Nat) => x.onGrid? (top - count)).getD x.exact

end Double

namespace Decimal

def significant (d : Decimal) : List Char × Int :=
  let all := Nat.toDigits 10 d.digits
  ((all.reverse.dropWhile (· = '0')).reverse, d.exponent + all.length - 1)

def positional (digits : List Char) (exponent : Int) : List Char :=
  if exponent < 0 then
    '0' :: '.' :: (List.replicate ((-exponent).toNat - 1) '0' ++ digits)
  else
    let places := exponent.toNat + 1
    let whole := digits.take places ++ List.replicate (places - digits.length) '0'
    let fraction := digits.drop places
    whole ++ '.' :: (if fraction.isEmpty then ['0'] else fraction)

def scientific (digits : List Char) (exponent : Int) : List Char :=
  let mantissa := match digits with
    | first :: second :: rest => first :: '.' :: second :: rest
    | short => short
  let sign := if exponent < 0 then '-' else '+'
  mantissa ++ 'e' :: sign :: Nat.toDigits 10 exponent.natAbs

end Decimal

def Double.chars (format : FloatFormat) (x : Double) : List Char :=
  let sign := if x.negative then ['-'] else []
  if x.isZero then sign ++ ['0', '.', '0']
  else
    let (digits, exponent) := x.shortest.significant
    if format.lowest ≤ exponent ∧ exponent ≤ format.highest then
      sign ++ Decimal.positional digits exponent
    else sign ++ Decimal.scientific digits exponent

end TwoPhase
