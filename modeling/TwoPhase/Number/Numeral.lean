import TwoPhase.Number.Double

/-
Reading numbers from text: integers with a sign, and decimal numerals with an optional
point and exponent, which round to the nearest binary64 number.
-/
namespace TwoPhase

def digitsValue (digits : List Char) : Nat :=
  digits.foldl (fun value digit => value * 10 + (digit.toNat - '0'.toNat)) 0

def hexValue? (c : Char) : Option Nat :=
  if c.isDigit then some (c.toNat - '0'.toNat)
  else if 'a' ≤ c ∧ c ≤ 'f' then some (c.toNat - 'a'.toNat + 10)
  else if 'A' ≤ c ∧ c ≤ 'F' then some (c.toNat - 'A'.toNat + 10)
  else none

def readBase? (base : Nat) (digits : List Char) : Option Nat :=
  digits.foldlM (fun value c =>
    ((hexValue? c).filter (· < base)).map (value * base + ·)) 0

def takeSign : List Char → Bool × List Char
  | '-' :: rest => (true, rest)
  | '+' :: rest => (false, rest)
  | text => (false, text)

def readInt? (text : List Char) : Option Int :=
  let (negative, digits) := takeSign text
  if digits.isEmpty || !digits.all Char.isDigit then none
  else if negative then some (-(digitsValue digits : Int))
  else some (digitsValue digits)

structure Numeral where
  negative : Bool
  digits : Nat
  exponent : Int
deriving DecidableEq

namespace Numeral

def exponentPart? : List Char → Option Int
  | [] => some 0
  | mark :: rest => if mark = 'e' ∨ mark = 'E' then readInt? rest else none

/-- Digits on at least one side of the point are needed. -/
def unsigned? (text : List Char) : Option (Nat × Int) :=
  let (whole, rest) := text.span Char.isDigit
  let (fraction, rest) := match rest with
    | '.' :: rest => rest.span Char.isDigit
    | rest => ([], rest)
  if whole.isEmpty && fraction.isEmpty then none
  else (exponentPart? rest).map fun exponent =>
    (digitsValue (whole ++ fraction), exponent - fraction.length)

def read? (text : List Char) : Option Numeral :=
  let (negative, rest) := takeSign text
  (unsigned? rest).map fun (digits, exponent) => ⟨negative, digits, exponent⟩

end Numeral

def isUnboundedName (text : List Char) : Bool :=
  let name := (takeSign text).2.map Char.toLower
  name = "inf".toList || name = "infinity".toList || name = "nan".toList

/-- Reads a number from the whole text. The inner `none` stands for a value that is not
finite: a numeral past the range, or one of the names for it. -/
def Double.read? (text : List Char) : Option (Option Double) :=
  if isUnboundedName text then some none
  else (Numeral.read? text).map fun n => Double.ofDecimal? n.negative n.digits n.exponent

end TwoPhase
