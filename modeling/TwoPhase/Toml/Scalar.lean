import TwoPhase.Number.Numeral
import TwoPhase.Toml.Basic

/-
Bare TOML scalars: truth values, integers in four bases, floats, and dates and times. An
underscore may stand between two digits. Integers must fit 128 bits, signed or not, and a
float must be in the range of binary64.
-/
namespace TwoPhase.Toml

def withoutUnderscores? : List Char → Option (List Char)
  | [] => none
  | ['_'] => none
  | [c] => some [c]
  | c :: '_' :: rest => if c = '_' then none else (withoutUnderscores? rest).map (c :: ·)
  | c :: rest => if c = '_' then none else (withoutUnderscores? rest).map (c :: ·)

def decimal? (text : List Char) : Option (List Char) :=
  (withoutUnderscores? text).filter (·.all Char.isDigit)

def whole? (text : List Char) : Option (List Char) :=
  (decimal? text).filter fun digits => digits.length = 1 || digits.head? ≠ some '0'

def natural? (text : List Char) : Option Nat :=
  match text with
  | '0' :: 'x' :: rest => (withoutUnderscores? rest).bind (readBase? 16)
  | '0' :: 'o' :: rest => (withoutUnderscores? rest).bind (readBase? 8)
  | '0' :: 'b' :: rest => (withoutUnderscores? rest).bind (readBase? 2)
  | text => (whole? text).map digitsValue

/-- Only decimal integers take a sign. -/
def int? (text : List Char) : Option Int :=
  let value? := match text with
    | '-' :: rest => (whole? rest).map fun digits => -(digitsValue digits : Int)
    | '+' :: rest => (whole? rest).map fun digits => (digitsValue digits : Int)
    | text => (natural? text).map Int.ofNat
  value?.filter fun value => -(Nat.pow 2 127 : Int) ≤ value ∧ value < Nat.pow 2 128

def exponent? : List Char → Option Int
  | [] => some 0
  | mark :: rest =>
    if mark = 'e' ∨ mark = 'E' then
      let (negative, rest) := takeSign rest
      (decimal? rest).map fun digits =>
        if negative then -(digitsValue digits : Int) else digitsValue digits
    else none

def isNumberChar (c : Char) : Bool := c.isDigit || c = '_'

def numeral? (text : List Char) : Option Numeral := do
  let (negative, text) := takeSign text
  let whole ← whole? (text.takeWhile isNumberChar)
  match text.dropWhile isNumberChar with
  | '.' :: rest =>
    let fraction ← decimal? (rest.takeWhile isNumberChar)
    let exponent ← exponent? (rest.dropWhile isNumberChar)
    some ⟨negative, digitsValue (whole ++ fraction), exponent - fraction.length⟩
  | [] => none
  | rest => (exponent? rest).map fun exponent => ⟨negative, digitsValue whole, exponent⟩

def float? (text : List Char) : Option Toml :=
  let (_, name) := takeSign text
  if name = "inf".toList ∨ name = "nan".toList then some (.float none)
  else do
    let n ← numeral? text
    let value ← Double.ofDecimal? n.negative n.digits n.exponent
    some (.float (some value))

def isLeapYear (year : Nat) : Bool := year % 4 = 0 && (year % 100 ≠ 0 || year % 400 = 0)

def daysIn (year month : Nat) : Nat :=
  if month = 2 then if isLeapYear year then 29 else 28
  else if month = 4 ∨ month = 6 ∨ month = 9 ∨ month = 11 then 30
  else 31

def pair? (a b : Char) : Option Nat :=
  if a.isDigit && b.isDigit then some (digitsValue [a, b]) else none

def afterDate? : List Char → Option (List Char)
  | y :: y' :: y'' :: y''' :: '-' :: m :: m' :: '-' :: d :: d' :: rest => do
    let year := 100 * (← pair? y y') + (← pair? y'' y''')
    let month ← pair? m m'
    let day ← pair? d d'
    if 1 ≤ month ∧ month ≤ 12 ∧ 1 ≤ day ∧ day ≤ daysIn year month then some rest else none
  | _ => none

def afterMinutes? : List Char → Option (List Char)
  | h :: h' :: ':' :: m :: m' :: rest => do
    let hour ← pair? h h'
    let minute ← pair? m m'
    if hour ≤ 23 ∧ minute ≤ 59 then some rest else none
  | _ => none

/-- What follows a time of day. Seconds may be left out, and second 60 is a leap second. -/
def afterTime? (text : List Char) : Option (List Char) := do
  match ← afterMinutes? text with
  | ':' :: s :: s' :: rest =>
    if 60 < (← pair? s s') then none
    match rest with
    | '.' :: fraction =>
      if (fraction.takeWhile Char.isDigit).isEmpty then none
      else some (fraction.dropWhile Char.isDigit)
    | rest => some rest
  | rest => some rest

def isOffset : List Char → Bool
  | [] => true
  | [z] => z = 'Z' || z = 'z'
  | sign :: rest => (sign = '+' || sign = '-') && afterMinutes? rest = some []

def isMoment (text : List Char) : Bool :=
  match afterDate? text with
  | some [] => true
  | some (mark :: rest) =>
    (mark = 'T' || mark = 't' || mark = ' ') && (afterTime? rest).any isOffset
  | none => afterTime? text = some []

def scalar? (text : List Char) : Option Toml :=
  if text = "true".toList then some (.bool true)
  else if text = "false".toList then some (.bool false)
  else if isMoment text then some (.moment (String.ofList text))
  else ((int? text).map .int).or (float? text)

end TwoPhase.Toml
