import TwoPhase.Blank
import TwoPhase.Failure
import TwoPhase.Number.Numeral
import TwoPhase.Variable.Basic

/-
Typed arguments. A declaration serves the including page, whose arguments may be variables, and
the fragment, whose arguments are the strings of its address: a variable becomes an
expectation of it, and a literal is brought to the declared type.
-/
namespace TwoPhase

inductive ArgType where
  | int
  | float
  | str
  | bool
deriving DecidableEq

namespace ArgType

def name : ArgType → String
  | int => "int"
  | float => "float"
  | str => "str"
  | bool => "bool"

def saturate (i : Int) : WideInt :=
  if low : i < -(Nat.pow 2 63 : Int) then ⟨-(Nat.pow 2 63 : Int), by decide, by decide⟩
  else if high : Nat.pow 2 63 ≤ i then ⟨Nat.pow 2 63 - 1, by decide, by decide⟩
  else ⟨i, by omega, by simp only [Nat.pow_eq] at *; omega⟩

def readSigned? (text : String) : Option Json :=
  (readInt? (trimBlank text.toList)).bind fun i =>
    if -(Nat.pow 2 63 : Int) ≤ i ∧ i < Nat.pow 2 63 then Json.ofInt? i else none

def readFloat? (text : String) : Option Json :=
  (Double.read? (trimBlank text.toList)).map Json.ofFloat

def coerce? : ArgType → Json → Option Json
  | int, .int i => some (.int i)
  | int, .float x => some (.int (saturate x.truncate))
  | int, .str s => readSigned? s
  | int, .bool b => some (.int (if b then 1 else 0))
  | float, .int i => some (.ofFloat (Double.ofInt? i.value))
  | float, .float x => some (.float x)
  | float, .str s => readFloat? s
  | float, .bool b => some (.ofFloat (Double.ofNat? b.toNat))
  | str, .str s => some (.str s)
  | str, .int i => some (.str (Json.int i).text)
  | str, .float x => some (.str (Json.float x).text)
  | str, .bool b => some (.str (Json.bool b).text)
  | bool, value => some (.bool value.isTruthy)
  | _, _ => none

def coerce (type : ArgType) (value : Json) : Except Failure Json :=
  match type.coerce? value with
  | some coerced => .ok coerced
  | none => fail (.invalidArgument value.text type.name)

end ArgType

/-- The eventual value of an argument, as an argument of the given type. -/
def Arg.expectAs (type : ArgType) : Arg → Except Failure Arg
  | .nested inner => .ok (.expect inner.identifier)
  | .expect target => .ok (.expect target)
  | .value literal => (type.coerce literal).map .value

end TwoPhase
