import TwoPhase.NameMap
import TwoPhase.Number.Double

/-
JSON values. Integers that fit 64 bits, signed or unsigned, are exact; every other number is
a finite binary64 number. The fields of an object are meant in ascending order of their
names, as `Entries.insert` keeps them.
-/
namespace TwoPhase

structure WideInt where
  value : Int
  lower : -(Nat.pow 2 63 : Int) ≤ value
  upper : value < Nat.pow 2 64
deriving DecidableEq

namespace WideInt

def ofInt? (value : Int) : Option WideInt :=
  if fits : -(Nat.pow 2 63 : Int) ≤ value ∧ value < Nat.pow 2 64 then some ⟨value, fits.1, fits.2⟩ else none

def isSigned (i : WideInt) : Bool := i.value < Nat.pow 2 63

def text (i : WideInt) : String := toString i.value

instance : OfNat WideInt 0 := ⟨⟨0, by decide, by decide⟩⟩
instance : OfNat WideInt 1 := ⟨⟨1, by decide, by decide⟩⟩

end WideInt

inductive Json where
  | null
  | bool (value : Bool)
  | int (value : WideInt)
  | float (value : Double)
  | str (value : String)
  | arr (items : List Json)
  | obj (fields : List (String × Json))

namespace Json

instance : Inhabited Json := ⟨null⟩

def ofInt? (value : Int) : Option Json := (WideInt.ofInt? value).map int

def ofFloat (value : Option Double) : Json := value.elim null float

mutual
/-- Structural equality, except that the two zeros of a float agree. -/
def agrees : Json → Json → Bool
  | null, null => true
  | bool a, bool b => a = b
  | int a, int b => a = b
  | float a, float b => a.agrees b
  | str a, str b => a = b
  | arr a, arr b => itemsAgree a b
  | obj a, obj b => fieldsAgree a b
  | _, _ => false
def itemsAgree : List Json → List Json → Bool
  | [], [] => true
  | a :: as, b :: bs => agrees a b && itemsAgree as bs
  | _, _ => false
def fieldsAgree : List (String × Json) → List (String × Json) → Bool
  | [], [] => true
  | (name, a) :: as, (other, b) :: bs => name = other && agrees a b && fieldsAgree as bs
  | _, _ => false
end

def isTruthy : Json → Bool
  | null => false
  | bool b => b
  | int i => i.value ≠ 0
  | float x => !x.isZero
  | str s => s ≠ ""
  | arr items => !items.isEmpty
  | obj fields => !fields.isEmpty

end Json
end TwoPhase
