import TwoPhase.Split

/-
Paths with slashes between their segments.
-/
namespace TwoPhase

def segmentsOf (path : String) : List String :=
  (splitWhere (· = '/') path.toList).map String.ofList

def joinPath (base below : String) : String :=
  if below.toList.head? = some '/' ∨ base = "" then below
  else if base.toList.getLast? = some '/' then base ++ below
  else base ++ "/" ++ below

end TwoPhase
