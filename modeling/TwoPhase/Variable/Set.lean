import TwoPhase.Variable.Basic

/-
The variables one rendering pass needs, at most one for each identifier, in the order of their
first insertion.
-/
namespace TwoPhase

structure VariableSet where
  order : List String := []
  entries : NameMap Variable := {}

namespace VariableSet

def contains (set : VariableSet) (identifier : String) : Bool := set.entries.contains identifier

def get? (set : VariableSet) (identifier : String) : Option Variable := set.entries.get? identifier

/-- A set that has a variable of this identifier is left as it is. -/
def insert (set : VariableSet) (v : Variable) : VariableSet :=
  if set.contains v.identifier then set
  else ⟨set.order ++ [v.identifier], set.entries.insert v.identifier v⟩

def insertAll (set : VariableSet) (more : List Variable) : VariableSet :=
  more.foldl insert set

def ofList (vars : List Variable) : VariableSet := insertAll {} vars

def erase (set : VariableSet) (identifier : String) : VariableSet :=
  if set.contains identifier then
    ⟨set.order.filter (· ≠ identifier), set.entries.erase identifier⟩
  else set

def clear (_ : VariableSet) : VariableSet := {}

def toList (set : VariableSet) : List Variable := set.order.filterMap set.get?

def size (set : VariableSet) : Nat := set.order.length

def isEmpty (set : VariableSet) : Bool := set.order.isEmpty

def agrees (a b : VariableSet) : Bool :=
  a.order = b.order && namedVariablesAgree a.entries.entries b.entries.entries
where
  namedVariablesAgree : List (String × Variable) → List (String × Variable) → Bool
    | [], [] => true
    | (name, v) :: rest, (other, w) :: more =>
      name = other && v.agrees w && namedVariablesAgree rest more
    | _, _ => false

end VariableSet
end TwoPhase
