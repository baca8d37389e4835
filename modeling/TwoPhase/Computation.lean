import TwoPhase.Failure
import TwoPhase.Request

/-
The computations behind variable paths. A computation sees the request and literal arguments
only: a variable that still holds a nested variable or an expectation is refused before its
path is looked up.
-/
namespace TwoPhase

abbrev Computation :=
  RequestContext → List Json → List (String × Json) → Except Failure Json

structure Registry where
  computations : NameMap Computation := {}

namespace Registry

def register (registry : Registry) (path : String) (computation : Computation) : Registry :=
  ⟨registry.computations.insert path computation⟩

def contains (registry : Registry) (path : String) : Bool := registry.computations.contains path

def paths (registry : Registry) : List String := registry.computations.names

def compute (registry : Registry) (ctx : RequestContext) (v : Variable) : Except Failure Json :=
  match v.plainArguments? with
  | none => fail (.unresolvedArgument v.path v.definition.text)
  | some (positional, named) =>
    match registry.computations.get? v.path with
    | none => fail (.unknownComputation v.path)
    | some computation => computation ctx positional named

end Registry
end TwoPhase
