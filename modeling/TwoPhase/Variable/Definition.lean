import TwoPhase.Failure
import TwoPhase.Variable.Basic

/-
Reading variables back from definitions. A definition is `[path]`, `[path, positional]` or
`[path, positional, named]`. An argument object with a single tag is a nested variable or an
expectation; every other argument is a literal. Named arguments are examined first, the path last.
-/
namespace TwoPhase

def malformed {α : Type} (what : String) (found : Json) : Except Failure α :=
  fail (.invalidHeader (what ++ ", got " ++ found.text))

def readPath : Json → Except Failure String
  | .str path => .ok path
  | other => malformed "computation path must be a string" other

mutual
def Variable.ofDefinition : Json → Except Failure Variable
  | .arr [path] => do
    return .ofParts (← readPath path) [] []
  | .arr [path, positional] => do
    let positional ← readPositional positional
    return .ofParts (← readPath path) positional []
  | .arr [path, positional, named] => do
    let named ← readNamed named
    let positional ← readPositional positional
    return .ofParts (← readPath path) positional named
  | .arr parts =>
    fail (.invalidHeader ("definition must have 1 to 3 elements, got " ++ toString parts.length))
  | other => malformed "definition must be an array" other
def Arg.ofJson : Json → Except Failure Arg
  | .obj [(tag, inner)] =>
    if tag = variableTag then (Variable.ofDefinition inner).map .nested
    else if tag = expectTag then
      match inner with
      | .str target => .ok (.expect target)
      | other => malformed "expectation target must be a string" other
    else .ok (.value (.obj [(tag, inner)]))
  | literal => .ok (.value literal)
def readPositional : Json → Except Failure (List Arg)
  | .arr items => readItems items
  | other => malformed "positional arguments must be an array" other
def readNamed : Json → Except Failure (List (String × Arg))
  | .obj fields => readFields fields
  | other => malformed "named arguments must be an object" other
def readItems : List Json → Except Failure (List Arg)
  | [] => .ok []
  | item :: rest => do
    let arg ← Arg.ofJson item
    return arg :: (← readItems rest)
def readFields : List (String × Json) → Except Failure (List (String × Arg))
  | [] => .ok []
  | (name, field) :: rest => do
    let arg ← Arg.ofJson field
    return (name, arg) :: (← readFields rest)
end

end TwoPhase
