import TwoPhase.Json.Reader
import TwoPhase.Variable.Definition
import TwoPhase.Variable.Set

/-
The header that travels with a cached page and tells which variables it needs: a JSON object
from identifiers to definitions. A key that is not the hash of its definition is a name
chosen by hand and kept as such.
-/
namespace TwoPhase.Header

def name : String := "X-Ssi-Vars-Needed"

def encode (vars : VariableSet) : String :=
  (Json.obj (Entries.ofList (vars.toList.map fun v => (v.identifier, v.definition)))).text

def decodeField (identifier : String) (definition : Json) : Except Failure Variable :=
  (inFrame ("Invalid definition for SSI variable " ++ identifier)
    (Variable.ofDefinition definition)).map (·.rename identifier)

def decodeFields (fields : List (String × Json)) : Except Failure VariableSet :=
  (fields.mapM fun (identifier, definition) => decodeField identifier definition).map
    VariableSet.ofList

def decode (text : String) : Except Failure VariableSet :=
  match Json.parse? text with
  | none => fail (.invalidHeader Cause.json.message)
  | some (.obj fields) => decodeFields fields
  | some other => malformed "expected a JSON object" other

end TwoPhase.Header
