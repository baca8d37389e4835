import TwoPhase.Computation
import TwoPhase.WaitGraph

/-
The state of a resolution and one attempt at a variable. Expectations are replaced first; the
result is the declared form, whose identifier the value is published under. Nested variables
are replaced next, which gives the call form that is computed.
-/
namespace TwoPhase

abbrev Table := NameMap Json

def Table.statements (table : Table) : String :=
  table.entries.foldl (fun text (name, value) => text ++ Directive.set name value) ""

structure Resolution where
  table : Table := {}
  /-- Identifiers of variables that were renamed, with the names they are published under. -/
  aliases : NameMap String := {}

namespace Resolution

def value? (state : Resolution) (identifier : String) : Option Json :=
  (state.table.get? identifier).or ((state.aliases.get? identifier).bind state.table.get?)

mutual
/-- Replaces the expectations that have values, and lists the targets of the others. A concrete
variable is left as it is, since its identifier may have been chosen by hand. -/
def substitute (state : Resolution) : Variable → Variable × List String
  | ⟨path, positional, named, identifier⟩ =>
    if (Variable.mk path positional named identifier).isConcrete then
      (⟨path, positional, named, identifier⟩, [])
    else
      let (positional, missing) := state.substitutePositional positional
      let (named, more) := state.substituteNamed named
      (.ofParts path positional named, missing ++ more)
def substituteArg (state : Resolution) : Arg → Arg × List String
  | .value json => (.value json, [])
  | .nested inner =>
    let (inner, missing) := state.substitute inner
    (.nested inner, missing)
  | .expect target =>
    match state.value? target with
    | some value => (.value value, [])
    | none => (.expect target, [target])
def substitutePositional (state : Resolution) : List Arg → List Arg × List String
  | [] => ([], [])
  | arg :: rest =>
    let (arg, missing) := state.substituteArg arg
    let (rest, more) := state.substitutePositional rest
    (arg :: rest, missing ++ more)
def substituteNamed (state : Resolution) : List (String × Arg) → List (String × Arg) × List String
  | [] => ([], [])
  | (name, arg) :: rest =>
    let (arg, missing) := state.substituteArg arg
    let (rest, more) := state.substituteNamed rest
    ((name, arg) :: rest, missing ++ more)
end

def callArg (state : Resolution) : Arg → Arg × List String
  | .nested inner =>
    match state.value? inner.identifier with
    | some value => (.value value, [])
    | none => (.nested inner, [inner.identifier])
  | arg => (arg, [])

/-- The call form keeps the identifier of the declared form. -/
def callForm (state : Resolution) (declared : Variable) : Variable × List String :=
  let positional := declared.positional.map state.callArg
  let named := declared.named.map fun (name, arg) => (name, state.callArg arg)
  let call := Variable.ofParts declared.path (positional.map Prod.fst)
    (named.map fun (name, arg, _) => (name, arg))
  (call.rename declared.identifier,
    positional.flatMap Prod.snd ++ named.flatMap fun (_, _, missing) => missing)

end Resolution

structure Attempt where
  declared : Variable
  call : Variable
  missing : List String

def Resolution.attempt (state : Resolution) (v : Variable) : Attempt :=
  let (declared, missing) := state.substitute v
  let (call, more) := state.callForm declared
  ⟨declared, call, missing ++ more⟩

mutual
def Variable.nestedVariables : Variable → List Variable
  | ⟨_, positional, named, _⟩ => nestedInPositional positional ++ nestedInNamed named
def Arg.nestedVariables : Arg → List Variable
  | .nested inner => inner.nestedVariables ++ [inner]
  | _ => []
def nestedInPositional : List Arg → List Variable
  | [] => []
  | arg :: rest => arg.nestedVariables ++ nestedInPositional rest
def nestedInNamed : List (String × Arg) → List Variable
  | [] => []
  | (_, arg) :: rest => arg.nestedVariables ++ nestedInNamed rest
end

end TwoPhase
