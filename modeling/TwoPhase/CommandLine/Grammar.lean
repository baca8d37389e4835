import TwoPhase.NameMap

/-
The words of a command line. Options may stand anywhere before a word of two dashes; an option
with a value takes it after an equals sign, from the rest of a group of short options, or as
the next word. A value is judged only when the next option or value arrives, so a mistake in
the word after it can come first.
-/
namespace TwoPhase.CommandLine

/-- Why no command runs; asking for help or the version is not an error. -/
inductive Refusal where
  | help
  | version
  | noArguments
  | missingCommand
  | unknownCommand
  | missingArgument
  | unknownArgument
  | badValue
  | excessValue
  | conflict
deriving DecidableEq

def Refusal.exitCode : Refusal → Nat
  | help | version => 0
  | _ => 2

structure Parameter where
  name : String
  isPath : Bool := false

inductive Effect where
  | flag
  | takesValue (isPath : Bool)
  | help
  | version

structure OptionForm where
  long : String
  short : Option Char := none
  effect : Effect

structure Grammar where
  options : List OptionForm
  parameters : List Parameter := []
  commands : List String := []

structure Reading where
  given : NameMap String := {}
  /-- A value not judged yet, or an option that waits for its value. -/
  pending : Option (Parameter × Option String) := none
  unfilled : List Parameter
  /-- After two dashes every word is a value. -/
  literal : Bool := false

namespace Reading

def start (grammar : Grammar) : Reading := { unfilled := grammar.parameters }

def give (reading : Reading) (parameter : Parameter) (value : String) : Except Refusal Reading :=
  if reading.given.contains parameter.name then .error .conflict
  else if parameter.isPath ∧ value = "" then .error .badValue
  else .ok { reading with given := reading.given.insert parameter.name value }

def settle (reading : Reading) : Except Refusal Reading :=
  match reading.pending with
  | none => .ok reading
  | some (_, none) => .error .badValue
  | some (parameter, some value) => { reading with pending := none }.give parameter value

def isWaiting (reading : Reading) : Bool :=
  match reading.pending with
  | some (_, none) => true
  | _ => false

def readOption (reading : Reading) (form : OptionForm) (attached : Option String) :
    Except Refusal Reading := do
  match form.effect, attached with
  | .takesValue isPath, some value => (← reading.settle).give ⟨form.long, isPath⟩ value
  | .takesValue isPath, none =>
    return { ← reading.settle with pending := some (⟨form.long, isPath⟩, none) }
  | .flag, none => (← reading.settle).give ⟨form.long, false⟩ ""
  | .help, none =>
    discard reading.settle
    .error .help
  | .version, none =>
    discard reading.settle
    .error .version
  | _, some _ => .error .excessValue

def readLong (grammar : Grammar) (reading : Reading) (text : List Char) :
    Except Refusal Reading :=
  let name := String.ofList (text.takeWhile (· ≠ '='))
  let attached := match text.dropWhile (· ≠ '=') with
    | [] => none
    | _ :: value => some (String.ofList value)
  match grammar.options.find? (·.long = name) with
  | some form => reading.readOption form attached
  | none => .error .unknownArgument

def readShorts (grammar : Grammar) : List Char → Reading → Except Refusal Reading
  | [], reading => .ok reading
  | c :: rest, reading =>
    match grammar.options.find? (·.short = some c) with
    | none => .error .unknownArgument
    | some form =>
      match form.effect, rest with
      | .takesValue _, [] => reading.readOption form none
      | .takesValue _, '=' :: value => reading.readOption form (some (String.ofList value))
      | .takesValue _, value => reading.readOption form (some (String.ofList value))
      | _, rest => do readShorts grammar rest (← reading.readOption form none)

def readValue (grammar : Grammar) (reading : Reading) (word : String) :
    Except Refusal Reading := do
  match reading.unfilled with
  | parameter :: unfilled =>
    return { ← reading.settle with pending := some (parameter, some word), unfilled }
  | [] =>
    if grammar.commands.isEmpty || (reading.literal && grammar.commands.contains word) then
      .error .unknownArgument
    else .error .unknownCommand

def readWord (grammar : Grammar) (reading : Reading) (word : String) : Except Refusal Reading :=
  if reading.literal then reading.readValue grammar word
  else
    match word.toList with
    | ['-', '-'] => .ok { reading with literal := true }
    | '-' :: '-' :: text => reading.readLong grammar text
    | '-' :: c :: text => readShorts grammar (c :: text) reading
    | _ =>
      match reading.pending with
      | some (parameter, none) => .ok { reading with pending := some (parameter, some word) }
      | _ => reading.readValue grammar word

def readWords (grammar : Grammar) :
    List String → Reading → Except Refusal (Reading × Option (String × List String))
  | [], reading => .ok (reading, none)
  | word :: rest, reading =>
    if !reading.literal && !reading.isWaiting && grammar.commands.contains word then
      .ok (reading, some (word, rest))
    else do readWords grammar rest (← reading.readWord grammar word)

def flag (reading : Reading) (name : String) : Bool := reading.given.contains name

def require (reading : Reading) (name : String) : Except Refusal String :=
  match reading.given.get? name with
  | some value => .ok value
  | none => .error .missingArgument

end Reading
end TwoPhase.CommandLine
