import TwoPhase.CommandLine.Grammar

/-
The commands: render a document, inspect a header, hash a definition. The options for the log
and the settings file may stand before or after the name of the command; given in both
places, the later one counts.
-/
namespace TwoPhase.CommandLine

inductive Command where
  | render (file : String) (fragments : Option String) (verbose : Bool) (path : String)
  | inspect (header : String)
  | hash (path positional named : String)

inductive LogLevel where
  | debug
  | warning
  | error
deriving DecidableEq

structure Invocation where
  command : Command
  settingsPath : Option String
  logLevel : LogLevel

def helpOption : OptionForm := { long := "help", short := some 'h', effect := .help }

def commonOptions : List OptionForm := [
  { long := "verbose", short := some 'v', effect := .flag },
  { long := "quiet", short := some 'q', effect := .flag },
  { long := "config", short := some 'c', effect := .takesValue true },
  helpOption]

def mainGrammar : Grammar where
  options := { long := "version", short := some 'V', effect := .version } :: commonOptions
  commands := ["render", "inspect", "hash", "help"]

def renderGrammar : Grammar where
  options := [
    { long := "fragments", effect := .takesValue true },
    { long := "verbose-directives", effect := .flag },
    { long := "path", effect := .takesValue false }] ++ commonOptions
  parameters := [{ name := "file", isPath := true }]

def inspectGrammar : Grammar where
  options := commonOptions
  parameters := [{ name := "header" }]

def hashGrammar : Grammar where
  options := commonOptions
  parameters := [{ name := "definition" }, { name := "positional" }, { name := "named" }]

def finish (reading : Reading) : Except Refusal Reading := do
  let reading ← reading.settle
  if reading.flag "verbose" && reading.flag "quiet" then .error .conflict else .ok reading

def readAll (grammar : Grammar) (words : List String) : Except Refusal Reading := do
  let (reading, _) ← Reading.readWords grammar words (.start grammar)
  finish reading

def readCommand (name : String) (words : List String) : Except Refusal (Command × Reading) := do
  match name with
  | "render" =>
    let reading ← readAll renderGrammar words
    let file ← reading.require "file"
    return (.render file (reading.given.get? "fragments") (reading.flag "verbose-directives")
      ((reading.given.get? "path").getD "/"), reading)
  | "inspect" =>
    let reading ← readAll inspectGrammar words
    return (.inspect (← reading.require "header"), reading)
  | "hash" =>
    let reading ← readAll hashGrammar words
    let path ← reading.require "definition"
    return (.hash path ((reading.given.get? "positional").getD "[]")
      ((reading.given.get? "named").getD "\x7b\x7d"), reading)
  | _ => .error .unknownCommand

def refusalOfHelp (words : List String) : Refusal :=
  match words with
  | [] => .help
  | [word] => if mainGrammar.commands.contains word then .help else .unknownCommand
  | _ => .unknownCommand

def LogLevel.ofFlags (verbose quiet : Bool) : LogLevel :=
  if verbose then .debug else if quiet then .error else .warning

def Invocation.ofWords (words : List String) : Except Refusal Invocation := do
  let (outer, command) ← Reading.readWords mainGrammar words (.start mainGrammar)
  match command with
  | none =>
    let outer ← outer.settle
    if outer.given.isEmpty then .error .noArguments else .error .missingCommand
  | some ("help", rest) => .error (refusalOfHelp rest)
  | some (name, rest) =>
    let (command, inner) ← readCommand name rest
    let outer ← finish outer
    let either := fun (name : String) => outer.flag name || inner.flag name
    return {
      command
      settingsPath := (inner.given.get? "config").or (outer.given.get? "config")
      logLevel := .ofFlags (either "verbose") (either "quiet") }

end TwoPhase.CommandLine
