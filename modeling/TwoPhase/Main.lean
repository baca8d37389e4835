import TwoPhase.CommandLine.Run

/-
The program around the commands. It fetches the files that a run asks for, which may make the
run ask for more, until there is nothing new; then it prints what the run says.
-/
namespace TwoPhase.CommandLine

def usage : String :=
  "usage: [-v | -q] [-c FILE] render FILE [--fragments DIR] [--verbose-directives] [--path PATH]\n" ++
  "       [-v | -q] [-c FILE] inspect HEADER|@FILE\n" ++
  "       [-v | -q] [-c FILE] hash PATH [POSITIONAL [NAMED]]"

def Refusal.message : Refusal → String
  | help | version | noArguments => usage
  | missingCommand => "error: a command is missing"
  | unknownCommand => "error: there is no such command"
  | missingArgument => "error: an argument is missing"
  | unknownArgument => "error: an argument is not expected"
  | badValue => "error: an option or argument has no usable value"
  | excessValue => "error: an option takes no value"
  | conflict => "error: arguments contradict each other or are repeated"

def fetch (files : FileSystem) (path : String) : IO FileSystem := do
  try
    let bytes ← IO.FS.readBinFile path
    return files.put path (String.fromUTF8? bytes)
  catch _ => return files

partial def gather (invocation : Invocation) (env : Environment) (known : List String)
    (files : FileSystem) : IO FileSystem := do
  let fresh := (invocation.filesAsked files env).filter (!known.contains ·)
  if fresh.isEmpty then return files
  gather invocation env (known ++ fresh) (← fresh.foldlM fetch files)

def execute (invocation : Invocation) : IO UInt32 := do
  let env : Environment :=
    { settingsPath := ← IO.getEnv "SSIFY_CONFIG", home := ← IO.getEnv "HOME" }
  let here := (← IO.getEnv "PWD").getD ""
  let files ← gather invocation env [] { current := (segmentsOf here).filter (· ≠ "") }
  let colors ← (← IO.getStdout).isTty
  match invocation.run files env colors with
  | .ok text =>
    IO.print text
    return 0
  | .error failure =>
    IO.eprint ((Advice.ofFailure failure).report colors)
    return 1

end TwoPhase.CommandLine

open TwoPhase.CommandLine in
def main (words : List String) : IO UInt32 := do
  match Invocation.ofWords words with
  | .ok invocation => execute invocation
  | .error refusal =>
    if refusal.exitCode = 0 then IO.println refusal.message else IO.eprintln refusal.message
    return refusal.exitCode.toUInt32
