import TwoPhase.Advice
import TwoPhase.Blank
import TwoPhase.CommandLine.Invocation
import TwoPhase.Fragment.Directory
import TwoPhase.Settings.Loading
import TwoPhase.Variable.Header

/-
What the commands print. Only rendering looks at the settings.
-/
namespace TwoPhase.CommandLine

def renderDocument (files : FileSystem) (settings : Settings) (file : String)
    (fragments : Option String) (verbose : Bool) (path : String) :
    Except Failure String × Session (List String) :=
  match files.read? file with
  | none => (.error ⟨.io, ["Failed to read " ++ file]⟩, { shared := [] })
  | some document =>
    let evaluator : Evaluator (List String) := {
      sources := fragments.elim .none fun root => FragmentDirectory.sources ⟨files, root⟩
      verbose := verbose || settings.renderVerbose
      maxDepth := settings.maxIncludeDepth }
    evaluator.evaluateDocument (.ofLocation path) document []

/-- A header, or the content of the file whose name follows an at sign. -/
def headerText (files : FileSystem) (argument : String) : Except Failure String :=
  match argument.toList with
  | '@' :: name =>
    let file := String.ofList name
    match files.read? file with
    | some text => .ok text
    | none => .error ⟨.io, ["Failed to read header from " ++ file]⟩
  | _ => .ok argument

def variableLine (colors : Bool) (v : Variable) : String :=
  let state :=
    if v.isConcrete then Style.green.paint colors "concrete" else Style.yellow.paint colors "pending"
  Style.bold.paint colors v.identifier ++ " " ++ state ++ " " ++ v.definition.text ++ "\n"

def inspectHeader (files : FileSystem) (colors : Bool) (argument : String) :
    Except Failure String := do
  let text ← headerText files argument
  let vars ← Header.decode (String.ofList (trimBlank text.toList))
  if vars.isEmpty then return Style.dimmed.paint colors "No SSI variables" ++ "\n"
  return joined "" (vars.toList.map (variableLine colors))

def readArgument (what text : String) : Except Failure Json :=
  match Json.parse? text with
  | some json => .ok json
  | none => .error ⟨.json, [what ++ " arguments are not valid JSON: " ++ text]⟩

def hashDefinition (path positional named : String) : Except Failure String := do
  let positional ← readArgument "Positional" positional
  let named ← readArgument "Named" named
  let v ← Variable.ofDefinition (.arr [.str path, positional, named])
  return v.identifier ++ "\n"

def Invocation.run (invocation : Invocation) (files : FileSystem) (env : Environment)
    (colors : Bool) : Except Failure String := do
  match invocation.command with
  | .render file fragments verbose path =>
    let settings ← Settings.load files env invocation.settingsPath
    (renderDocument files settings file fragments verbose path).1
  | .inspect header => inspectHeader files colors header
  | .hash path positional named => hashDefinition path positional named

def Invocation.filesAsked (invocation : Invocation) (files : FileSystem) (env : Environment) :
    List String :=
  match invocation.command with
  | .hash .. => []
  | .inspect header =>
    match header.toList with
    | '@' :: name => [String.ofList name]
    | _ => []
  | .render file fragments verbose path =>
    let settingsPath := invocation.settingsPath.or (Settings.usualPath env).toOption
    let included := match fragments, Settings.load files env invocation.settingsPath with
      | some root, .ok settings =>
        let (_, session) := renderDocument files settings file fragments verbose path
        session.visits.flatMap fun
          | .lookup _ _ => []
          | .dispatch _ ctx => FragmentDirectory.candidates ⟨files, root⟩ ctx.path
      | _, _ => []
    settingsPath.toList ++ file :: included

end TwoPhase.CommandLine
