import TwoPhase.FileTree
import TwoPhase.Settings.Reader

/-
Where settings are loaded from: a file named for the run, which must exist, else the file that
the environment names, else the one in the home directory; either of these may be missing,
and then the usual settings apply. Settings from a file are checked.
-/
namespace TwoPhase

structure Environment where
  settingsPath : Option String := none
  home : Option String := none

namespace Settings

def defaultPath (env : Environment) : Except Failure String :=
  match env.home.filter (· ≠ "") with
  | some home => .ok (joinPath (joinPath home ".ssify") "config.toml")
  | none => .error ⟨.other "Unable to determine home directory", []⟩

/-- Of several faults the first is reported. -/
def faults (settings : Settings) : List String :=
  (if settings.languages.isEmpty then ["'languages' must list at least one language"] else []) ++
  (if settings.maxIncludeDepth = 0 then ["'max_include_depth' must be at least 1"] else []) ++
  (if settings.cacheAliases = some [] then ["'cache_aliases' must not be empty when set"] else [])

def check (path : String) (settings : Settings) : Except Failure Settings :=
  match settings.faults with
  | [] => .ok settings
  | reason :: _ => fail (.badConfiguration path reason)

def loadFrom (files : FileSystem) (path : String) : Except Failure Settings :=
  match files.read? path with
  | none => .error ⟨.io, ["Failed to read ssify config from " ++ path]⟩
  | some content =>
    (inFrame ("Failed to parse ssify config from " ++ path) (parse content)).bind (check path)

def usualPath (env : Environment) : Except Failure String :=
  env.settingsPath.elim (defaultPath env) .ok

def load (files : FileSystem) (env : Environment) (named : Option String) :
    Except Failure Settings :=
  match named with
  | some path => loadFrom files path
  | none => do
    let path ← usualPath env
    if files.pathExists path then loadFrom files path else .ok {}

end Settings
end TwoPhase
