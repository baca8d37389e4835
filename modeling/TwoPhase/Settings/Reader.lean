import TwoPhase.Failure
import TwoPhase.Json.Printer
import TwoPhase.Settings
import TwoPhase.Toml.Document

/-
Settings as text. They are read from the top level of a TOML document, where keys that are not
known are ignored, and written as a JSON object in the order of their declaration.
-/
namespace TwoPhase

namespace Toml

def bool? : Toml → Option Bool
  | bool value => some value
  | _ => none

def word? : Toml → Option Nat
  | int value => if 0 ≤ value ∧ value < Nat.pow 2 64 then some value.toNat else none
  | _ => none

def string? : Toml → Option String
  | str text => some text
  | _ => none

def strings? : Toml → Option (List String)
  | arr items => items.mapM string?
  | _ => none

def optional? {α : Type} (read? : Toml → Option α) (fields : Fields) (name : String) :
    Option (Option α) :=
  match Entries.get? name fields with
  | none => some none
  | some value => (read? value).map some

end Toml

namespace Settings
open Toml (optional?)

def ofFields? (fields : Toml.Fields) : Option Settings := do
  let usual : Settings := {}
  let render ← optional? Toml.bool? fields "render"
  let renderVerbose ← optional? Toml.bool? fields "render_verbose"
  let debug ← optional? Toml.bool? fields "debug"
  let languages ← optional? Toml.strings? fields "languages"
  let cacheAliases ← optional? Toml.strings? fields "cache_aliases"
  let defaultTimeout ← optional? Toml.word? fields "default_timeout_secs"
  let maxIncludeDepth ← optional? Toml.word? fields "max_include_depth"
  some {
    render := render.getD usual.render
    renderVerbose := renderVerbose.getD usual.renderVerbose
    debug := debug.getD usual.debug
    languages := languages.getD usual.languages
    cacheAliases
    defaultTimeout
    maxIncludeDepth := maxIncludeDepth.getD usual.maxIncludeDepth }

/-- Whether values make sense is not looked at. -/
def parse (text : String) : Except Failure Settings :=
  match (Toml.parse? text).bind ofFields? with
  | some settings => .ok settings
  | none => .error ⟨.toml, []⟩

def jsonStrings (items : List String) : Json := .arr (items.map Json.str)

def jsonWord (n : Nat) : Json := (Json.ofInt? n).getD .null

def text (settings : Settings) : String :=
  let set := fun (name : String) (value : Option Json) => (value.map (name, ·)).toList
  (Json.obj (
    set "render" (some (.bool settings.render)) ++
    set "render_verbose" (some (.bool settings.renderVerbose)) ++
    set "debug" (some (.bool settings.debug)) ++
    set "languages" (some (jsonStrings settings.languages)) ++
    set "cache_aliases" (settings.cacheAliases.map jsonStrings) ++
    set "default_timeout_secs" (settings.defaultTimeout.map jsonWord) ++
    set "max_include_depth" (some (jsonWord settings.maxIncludeDepth)))).text

end Settings
end TwoPhase
