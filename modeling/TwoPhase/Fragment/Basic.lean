import TwoPhase.Cache
import TwoPhase.Request

/-
Included fragments: views rendered once and cached by path. A fragment may use variables, but
the page around it provides their values, so it declares them as a function of the
arguments in its address; rendering checks the declaration. All that a language-bound
fragment sees of the request's language is the argument in its address.
-/
namespace TwoPhase

/-- A view may change the context it is given. -/
abbrev View := RequestContext → NameMap String → Except Failure String × RequestContext

abbrev Declaration := NameMap Arg → Except Failure (List Variable)

structure Fragment where
  view : View
  declares : Option Declaration := none
  usesLanguage : Bool := true
  timeout : Option Nat := none

structure Backend where
  shelf : Shelf := {}
  warnings : List String := []

structure Rendering where
  outcome : Except Failure String
  ctx : RequestContext
  backend : Backend

namespace Fragment

def languageArgument : String := "lang"

def declared (fragment : Fragment) (arguments : NameMap Arg) : Except Failure (List Variable) :=
  fragment.declares.elim (.ok []) (· arguments)

def bindLanguage (fragment : Fragment) (languages : List String) (ctx : RequestContext)
    (arguments : NameMap String) : Except Failure (RequestContext × NameMap String) :=
  if fragment.usesLanguage then
    match arguments.get? languageArgument with
    | none => fail (.noLanguage ctx.path)
    | some language =>
      if language ∈ languages then
        .ok ({ ctx with language := some language, needed := {} }, arguments.erase languageArgument)
      else fail (.includeNotFound ctx.fullPath)
  else .ok ({ ctx with needed := {} }, arguments)

def unusedWarning (ctx : RequestContext) (v : Variable) : String :=
  "The fragment at '" ++ ctx.path ++ "' declares SSI variable " ++ v.describe ++ " but does not use it"

def settle (ctx : RequestContext) (declared : List Variable) : RequestContext × List String :=
  declared.foldl (fun (progress : RequestContext × List String) v =>
    let (ctx, warnings) := progress
    if ctx.needed.contains v.identifier then
      ({ ctx with needed := ctx.needed.erase v.identifier }, warnings)
    else (ctx, warnings ++ [unusedWarning ctx v])) (ctx, [])

def check (fragment : Fragment) (ctx : RequestContext) (arguments : NameMap String) :
    Except Failure Unit × RequestContext × List String :=
  match fragment.declared (arguments.map fun _ text => Arg.str text) with
  | .error failure => (.error failure, ctx, [])
  | .ok declared =>
    let (ctx, warnings) := settle ctx declared
    if ctx.needed.isEmpty then (.ok (), ctx, warnings)
    else
      (fail (.undeclaredVariables ctx.path (ctx.needed.toList.map Variable.describe)), ctx, warnings)

def render (fragment : Fragment) (languages : List String) (caches : CacheSet)
    (ctx : RequestContext) (arguments : NameMap String) (backend : Backend) : Rendering :=
  match fragment.bindLanguage languages ctx arguments with
  | .error failure => ⟨.error failure, ctx, backend⟩
  | .ok (inner, arguments) =>
    let (viewed, inner) := fragment.view inner arguments
    let inner := if fragment.usesLanguage then { inner with language := ctx.language } else inner
    match viewed with
    | .error failure => ⟨.error failure, inner, backend⟩
    | .ok output =>
      let (checked, inner, warnings) := fragment.check inner arguments
      let backend := { backend with warnings := backend.warnings ++ warnings }
      match checked with
      | .error failure => ⟨.error failure, inner, backend⟩
      | .ok () =>
        ⟨.ok output, { inner with needed := {} },
          { backend with shelf := caches.put inner.path output fragment.timeout backend.shelf }⟩

end Fragment
end TwoPhase
