import TwoPhase.Evaluation
import TwoPhase.Route.Basic
import TwoPhase.Settings

/-
A router finds the fragment for a path, and builds include directives from the name of a route
and arguments. The page that includes a fragment takes over the variables the fragment
declares for these arguments.
-/
namespace TwoPhase

structure Router where
  languages : List String
  routes : List Route := []
  caches : CacheSet := {}
  defaultTimeout : Option Nat := none

namespace Router

def ofSettings (settings : Settings) (caches : CacheSet) : Router :=
  { languages := settings.languages, caches, defaultTimeout := settings.defaultTimeout }

def addRoute (router : Router) (name pattern : String) (fragment : Fragment) : Router :=
  let fragment := { fragment with timeout := fragment.timeout.or router.defaultTimeout }
  { router with routes := router.routes ++ [.ofPattern name pattern fragment] }

def resolve? (router : Router) (path : String) : Option (Fragment × NameMap String) :=
  router.routes.findSome? fun route => (route.matches? path).map (route.fragment, ·)

def reverseRoute? (router : Router) (name : String) (arguments : NameMap String) :
    Option (Route × String) :=
  router.routes.findSome? fun route =>
    if route.name = name then (route.reverse? arguments).map (route, ·) else none

def reverse? (router : Router) (name : String) (arguments : NameMap String) : Option String :=
  (router.reverseRoute? name arguments).map Prod.snd

/-- Tries the language of the request as an argument, then the arguments as they are, then
without a language the caller gave to a route that takes none. -/
def reverseWithLanguage? (router : Router) (ctx : RequestContext) (name : String)
    (arguments : NameMap String) : Option (Route × String) :=
  let bound := ctx.language.bind fun language =>
    router.reverseRoute? name
      (if arguments.contains Fragment.languageArgument then arguments
        else arguments.insert Fragment.languageArgument language)
  let plain := router.reverseRoute? name arguments
  let unbound :=
    if arguments.contains Fragment.languageArgument then
      router.reverseRoute? name (arguments.erase Fragment.languageArgument)
    else none
  bound.or (plain.or unbound)

def argumentText : Arg → String
  | .value literal => Directive.valueText literal
  | .nested inner => inner.reference
  | .expect target => Directive.reference target

def needArguments (ctx : RequestContext) (arguments : NameMap Arg) : RequestContext :=
  arguments.values.foldl (fun ctx arg =>
    match arg with
    | .nested inner => ctx.need inner
    | _ => ctx) ctx

/-- The include directive for a route, and the context with the variables that the include
needs. Variables given as arguments stay registered even if there is no such route. -/
def includeRoute (router : Router) (ctx : RequestContext) (name : String)
    (arguments : NameMap Arg) : Except Failure String × RequestContext :=
  let ctx := needArguments ctx arguments
  match router.reverseWithLanguage? ctx name (arguments.map fun _ arg => argumentText arg) with
  | none => (fail (.routeNotFound name (joined ", " arguments.names)), ctx)
  | some (route, path) =>
    match route.fragment.declared arguments with
    | .error failure => (.error failure, ctx)
    | .ok declared => (.ok (Directive.includeFile path), declared.foldl RequestContext.need ctx)

def dispatch (router : Router) (ctx : RequestContext) (backend : Backend) : Rendering :=
  match router.resolve? ctx.path with
  | none => ⟨fail (.includeNotFound ctx.fullPath), ctx, backend⟩
  | some (fragment, arguments) =>
    fragment.render router.languages router.caches ctx arguments backend

def sources (router : Router) : Sources Backend where
  lookup path backend :=
    let (hit, shelf) := router.caches.get path backend.shelf
    (hit, { backend with shelf })
  dispatch ctx backend :=
    let rendering := router.dispatch ctx backend
    (rendering.outcome, rendering.backend)

end Router
end TwoPhase
