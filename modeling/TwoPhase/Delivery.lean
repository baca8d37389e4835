import TwoPhase.Resolution.Run
import TwoPhase.Response
import TwoPhase.Route.Router
import TwoPhase.Variable.Header

/-
The two points where a response is touched. Before a whole-page cache stores it, a header
records the variables it needs. On its way out, fresh or replayed, those variables are
resolved, their set statements go in front of the body, and the directives may be evaluated.
-/
namespace TwoPhase

structure Delivery (σ : Type) where
  registry : Registry
  evaluator : Evaluator σ
  render : Bool := false
  debug : Bool := false

namespace Delivery
variable {σ : Type}

def ofSettings (settings : Settings) (registry : Registry) (router : Router) : Delivery Backend where
  registry := registry
  evaluator :=
    { sources := router.sources
      verbose := settings.renderVerbose
      maxDepth := settings.maxIncludeDepth }
  render := settings.render
  debug := settings.debug

/-- A header that is present stays, and a request that needs no variables adds none. -/
def recordNeeded (ctx : RequestContext) (response : Response) : Response :=
  if (response.header Header.name).isNone && !ctx.needed.isEmpty then
    response.setHeader Header.name (Header.encode ctx.needed)
  else response

/-- The variables a response needs: those of the request, or for a replayed one those of its
header. -/
def neededVariables (ctx : RequestContext) (header : Option String) : Except Failure VariableSet :=
  if !ctx.needed.isEmpty then .ok ctx.needed
  else
    match header with
    | none => .ok {}
    | some text =>
      inFrame ("Response for " ++ ctx.fullPath ++ " carries an invalid header") (Header.decode text)

def provideFor (delivery : Delivery σ) (ctx : RequestContext) (response : Response)
    (header : Option String) : Except Failure Response := do
  let needed ← neededVariables ctx header
  if needed.isEmpty then return response
  let statements ← provide delivery.registry ctx needed
  return { response with body := statements ++ response.body }

def finish (delivery : Delivery σ) (ctx : RequestContext) (response : Response) (shared : σ) :
    Except Failure Response × σ :=
  if delivery.render then
    let (outcome, session) := delivery.evaluator.evaluateDocument ctx response.body shared
    (inFrame ("Failed to render SSI directives for " ++ ctx.fullPath)
      (outcome.map fun body => { response with body }), session.shared)
  else (.ok response, shared)

def deliver (delivery : Delivery σ) (ctx : RequestContext) (response : Response) (shared : σ) :
    Except Failure Response × σ :=
  let header := response.header Header.name
  let response := if delivery.debug then response else response.removeHeader Header.name
  match delivery.provideFor ctx response header with
  | .error failure => (.error failure, shared)
  | .ok response => delivery.finish ctx response shared

end Delivery
end TwoPhase
