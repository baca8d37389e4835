import TwoPhase.Variable.Set

/-
What rendering needs to know of a request: where it points, the language agreed on, free
metadata, and the variables used so far.
-/
namespace TwoPhase

structure RequestContext where
  path : String
  query : String := ""
  language : Option String := none
  metadata : NameMap String := {}
  needed : VariableSet := {}

def splitLocation (location : String) : String × String :=
  let (path, rest) := location.toList.span (· ≠ '?')
  (String.ofList path, String.ofList rest.tail)

namespace RequestContext

def ofLocation (location : String) : RequestContext :=
  let (path, query) := splitLocation location
  { path, query }

/-- The same request at another place, with no variables used yet. -/
def atLocation (ctx : RequestContext) (location : String) : RequestContext :=
  let (path, query) := splitLocation location
  { ctx with path, query, needed := {} }

def need (ctx : RequestContext) (v : Variable) : RequestContext :=
  { ctx with needed := ctx.needed.insert v }

def fullPath (ctx : RequestContext) : String :=
  if ctx.query = "" then ctx.path else ctx.path ++ "?" ++ ctx.query

end RequestContext
end TwoPhase
