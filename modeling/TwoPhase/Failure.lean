/-
What can go wrong, as causes rather than texts. A `Fault` is one the rendering rules detect;
other causes come from readers and the file system, whose own wording is left open: each of
those has one fixed mark. A failure is a cause inside the frames of what was being done.
-/
namespace TwoPhase

inductive Fault where
  /-- The variables left wait for each other, or for values that nobody provides. -/
  | dependencyCycle (unresolved resolved : List String) (cycle : Option String)
  | undeclaredReference (name place : String) (suggestion : Option String)
  | includeNotFound (path : String)
  | routeNotFound (name arguments : String)
  | includeDepthExceeded (path : String) (depth : Nat)
  | undeclaredVariables (path : String) (used : List String)
  | noLanguage (path : String)
  | unknownComputation (path : String)
  | unresolvedArgument (path definition : String)
  | invalidArgument (value expected : String)
  | invalidHeader (reason : String)
  | unknownCacheAlias (cacheAlias : String)
  | badConfiguration (path reason : String)
deriving DecidableEq

def joined (separator : String) : List String → String
  | [] => ""
  | [last] => last
  | first :: rest => first ++ separator ++ joined separator rest

def Fault.message : Fault → String
  | .dependencyCycle unresolved resolved cycle =>
    "SSI variables have a dependency cycle" ++ (cycle.elim "" fun path => ": " ++ path) ++
      ".\nUnresolved SSI variables:\n" ++ joined "\n" unresolved ++
      "\n\nResolved SSI variables:\n" ++ joined "\n" resolved
  | .undeclaredReference name place _ =>
    "Undeclared SSI variable '" ++ name ++ "' referenced in " ++ place
  | .includeNotFound path => "Included fragment not found: " ++ path
  | .routeNotFound name arguments =>
    "No route '" ++ name ++ "' accepts the arguments " ++ arguments
  | .includeDepthExceeded path depth =>
    "Include nesting too deep (" ++ toString depth ++ " levels) at " ++ path
  | .undeclaredVariables path used =>
    "The fragment at '" ++ path ++ "' is marked as included, but it uses SSI variables " ++
      "not declared by it: " ++ joined ", " used
  | .noLanguage path =>
    "The fragment at '" ++ path ++ "' is marked as included with language binding, " ++
      "but its route doesn't provide a 'lang' argument"
  | .unknownComputation path =>
    "No computation registered for SSI variable path '" ++ path ++ "'"
  | .unresolvedArgument path definition =>
    "SSI variable '" ++ path ++ "' still has unresolved arguments: " ++ definition
  | .invalidArgument value expected => "Cannot use " ++ value ++ " as " ++ expected
  | .invalidHeader reason => "Invalid SSI variables header: " ++ reason
  | .unknownCacheAlias cacheAlias =>
    "No fragment cache configured under alias '" ++ cacheAlias ++ "'"
  | .badConfiguration path reason => "Configuration error in " ++ path ++ ": " ++ reason

inductive Cause where
  | fault (known : Fault)
  | toml
  | io
  | json
  | other (message : String)
deriving DecidableEq

def Cause.message : Cause → String
  | .fault known => known.message
  | .toml => "<toml>"
  | .io => "<io>"
  | .json => "<json>"
  | .other message => message

/-- The frames stand outermost first. -/
structure Failure where
  cause : Cause
  frames : List String := []
deriving DecidableEq

instance : Inhabited Failure := ⟨⟨.other "", []⟩⟩

namespace Failure

def ofFault (fault : Fault) : Failure := ⟨.fault fault, []⟩

def within (frame : String) (failure : Failure) : Failure :=
  { failure with frames := frame :: failure.frames }

def chain (failure : Failure) : List String := failure.frames ++ [failure.cause.message]

def message (failure : Failure) : String := failure.chain.headD ""

end Failure

def inFrame {α : Type} (frame : String) : Except Failure α → Except Failure α
  | .ok value => .ok value
  | .error failure => .error (failure.within frame)

def fail {α : Type} (fault : Fault) : Except Failure α := .error (.ofFault fault)

end TwoPhase
