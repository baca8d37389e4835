import TwoPhase.Failure
import TwoPhase.Terminal

/-
What a person is told about a failure: the fault, what lies behind it and what to try.
A cause that is no fault is reported as a configuration error with its whole chain.
-/
namespace TwoPhase

structure Advice where
  fault : Fault
  details : Option String := none
  suggestion : Option String := none

namespace Advice

def ofFault (fault : Fault) : Advice :=
  match fault with
  | .dependencyCycle _ _ cycle =>
    { fault
      details := some (if cycle.isSome then
          "Two or more SSI variables expect each other's values"
        else "Some SSI variables expect values of variables that are never declared")
      suggestion := some ("Check the declarations of the included fragments: " ++
        "every expected variable must also be declared") }
  | .undeclaredReference _ _ suggestion =>
    { fault
      details := some ("Every echo and $\x7b\x7d reference must follow a set statement " ++
        "for the same name")
      suggestion := some (match suggestion with
        | some similar => "Did you mean '" ++ similar ++ "'?"
        | none => "Make sure the variable is registered with the request context " ++
          "before it is rendered") }
  | .includeNotFound _ =>
    { fault
      suggestion := some ("Check the include path or pass a fragments directory " ++
        "with --fragments") }
  | .undeclaredVariables _ _ =>
    { fault, suggestion := some "Add the variables to the fragment's declaration function" }
  | .routeNotFound _ _ =>
    { fault, suggestion := some "Pass exactly the arguments the route pattern names" }
  | .noLanguage _ =>
    { fault
      suggestion := some ("Add a \x7blang\x7d segment to the route " ++
        "or disable language binding") }
  | .unknownComputation _ =>
    { fault
      suggestion := some ("Register the computation in the registry " ++
        "before resolving variables") }
  | .invalidHeader _ =>
    { fault
      details := some ("The header must be a JSON object mapping identifiers " ++
        "to definitions") }
  | _ => { fault }

def ofFailure (failure : Failure) : Advice :=
  match failure.cause with
  | .fault known => ofFault known
  | .toml =>
    { fault := .badConfiguration "config.toml" failure.cause.message
      suggestion := some "Check the TOML syntax of the ssify configuration file" }
  | _ =>
    { fault := .badConfiguration "<unknown>" failure.message
      details := some (joined "\n  caused by: " failure.chain) }

def text (advice : Advice) : String :=
  advice.fault.message ++ (advice.details.elim "" fun details => "\nDetails: " ++ details) ++
    (advice.suggestion.elim "" fun suggestion => "\nSuggestion: " ++ suggestion)

def report (colors : Bool) (advice : Advice) : String :=
  let line := fun (style : Style) (label text : String) =>
    style.paint colors label ++ ": " ++ text ++ "\n"
  line .redBold "error" advice.fault.message ++
    (advice.details.elim "" (line .yellow "details")) ++
    (advice.suggestion.elim "" (line .green "suggestion"))

end Advice
end TwoPhase
