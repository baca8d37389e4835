import TwoPhase.Directive.Form
import TwoPhase.EditDistance
import TwoPhase.Failure
import TwoPhase.Request

/-
Evaluating directives. A document goes through four passes, each over the output of the one
before: sets, echoes, ifs, includes. An included fragment goes through the same passes on
its own and shares the bindings of the document around it; its output is not looked at
again. Nesting is bounded by the depth limit, which is also what makes evaluation end.
-/
namespace TwoPhase

/-- Where the text behind an include path comes from: a cache first, else the dispatcher, which
renders the fragment for the context it is given. `σ` is what both share. -/
structure Sources (σ : Type) where
  lookup : String → σ → Option String × σ
  dispatch : RequestContext → σ → Except Failure String × σ

def Sources.none {σ : Type} : Sources σ where
  lookup _ state := (.none, state)
  dispatch ctx state := (fail (.includeNotFound ctx.fullPath), state)

/-- What a run asked of its sources; the includes of the document itself are at level 0. -/
inductive Visit where
  | lookup (level : Nat) (path : String)
  | dispatch (level : Nat) (ctx : RequestContext)

structure Session (σ : Type) where
  bindings : NameMap String := {}
  visits : List Visit := []
  shared : σ

/-- An evaluation step; the session it leaves counts also when it fails. -/
abbrev Evaluation (σ : Type) := ExceptT Failure (StateM (Session σ))

structure Evaluator (σ : Type) where
  sources : Sources σ
  verbose : Bool := false
  maxDepth : Nat := 16

variable {σ μ : Type}

namespace Evaluation

def bind (name value : String) : Evaluation σ Unit :=
  modify fun session => { session with bindings := session.bindings.insert name value }

def visit (visit : Visit) : Evaluation σ Unit :=
  modify fun session => { session with visits := session.visits ++ [visit] }

def share {α : Type} (step : σ → α × σ) : Evaluation σ α :=
  modifyGet fun session =>
    let (answer, shared) := step session.shared
    (answer, { session with shared })

def lookup (place : String) (name : List Char) : Evaluation σ (List Char) := do
  let bindings := (← get).bindings
  let name := String.ofList name
  match bindings.get? name with
  | some value => return value.toList
  | none => throw (.ofFault (.undeclaredReference name place (closestName? name bindings.names)))

def replaceAll (pattern : Pattern μ) (replace : μ → Evaluation σ (List Char)) (text : List Char) :
    Evaluation σ (List Char) := do
  let parts ← (pattern.scan text).mapM fun
    | .inl c => pure [c]
    | .inr piece => replace piece
  return parts.flatten

def fillIn (place : String) (text : List Char) : Evaluation σ (List Char) :=
  replaceAll Directive.Form.references (lookup place) text

end Evaluation

namespace Evaluator
open Evaluation

def wrap (evaluator : Evaluator σ) (directive content : List Char) : List Char :=
  if evaluator.verbose then directive ++ content ++ Directive.Form.twin directive else content

def evaluateSet (evaluator : Evaluator σ) (form : Directive.Form.SetForm) : Evaluation σ (List Char) := do
  bind (String.ofList form.name) (String.ofList (Directive.unescapeChars form.value))
  return if evaluator.verbose then form.source else []

def evaluateEcho (evaluator : Evaluator σ) (name : List Char) : Evaluation σ (List Char) :=
  return evaluator.wrap (Directive.Form.echoSource name) (← lookup "echo" name)

def evaluateIf (evaluator : Evaluator σ) (form : Directive.Form.IfForm) : Evaluation σ (List Char) := do
  let expression ← fillIn "if expression" form.expression
  let branch := if expression.isEmpty then form.no.getD [] else form.yes
  return evaluator.wrap form.header branch

/-- The four passes, with the evaluation of an include path as a parameter. -/
def passes (evaluator : Evaluator σ) (included : List Char → Evaluation σ (List Char))
    (text : List Char) : Evaluation σ (List Char) := do
  let text ← replaceAll Directive.Form.sets evaluator.evaluateSet text
  let text ← replaceAll Directive.Form.echoes evaluator.evaluateEcho text
  let text ← replaceAll Directive.Form.ifs evaluator.evaluateIf text
  replaceAll Directive.Form.includes (fun form => do
    let path ← fillIn "include path" form.path
    return evaluator.wrap form.source (← included path)) text

def fetch (evaluator : Evaluator σ) (ctx : RequestContext) (level : Nat) (path : String) :
    Evaluation σ String := do
  visit (.lookup level path)
  match ← share (evaluator.sources.lookup path) with
  | some cached => return cached
  | none =>
    let inner := ctx.atLocation path
    visit (.dispatch level inner)
    match ← share (evaluator.sources.dispatch inner) with
    | .ok raw => return raw
    | .error failure => throw (failure.within ("Failed to include " ++ path))

def evaluate (evaluator : Evaluator σ) (ctx : RequestContext) :
    Nat → List Char → Evaluation σ (List Char)
  | 0, text => evaluator.passes (fun path =>
      throw (.ofFault (.includeDepthExceeded (String.ofList path) evaluator.maxDepth))) text
  | levels + 1, text => evaluator.passes (fun path => do
      let raw ← evaluator.fetch ctx (evaluator.maxDepth - (levels + 1)) (String.ofList path)
      evaluator.evaluate ctx levels raw.toList) text

def evaluateDocument (evaluator : Evaluator σ) (ctx : RequestContext) (document : String) (shared : σ) :
    Except Failure String × Session σ :=
  let (outcome, session) :=
    (evaluator.evaluate ctx evaluator.maxDepth document.toList).run.run { shared }
  (outcome.map String.ofList, session)

end Evaluator
end TwoPhase
