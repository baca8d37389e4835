import TwoPhase.Resolution.State

/-
Resolving a set of variables. They wait in a queue; one that misses a value goes to its end,
any other is computed and published, once for each identifier. A round through the queue
without progress leaves nothing to hope for, because failed attempts change no value:
the run stops there with the variables left and, if there is one, a cycle among them.
-/
namespace TwoPhase

structure Progress where
  resolution : Resolution := {}
  queue : List Variable
  /-- What each variable missed at its last attempt, by identifier. -/
  waiting : NameMap (List String) := {}
  /-- Attempts since the last success. -/
  streak : Nat := 0

namespace Progress

/-- The requested variables in order, then nested ones that were not requested themselves. -/
def seed (vars : VariableSet) : List Variable :=
  let requested := vars.toList
  (requested.flatMap Variable.nestedVariables).foldl (fun queue v =>
    if queue.any (·.identifier = v.identifier) then queue else queue ++ [v]) requested

def start (vars : VariableSet) : Progress := { queue := seed vars }

def postpone (progress : Progress) (v : Variable) (rest : List Variable)
    (missing : List String) : Progress :=
  { progress with
    queue := rest ++ [v]
    waiting := progress.waiting.insert v.identifier missing
    streak := progress.streak + 1 }

def publish (progress : Progress) (v : Variable) (rest : List Variable)
    (published : String) : Progress :=
  { resolution :=
      if published = v.identifier then progress.resolution
      else { progress.resolution with
        aliases := progress.resolution.aliases.insert v.identifier published }
    queue := rest
    waiting := progress.waiting.erase v.identifier
    streak := 0 }

def store (progress : Progress) (published : String) (value : Json) : Progress :=
  { progress with resolution :=
    { progress.resolution with table := progress.resolution.table.insert published value } }

def waitGraph (progress : Progress) : WaitGraph :=
  .ofWaits (progress.queue.flatMap fun v =>
    ((progress.waiting.get? v.identifier).getD []).map (v.identifier, ·))

def cycleFault (progress : Progress) : Fault :=
  .dependencyCycle (progress.queue.map Variable.describe)
    (progress.resolution.table.entries.map fun (name, value) =>
      name ++ "=" ++ Directive.valueText value)
    (progress.waitGraph.findCycle.map (joined " → "))

end Progress

inductive Step (σ : Type) where
  | finished (outcome : Except Failure Table) (state : σ)
  | continued (progress : Progress) (state : σ)

variable {σ : Type}

def Progress.settle (compute : Variable → σ → Except Failure Json × σ) (progress : Progress)
    (v : Variable) (rest : List Variable) (attempt : Attempt) (state : σ) : Step σ :=
  let published := attempt.declared.identifier
  let next := progress.publish v rest published
  if next.resolution.table.contains published then .continued next state
  else
    match compute attempt.call state with
    | (.ok value, state) => .continued (next.store published value) state
    | (.error failure, state) =>
      .finished (.error (failure.within
        ("Failed to compute SSI variable " ++ attempt.declared.describe))) state

def Progress.step (compute : Variable → σ → Except Failure Json × σ) (progress : Progress)
    (state : σ) : Step σ :=
  match progress.queue with
  | [] => .finished (.ok progress.resolution.table) state
  | v :: rest =>
    let attempt := progress.resolution.attempt v
    if attempt.missing.isEmpty then progress.settle compute v rest attempt state
    else
      let next := progress.postpone v rest attempt.missing
      if next.queue.length ≤ next.streak then .finished (fail next.cycleFault) state
      else .continued next state

theorem Progress.step_decreases {compute : Variable → σ → Except Failure Json × σ}
    {progress next : Progress} {state after : σ}
    (stepped : progress.step compute state = .continued next after) :
    next.queue.length < progress.queue.length ∨
      (next.queue.length = progress.queue.length ∧
        next.queue.length - next.streak < progress.queue.length - progress.streak) := by
  cases queue : progress.queue with
  | nil => simp [step, queue] at stepped
  | cons v rest =>
    simp only [step, queue] at stepped
    split at stepped
    · left
      simp only [settle] at stepped
      split at stepped
      · cases stepped; simp [publish]
      · split at stepped
        · cases stepped; simp [publish, store]
        · cases stepped
    · split at stepped
      · cases stepped
      · next short =>
        cases stepped
        right
        refine ⟨by simp [postpone], ?_⟩
        simp only [postpone, List.length_append, List.length_cons, List.length_nil] at short ⊢
        omega

def Progress.run (compute : Variable → σ → Except Failure Json × σ) (progress : Progress)
    (state : σ) : Except Failure Table × σ :=
  match _ : progress.step compute state with
  | .finished outcome state => (outcome, state)
  | .continued next state => next.run compute state
termination_by (progress.queue.length, progress.queue.length - progress.streak)
decreasing_by
  rcases Progress.step_decreases (by assumption) with shorter | ⟨same, closer⟩
  · exact Prod.Lex.left _ _ shorter
  · rw [← same] at closer ⊢
    exact Prod.Lex.right _ closer

def resolveWith (compute : Variable → σ → Except Failure Json × σ) (vars : VariableSet)
    (state : σ) : Except Failure Table × σ :=
  (Progress.start vars).run compute state

def resolve (compute : Variable → Except Failure Json) (vars : VariableSet) :
    Except Failure Table :=
  (resolveWith (fun v (_ : Unit) => (compute v, ())) vars ()).1

def provide (registry : Registry) (ctx : RequestContext) (vars : VariableSet) :
    Except Failure String :=
  inFrame ("Failed to provide SSI variables for " ++ ctx.fullPath)
    ((resolve (registry.compute ctx) vars).map Table.statements)

end TwoPhase
