import TwoPhase.Resolution.Run
import TwoPhase.Proofs.Replacement

/-
What a step of a resolution can do, which states a run passes through, and how it ends. A run
that gives up has tried every variable still in the queue since the last success.
-/
namespace TwoPhase
variable {σ : Type}

namespace Progress
variable {compute : Variable → σ → Except Failure Json × σ} {vars : VariableSet} {initial : σ}

/-- Everything a step can do, with what it finds in the queue and in the table. -/
inductive Steps (compute : Variable → σ → Except Failure Json × σ) (progress : Progress)
    (state : σ) : Step σ → Prop where
  | done (empty : progress.queue = []) :
      Steps compute progress state (.finished (.ok progress.resolution.table) state)
  | stalled {v : Variable} {rest : List Variable} (first : progress.queue = v :: rest)
      (waits : (progress.resolution.attempt v).missing ≠ []) (round : rest.length ≤ progress.streak) :
      Steps compute progress state (.finished
        (fail (progress.postpone v rest (progress.resolution.attempt v).missing).cycleFault) state)
  | postponed {v : Variable} {rest : List Variable} (first : progress.queue = v :: rest)
      (waits : (progress.resolution.attempt v).missing ≠ []) (round : progress.streak < rest.length) :
      Steps compute progress state
        (.continued (progress.postpone v rest (progress.resolution.attempt v).missing) state)
  | present {v : Variable} {rest : List Variable} (first : progress.queue = v :: rest)
      (free : (progress.resolution.attempt v).missing = [])
      (held : progress.resolution.table.contains
        (progress.resolution.attempt v).declared.identifier = true) :
      Steps compute progress state (.continued
        (progress.publish v rest (progress.resolution.attempt v).declared.identifier) state)
  | computed {v : Variable} {rest : List Variable} {value : Json} {after : σ}
      (first : progress.queue = v :: rest) (free : (progress.resolution.attempt v).missing = [])
      (new : progress.resolution.table.contains
        (progress.resolution.attempt v).declared.identifier = false)
      (answer : compute (progress.resolution.attempt v).call state = (.ok value, after)) :
      Steps compute progress state (.continued
        ((progress.publish v rest (progress.resolution.attempt v).declared.identifier).store
          (progress.resolution.attempt v).declared.identifier value) after)
  | failed {v : Variable} {rest : List Variable} {failure : Failure} {after : σ}
      (first : progress.queue = v :: rest) (free : (progress.resolution.attempt v).missing = [])
      (new : progress.resolution.table.contains
        (progress.resolution.attempt v).declared.identifier = false)
      (answer : compute (progress.resolution.attempt v).call state = (.error failure, after)) :
      Steps compute progress state (.finished (.error (failure.within
        ("Failed to compute SSI variable " ++
          (progress.resolution.attempt v).declared.describe))) after)

@[simp] theorem publish_table (progress : Progress) (v : Variable) (rest : List Variable)
    (published : String) :
    (progress.publish v rest published).resolution.table = progress.resolution.table := by
  unfold publish
  split <;> rfl

theorem step_spec (compute : Variable → σ → Except Failure Json × σ) (progress : Progress)
    (state : σ) : progress.Steps compute state (progress.step compute state) := by
  unfold step
  split
  · next empty => exact .done empty
  · next v rest first =>
    dsimp only
    split
    · next free =>
      have free := List.isEmpty_iff.1 free
      unfold settle
      dsimp only
      rw [publish_table]
      split
      · next held => exact .present first free held
      · next new =>
        have new := Bool.eq_false_iff.2 new
        split
        · next value after answer => exact .computed first free new answer
        · next failure after answer => exact .failed first free new answer
    · next waits =>
      have waits : (progress.resolution.attempt v).missing ≠ [] :=
        fun free => waits (List.isEmpty_iff.2 free)
      split
      · next round =>
        refine .stalled first waits ?_
        simp only [postpone, List.length_append, List.length_cons, List.length_nil] at round
        omega
      · next round =>
        refine .postponed first waits ?_
        simp only [postpone, List.length_append, List.length_cons, List.length_nil] at round
        omega

inductive Reached (compute : Variable → σ → Except Failure Json × σ) (vars : VariableSet)
    (initial : σ) : Progress → σ → Prop where
  | start : Reached compute vars initial (.start vars) initial
  | next {progress following : Progress} {state after : σ}
      (reached : Reached compute vars initial progress state)
      (stepped : progress.step compute state = .continued following after) :
      Reached compute vars initial following after

theorem run_ends {progress : Progress} {state : σ}
    (reached : Reached compute vars initial progress state) :
    ∃ last before, Reached compute vars initial last before ∧
      last.step compute before =
        .finished (progress.run compute state).1 (progress.run compute state).2 := by
  induction progress, state using Progress.run.induct compute with
  | case1 progress state outcome after stepped =>
    refine ⟨progress, state, reached, ?_⟩
    rw [run, stepped]
  | case2 progress state next after stepped ih =>
    obtain ⟨last, before, lastReached, finished⟩ := ih (.next reached stepped)
    refine ⟨last, before, lastReached, ?_⟩
    rw [run, stepped]
    exact finished

theorem resolveWith_ends (compute : Variable → σ → Except Failure Json × σ) (vars : VariableSet)
    (initial : σ) :
    ∃ last before, Reached compute vars initial last before ∧
      last.step compute before =
        .finished (resolveWith compute vars initial).1 (resolveWith compute vars initial).2 :=
  run_ends .start

/-- The run if it ends within a number of steps. -/
def runFor (compute : Variable → σ → Except Failure Json × σ) :
    Nat → Progress → σ → Option (Except Failure Table × σ)
  | 0, _, _ => none
  | steps + 1, progress, state =>
    match progress.step compute state with
    | .finished outcome after => some (outcome, after)
    | .continued next after => runFor compute steps next after

theorem run_of_runFor {steps : Nat} {progress : Progress} {state : σ}
    {answer : Except Failure Table × σ}
    (ended : runFor compute steps progress state = some answer) :
    progress.run compute state = answer := by
  induction steps generalizing progress state with
  | zero => cases ended
  | succ steps ih =>
    rw [run]
    unfold runFor at ended
    split at ended
    · next outcome after stepped =>
      rw [stepped]
      exact Option.some.inj ended
    · next following after stepped =>
      rw [stepped]
      exact ih ended

section Rounds
variable {progress : Progress} {u v : Variable} {rest untried tried : List Variable}

theorem mem_postponed (first : progress.queue = v :: rest) :
    u ∈ rest ++ [v] ↔ u ∈ progress.queue := by
  rw [first, List.mem_append, List.mem_singleton, or_comm, List.mem_cons]

theorem untried_of_short (split : v :: rest = untried ++ tried)
    (short : tried.length < rest.length + 1) :
    ∃ later, untried = v :: later ∧ rest = later ++ tried := by
  rcases List.cons_eq_append_iff.1 split with ⟨_, all⟩ | more
  · rw [all, List.length_cons] at short
    omega
  · exact more

theorem tried_of_round (split : v :: rest = untried ++ tried)
    (round : rest.length ≤ tried.length) : tried = v :: rest ∨ tried = rest := by
  rcases List.cons_eq_append_iff.1 split with ⟨_, all⟩ | ⟨later, _, left⟩
  · exact Or.inl all
  · have none : later = [] := by
      rw [left, List.length_append] at round
      exact List.eq_nil_of_length_eq_zero (by omega)
    rw [none, List.nil_append] at left
    exact Or.inr left.symm

end Rounds

/-- The attempts since the last success are those at the end of the queue, and all were in vain. -/
def TriedInVain (progress : Progress) : Prop :=
  ∃ untried tried, progress.queue = untried ++ tried ∧ tried.length = progress.streak ∧
    ∀ v ∈ tried, (progress.resolution.attempt v).missing ≠ []

theorem start_triedInVain (vars : VariableSet) : (start vars).TriedInVain :=
  ⟨seed vars, [], by simp [start], rfl, by simp⟩

theorem publish_triedInVain (progress : Progress) (v : Variable) (rest : List Variable)
    (published : String) : (progress.publish v rest published).TriedInVain :=
  ⟨rest, [], by simp [publish], rfl, by simp⟩

theorem store_triedInVain {progress : Progress} (fresh : progress.streak = 0) (name : String)
    (value : Json) : (progress.store name value).TriedInVain :=
  ⟨progress.queue, [], by simp [store], by simp [store, fresh], by simp⟩

theorem postpone_triedInVain {progress : Progress} {v : Variable} {rest : List Variable}
    {missing : List String} (vain : progress.TriedInVain) (first : progress.queue = v :: rest)
    (waits : (progress.resolution.attempt v).missing ≠ []) (round : progress.streak < rest.length) :
    (progress.postpone v rest missing).TriedInVain := by
  obtain ⟨untried, tried, split, count, stuck⟩ := vain
  rw [first] at split
  obtain ⟨later, _, left⟩ := untried_of_short split (by omega)
  refine ⟨later, tried ++ [v], ?_, ?_, ?_⟩
  · simp [postpone, left]
  · simp [postpone, count]
  · intro u member
    rcases List.mem_append.1 member with old | new
    · exact stuck u old
    · rw [List.mem_singleton.1 new]
      exact waits

theorem Reached.triedInVain {progress : Progress} {state : σ}
    (reached : Reached compute vars initial progress state) : progress.TriedInVain := by
  induction reached with
  | start => exact start_triedInVain vars
  | @next progress following state after reached stepped ih =>
    have spec := progress.step_spec compute state
    rw [stepped] at spec
    cases spec with
    | postponed first waits round => exact postpone_triedInVain ih first waits round
    | present first free held => exact publish_triedInVain _ _ _ _
    | computed first free new answer => exact store_triedInVain rfl _ _

theorem TriedInVain.all_stuck {progress : Progress} {v : Variable} {rest : List Variable}
    (vain : progress.TriedInVain) (first : progress.queue = v :: rest)
    (waits : (progress.resolution.attempt v).missing ≠ []) (round : rest.length ≤ progress.streak) :
    ∀ u ∈ progress.queue, (progress.resolution.attempt u).missing ≠ [] := by
  obtain ⟨untried, tried, split, count, stuck⟩ := vain
  rw [first] at split ⊢
  intro u member
  rcases List.mem_cons.1 member with rfl | later
  · exact waits
  · rcases tried_of_round split (by omega) with all | others
    · exact stuck u (all ▸ member)
    · exact stuck u (others ▸ later)

end Progress

def stateless (compute : Variable → Except Failure Json) :
    Variable → Unit → Except Failure Json × Unit :=
  fun v _ => (compute v, ())

/-- How the resolution of a set of variables can end, with the last state of its run. -/
inductive Ending (compute : Variable → Except Failure Json) (vars : VariableSet)
    (last : Progress) : Except Failure Table → Prop where
  | complete (empty : last.queue = []) : Ending compute vars last (.ok last.resolution.table)
  | stalled {v : Variable} {rest : List Variable} (first : last.queue = v :: rest)
      (stuck : ∀ u ∈ last.queue, (last.resolution.attempt u).missing ≠ []) :
      Ending compute vars last
        (fail (last.postpone v rest (last.resolution.attempt v).missing).cycleFault)
  | failed {v : Variable} {failure : Failure} (queued : v ∈ last.queue)
      (free : (last.resolution.attempt v).missing = [])
      (answer : compute (last.resolution.attempt v).call = .error failure) :
      Ending compute vars last (.error (failure.within
        ("Failed to compute SSI variable " ++ (last.resolution.attempt v).declared.describe)))

theorem resolve_ends (compute : Variable → Except Failure Json) (vars : VariableSet) :
    ∃ last, Progress.Reached (stateless compute) vars () last () ∧
      Ending compute vars last (resolve compute vars) := by
  obtain ⟨last, before, reached, finished⟩ := Progress.resolveWith_ends (stateless compute) vars ()
  refine ⟨last, reached, ?_⟩
  have spec := last.step_spec (stateless compute) before
  rw [finished] at spec
  change Ending compute vars last (resolveWith (stateless compute) vars ()).1
  generalize (resolveWith (stateless compute) vars ()).1 = outcome at spec ⊢
  generalize (resolveWith (stateless compute) vars ()).2 = after at spec
  cases spec with
  | done empty => exact .complete empty
  | stalled first waits round =>
    exact .stalled first (reached.triedInVain.all_stuck first waits round)
  | failed first free new answer =>
    exact .failed (by simp [first]) free (congrArg Prod.fst answer)

theorem resolve_checked_of_runFor {compute : Variable → Except Failure Json} {vars : VariableSet}
    {check : Table → Bool} (steps : Nat)
    (ended : ((Progress.runFor (stateless compute) steps (.start vars) ()).map
      fun answer => answer.1.toOption.map check) = some (some true)) :
    ∃ table, resolve compute vars = .ok table ∧ check table = true := by
  obtain ⟨⟨outcome, state⟩, found, passed⟩ := Option.map_eq_some_iff.1 ended
  have run := Progress.run_of_runFor found
  cases outcome with
  | error failure => cases passed
  | ok table => exact ⟨table, congrArg Prod.fst run, Option.some.inj passed⟩

theorem resolve_fails_of_runFor {compute : Variable → Except Failure Json} {vars : VariableSet}
    {failure : Failure} (steps : Nat)
    (ended : ((Progress.runFor (stateless compute) steps (.start vars) ()).map
      fun answer => match answer.1 with
        | .ok _ => none
        | .error failure => some failure) = some (some failure)) :
    resolve compute vars = .error failure := by
  obtain ⟨⟨outcome, state⟩, found, failed⟩ := Option.map_eq_some_iff.1 ended
  have run := Progress.run_of_runFor found
  cases outcome with
  | ok table => cases failed
  | error other =>
    cases failed
    exact congrArg Prod.fst run

theorem resolve_of_runFor {compute : Variable → Except Failure Json} {vars : VariableSet}
    (steps : Nat) (ended : ((Progress.runFor (stateless compute) steps (.start vars) ()).map
      fun answer => answer.1.isOk) = some true) :
    ∃ table, resolve compute vars = .ok table := by
  obtain ⟨⟨outcome, state⟩, found, success⟩ := Option.map_eq_some_iff.1 ended
  have run := Progress.run_of_runFor found
  cases outcome with
  | error failure => cases success
  | ok table => exact ⟨table, congrArg Prod.fst run⟩

end TwoPhase
