import Mathlib.Data.List.Rotate
import Mathlib.Tactic.Ring
import TwoPhase.Proofs.PublishedNames

/-
When a resolution gives up. In a stuck state every variable in the queue misses a value; the
attempts of one round then only turn the queue, and the run stops when it has come round. A
state of the run is stuck in the middle of a round exactly if it was at the start of it. No
round is longer than the queue and each success shortens the queue, so every run ends.
-/
namespace TwoPhase
variable {σ : Type}

namespace Progress
variable {compute : Variable → σ → Except Failure Json × σ} {vars : VariableSet} {initial : σ}
  {progress following : Progress} {state after : σ}

/-- There are variables in the queue, and each of them misses a value. -/
def Stuck (progress : Progress) : Prop :=
  progress.queue ≠ [] ∧ ∀ v ∈ progress.queue, (progress.resolution.attempt v).missing ≠ []

def MidRound (progress : Progress) : Prop :=
  progress.streak < progress.queue.length ∨ progress.streak = 0

def roundEnd (progress : Progress) : List Variable :=
  progress.queue.rotate (progress.queue.length - progress.streak)

theorem roundEnd_of_fresh (fresh : progress.streak = 0) : progress.roundEnd = progress.queue := by
  rw [roundEnd, fresh, Nat.sub_zero, List.rotate_length]

theorem Steps.measured (steps : progress.Steps compute state (.continued following after)) :
    (following.queue.length = progress.queue.length ∧ following.streak = progress.streak + 1 ∧
        following.streak < following.queue.length) ∨
      (following.queue.length + 1 = progress.queue.length ∧ following.streak = 0) := by
  cases steps with
  | postponed first waits round => left; simp [postpone, first]; omega
  | present first free held => right; simp [publish, first]
  | computed first free new answer => right; simp [publish, store, first]

theorem MidRound.next (steps : progress.Steps compute state (.continued following after)) :
    following.MidRound := by
  rcases steps.measured with ⟨_, _, short⟩ | ⟨_, fresh⟩
  · exact Or.inl short
  · exact Or.inr fresh

theorem Reached.midRound (reached : Reached compute vars initial progress state) :
    progress.MidRound := by
  cases reached with
  | start => exact Or.inr rfl
  | @next before _ earlier _ _ stepped =>
    have spec := before.step_spec compute earlier
    rw [stepped] at spec
    exact MidRound.next spec

theorem exists_runFor (compute : Variable → σ → Except Failure Json × σ) (progress : Progress)
    (state : σ) (mid : progress.MidRound) :
    ∃ steps, steps + progress.streak ≤ progress.queue.length * progress.queue.length + 1 ∧
      runFor compute steps progress state = some (progress.run compute state) := by
  induction progress, state using Progress.run.induct compute with
  | case1 progress state outcome after stepped =>
    refine ⟨1, ?_, ?_⟩
    · have square : progress.queue.length ≤ progress.queue.length * progress.queue.length :=
        Nat.le_mul_self _
      rcases mid with short | fresh <;> omega
    · rw [run, runFor, stepped]
  | case2 progress state following after stepped ih =>
    have spec := progress.step_spec compute state
    rw [stepped] at spec
    obtain ⟨steps, bound, ended⟩ := ih (MidRound.next spec)
    refine ⟨steps + 1, ?_, ?_⟩
    · rcases spec.measured with ⟨same, more, _⟩ | ⟨shorter, fresh⟩
      · rw [same, more] at bound
        omega
      · -- The round that ends here had at most one attempt for each variable.
        have square : progress.queue.length * progress.queue.length =
            following.queue.length * following.queue.length + 2 * following.queue.length + 1 := by
          rw [← shorter]
          ring
        rcases mid with short | fresh' <;> omega
    · rw [run, runFor, stepped]
      exact ended

theorem Reached.run_eq (reached : Reached compute vars initial progress state) :
    resolveWith compute vars initial = progress.run compute state := by
  induction reached with
  | start => rfl
  | next before stepped ih => rw [ih, run, stepped]

theorem Stuck.postpone (stuck : progress.Stuck) {v : Variable} {rest : List Variable}
    (first : progress.queue = v :: rest) (missing : List String) :
    (progress.postpone v rest missing).Stuck := by
  refine ⟨by simp [Progress.postpone], ?_⟩
  intro u member
  exact stuck.2 u ((mem_postponed first).1 member)

theorem roundEnd_postpone {v : Variable} {rest : List Variable}
    (first : progress.queue = v :: rest) (missing : List String)
    (short : progress.streak < progress.queue.length) :
    (progress.postpone v rest missing).roundEnd = progress.roundEnd := by
  have turns : progress.queue.length - progress.streak =
      (progress.queue.length - (progress.streak + 1)) + 1 := by omega
  have length : (rest ++ [v]).length = progress.queue.length := by simp [first]
  unfold roundEnd
  rw [turns]
  simp only [Progress.postpone, length]
  rw [first, List.rotate_cons_succ]

theorem roundEnd_of_last {v : Variable} {rest : List Variable}
    (first : progress.queue = v :: rest) (mid : progress.MidRound)
    (round : rest.length ≤ progress.streak) : progress.roundEnd = rest ++ [v] := by
  have last : progress.queue.length - progress.streak = 1 := by
    have length : progress.queue.length = rest.length + 1 := by simp [first]
    rcases mid with short | fresh <;> omega
  rw [roundEnd, last, first, List.rotate_cons_succ, List.rotate_zero]

/-- From a stuck state a run finishes the round and reports the queue as it stands then. -/
theorem Stuck.run_eq (stuck : progress.Stuck) (mid : progress.MidRound) (state : σ) :
    ∃ cycle, progress.run compute state =
      (fail (.dependencyCycle (progress.roundEnd.map Variable.describe)
        (progress.resolution.table.entries.map fun entry =>
          entry.1 ++ "=" ++ Directive.valueText entry.2) cycle), state) := by
  induction progress, state using Progress.run.induct compute with
  | case1 progress state outcome after stepped =>
    have spec := progress.step_spec compute state
    rw [stepped] at spec
    rw [run, stepped]
    cases spec with
    | done empty => exact absurd empty stuck.1
    | @stalled v rest first waits round =>
      rw [roundEnd_of_last first mid round]
      exact ⟨_, rfl⟩
    | @failed v rest failure _ first free => exact absurd free (stuck.2 v (by simp [first]))
  | case2 progress state following after stepped ih =>
    have spec := progress.step_spec compute state
    rw [stepped] at spec
    have next := MidRound.next spec
    rw [run, stepped]
    cases spec with
    | @postponed v rest first waits round =>
      have short : progress.streak < progress.queue.length := by simp [first]; omega
      obtain ⟨cycle, ended⟩ := ih (stuck.postpone first _) next
      rw [roundEnd_postpone first _ short] at ended
      exact ⟨cycle, ended⟩
    | @present v rest first free => exact absurd free (stuck.2 v (by simp [first]))
    | @computed v rest _ _ first free => exact absurd free (stuck.2 v (by simp [first]))

theorem Reached.round_start (reached : Reached compute vars initial progress state) :
    ∃ start, Reached compute vars initial start state ∧ start.streak = 0 ∧
      start.resolution = progress.resolution ∧
      progress.queue = start.queue.rotate progress.streak := by
  induction reached with
  | start => exact ⟨.start vars, .start, rfl, rfl, (List.rotate_zero _).symm⟩
  | @next progress following state after reached stepped ih =>
    have self := Reached.next reached stepped
    have spec := progress.step_spec compute state
    rw [stepped] at spec
    cases spec with
    | @postponed v rest first waits round =>
      obtain ⟨start, earlier, fresh, same, turned⟩ := ih
      refine ⟨start, earlier, fresh, same, ?_⟩
      change rest ++ [v] = start.queue.rotate (progress.streak + 1)
      rw [← List.rotate_rotate, ← turned, first, List.rotate_cons_succ, List.rotate_zero]
    | present first free held => exact ⟨_, self, rfl, rfl, (List.rotate_zero _).symm⟩
    | computed first free new answer => exact ⟨_, self, rfl, rfl, (List.rotate_zero _).symm⟩

theorem Stuck.of_turned (stuck : progress.Stuck) {start : Progress} {turns : Nat}
    (same : start.resolution = progress.resolution)
    (turned : progress.queue = start.queue.rotate turns) : start.Stuck := by
  have members : ∀ v, v ∈ start.queue ↔ v ∈ progress.queue := fun v => by
    rw [turned, List.mem_rotate]
  refine ⟨?_, ?_⟩
  · intro empty
    rw [empty, List.rotate_nil] at turned
    exact stuck.1 turned
  · intro v member
    rw [same]
    exact stuck.2 v ((members v).1 member)

theorem resolveWith_fail {fault : Fault}
    (gaveUp : (resolveWith compute vars initial).1 = fail fault) :
    ∃ last before v rest, Reached compute vars initial last before ∧
      last.step compute before = .finished (fail fault) before ∧ last.queue = v :: rest ∧
      rest.length ≤ last.streak ∧ last.Stuck ∧
      fault = (last.postpone v rest (last.resolution.attempt v).missing).cycleFault := by
  obtain ⟨last, before, reached, finished⟩ := resolveWith_ends compute vars initial
  rw [gaveUp] at finished
  have spec := last.step_spec compute before
  rw [finished] at spec
  generalize ended : (fail fault : Except Failure Table) = outcome at spec
  generalize (resolveWith compute vars initial).2 = after at spec finished
  cases spec with
  | done empty => cases ended
  | @stalled v rest first waits round =>
    cases ended
    refine ⟨last, before, v, rest, reached, finished, first, round, ⟨by simp [first], ?_⟩, rfl⟩
    exact reached.triedInVain.all_stuck first waits round
  | failed first free new answer =>
    have frames := congrArg Failure.frames (Except.error.inj ended)
    cases frames

def PublishedAs (compute : Variable → σ → Except Failure Json × σ) (vars : VariableSet)
    (initial : σ) (v : Variable) (name : String) : Prop :=
  ∃ progress state rest, Reached compute vars initial progress state ∧
    progress.queue = v :: rest ∧ (progress.resolution.attempt v).missing = [] ∧
    (progress.resolution.attempt v).declared.identifier = name

theorem Reached.queued_or_published (reached : Reached compute vars initial progress state)
    {v : Variable} (seeded : v ∈ seed vars) :
    v ∈ progress.queue ∨ ∃ name, PublishedAs compute vars initial v name ∧
      progress.resolution.table.contains name = true := by
  induction reached with
  | start => exact Or.inl seeded
  | @next progress following state after reached stepped ih =>
    have spec := progress.step_spec compute state
    rw [stepped] at spec
    obtain ⟨u, rest, first, ⟨turned, kept⟩ | ⟨free, left, served⟩⟩ := spec.names
    · rw [turned, kept]
      exact ih.imp (mem_postponed first).2 id
    · rw [left]
      rcases ih with queued | ⟨name, published, held⟩
      · rw [first] at queued
        rcases List.mem_cons.1 queued with rfl | later
        · have published : PublishedAs compute vars initial v _ :=
            ⟨progress, state, rest, reached, first, free, rfl⟩
          exact Or.inr ⟨_, published, (served _).2 (Or.inl rfl)⟩
        · exact Or.inl later
      · exact Or.inr ⟨name, published, (served name).2 (Or.inr held)⟩

end Progress

open Progress

/-- A resolution always ends, within as many steps as the square of the number of its variables and
one more. It gives up exactly if its run reaches a stuck state, and reports the queue as it
stood when the round began in which nothing succeeded; a state in the middle of that round has
the same queue, turned. Every variable not in the queue has its value among the resolved ones. -/
theorem resolve_stalls_iff_stuck (compute : Variable → σ → Except Failure Json × σ)
    (vars : VariableSet) (initial : σ) :
    (∃ steps ≤ (seed vars).length * (seed vars).length + 1,
      runFor compute steps (.start vars) initial = some (resolveWith compute vars initial)) ∧
    (∀ unresolved, (∃ resolved cycle, (resolveWith compute vars initial).1 =
        fail (.dependencyCycle unresolved resolved cycle)) ↔
      ∃ progress state, Reached compute vars initial progress state ∧ progress.Stuck ∧
        progress.streak = 0 ∧ unresolved = progress.queue.map Variable.describe) ∧
    ∀ progress state, Reached compute vars initial progress state → progress.Stuck →
      ∃ resolved cycle,
        resolveWith compute vars initial =
          (fail (.dependencyCycle (progress.roundEnd.map Variable.describe) resolved cycle),
            state) ∧
        ∀ v ∈ seed vars, v ∈ progress.queue ∨ ∃ name value,
          PublishedAs compute vars initial v name ∧
          progress.resolution.table.get? name = some value ∧
          name ++ "=" ++ Directive.valueText value ∈ resolved := by
  have report : ∀ progress state, Reached compute vars initial progress state →
      progress.Stuck → ∃ cycle, resolveWith compute vars initial =
        (fail (.dependencyCycle (progress.roundEnd.map Variable.describe)
          (progress.resolution.table.entries.map fun entry =>
            entry.1 ++ "=" ++ Directive.valueText entry.2) cycle), state) := by
    intro progress state reached stuck
    rw [reached.run_eq]
    exact stuck.run_eq reached.midRound state
  refine ⟨exists_runFor compute (.start vars) initial (Or.inr rfl), ?_, ?_⟩
  · intro unresolved
    constructor
    · rintro ⟨resolved, cycle, gaveUp⟩
      obtain ⟨last, before, _, _, reached, _, _, _, stuck, _⟩ := resolveWith_fail gaveUp
      obtain ⟨start, earlier, fresh, same, turned⟩ := reached.round_start
      have stuckBefore := stuck.of_turned same turned
      obtain ⟨_, reported⟩ := report start before earlier stuckBefore
      rw [reported, roundEnd_of_fresh fresh] at gaveUp
      cases gaveUp
      exact ⟨start, before, earlier, stuckBefore, fresh, rfl⟩
    · rintro ⟨progress, state, reached, stuck, fresh, rfl⟩
      obtain ⟨cycle, reported⟩ := report progress state reached stuck
      rw [roundEnd_of_fresh fresh] at reported
      exact ⟨_, cycle, congrArg Prod.fst reported⟩
  · intro progress state reached stuck
    obtain ⟨cycle, reported⟩ := report progress state reached stuck
    refine ⟨_, cycle, reported, ?_⟩
    intro v seeded
    rcases reached.queued_or_published seeded with queued | ⟨name, published, held⟩
    · exact Or.inl queued
    · obtain ⟨value, found⟩ := Option.isSome_iff_exists.1 held
      exact Or.inr ⟨name, value, published, found,
        List.mem_map.2 ⟨(name, value), Entries.mem_of_get? found, rfl⟩⟩

end TwoPhase
