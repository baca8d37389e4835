import TwoPhase.Proofs.Forms

/-
The order of the variables does not matter. The last state of a run is closed: what can be
computed from its values has been. Any other run over the same variables therefore stays
below it, computes nothing that it did not compute, and so ends with the same values.
-/
namespace TwoPhase
open Progress

def ComputationFailed (compute : Variable → Except Failure Json)
    (outcome : Except Failure Table) : Prop :=
  ∃ (declared call : Variable) (failure : Failure), declared.identifier = call.identifier ∧
    compute call = .error failure ∧
    outcome = .error (failure.within ("Failed to compute SSI variable " ++ declared.describe))

namespace Progress
variable {compute : Variable → Except Failure Json} {a b : VariableSet} {last : Progress}

/-- The last state of a run that no failure of the computation stopped. -/
structure Closed (compute : Variable → Except Failure Json) (vars : VariableSet)
    (last : Progress) : Prop where
  trusted : Unambiguous (stateless compute) vars ()
  reached : Reached (stateless compute) vars () last ()
  stuck : ∀ u ∈ last.queue, (last.resolution.attempt u).missing ≠ []

theorem Closed.accounted (closed : Closed compute a last) :
    Accounted (stateless compute) a () last.queue last.resolution :=
  closed.reached.accounted closed.trusted

theorem Closed.disjoint (closed : Closed compute a last) : last.resolution.Disjoint :=
  closed.accounted.disjoint closed.trusted

theorem Closed.done_of_ready (closed : Closed compute a last) {v : Variable}
    (requested : Requested a v) (ready : last.resolution.Ready v) :
    Done (stateless compute) a () last.resolution v := by
  rcases closed.accounted.seeded v (closed.trusted.mem_seed_iff.2 requested) with queued | done
  · have proper := closed.trusted.proper_of_requested requested
    exact absurd ((Resolution.attempt_missing_eq_nil proper).2 ready) (closed.stuck v queued)
  · exact done

theorem Closed.entry_computed (closed : Closed compute a last) {v : Variable}
    (done : Done (stateless compute) a () last.resolution v) :
    ∃ value, last.resolution.table.get? (last.resolution.declared v).identifier = some value ∧
      compute (last.resolution.call v) = .ok value := by
  obtain ⟨value, held⟩ := Option.isSome_iff_exists.1 done.settled.published
  obtain ⟨u, _, other, named, before, after, answer⟩ := closed.accounted.entered _ _ held
  have same : last.resolution.declared u = last.resolution.declared v :=
    closed.trusted.eq_of_identifier_eq other.arises_declared.1 done.arises_declared.1 named
  refine ⟨value, held, ?_⟩
  have answer := congrArg Prod.fst answer
  unfold Resolution.call at answer ⊢
  rw [← same]
  exact answer

section Other
variable (closed : Closed compute a last) (same : ∀ v, v ∈ a.toList ↔ v ∈ b.toList)
include closed same

omit closed in
theorem requested_of_queued {progress : Progress}
    (reached : Reached (stateless compute) b () progress ()) {v : Variable}
    (queued : v ∈ progress.queue) : Requested a v :=
  (requested_of_mem_seed (reached.queued_seeded v queued)).of_same_members fun u => (same u).symm

/-- What a state below computes next has been computed in the closed state, with the same answer. -/
theorem Closed.computed_before {progress : Progress}
    (reached : Reached (stateless compute) b () progress ())
    (grows : progress.resolution.Grows last.resolution) {v : Variable}
    (queued : v ∈ progress.queue) (ready : progress.resolution.Ready v) :
    last.resolution.Settled v ∧
      last.resolution.declared v = progress.resolution.declared v ∧
      ∃ value, last.resolution.table.get? (progress.resolution.declared v).identifier = some value ∧
        compute (progress.resolution.call v) = .ok value := by
  have below := grows.below closed.disjoint
  have requested := requested_of_queued same reached queued
  have done := closed.done_of_ready requested (ready.mono below)
  have declared := ready.declared_eq below
  have call := ready.call_eq below
  obtain ⟨value, held, answer⟩ := closed.entry_computed done
  exact ⟨done.settled, declared, value, declared ▸ held, call ▸ answer⟩

theorem Closed.bounds_run {progress : Progress}
    (reached : Reached (stateless compute) b () progress ()) :
    progress.resolution.Grows last.resolution := by
  have proper : ∀ v ∈ seed b, v.Proper := by
    intro v seeded
    have requested := (requested_of_mem_seed seeded).of_same_members fun u => (same u).symm
    exact closed.trusted.proper_of_requested requested
  refine reached.settling_induction (motive := fun _ state => state.Grows last.resolution)
    proper ?_ ?_ ?_
  · constructor
    · intro name value found
      cases found
    · intro name published found
      cases found
  · exact fun grows => grows
  · -- The closed state has settled this variable too, with the same declared form and answer.
    intro progress before v rest next value reached first settles ih
    have queued : v ∈ progress.queue := by simp [first]
    obtain ⟨settled, declared, answer, held, computed⟩ :=
      closed.computed_before same reached ih queued settles.ready
    constructor
    · intro name entry found
      rw [settles.table] at found
      split at found
      · next hit =>
        cases found
        rw [← hit]
        rcases settles.source with present | ⟨_, before, after, fresh⟩
        · exact ih.table _ _ present
        · have equal : value = answer :=
            Except.ok.inj ((congrArg Prod.fst fresh).symm.trans computed)
          rw [held, equal]
      · exact ih.table name entry found
    · intro name published found
      rw [settles.aliases] at found
      split at found
      · next renamed =>
        cases found
        rw [← renamed.2, ← declared]
        exact settled.renamed (declared ▸ renamed.1)
      · exact ih.aliases name published found

theorem Closed.no_failure {progress : Progress}
    (reached : Reached (stateless compute) b () progress ()) {v : Variable} {failure : Failure}
    (queued : v ∈ progress.queue) (free : (progress.resolution.attempt v).missing = []) :
    compute (progress.resolution.attempt v).call ≠ .error failure := by
  intro answer
  have proper := closed.trusted.proper_of_requested
    (requested_of_queued same reached queued)
  have ready := (Resolution.attempt_missing_eq_nil proper).1 free
  obtain ⟨_, _, value, _, computed⟩ := closed.computed_before same reached
    (closed.bounds_run same reached) queued ready
  rw [Resolution.attempt_call _ proper] at answer
  cases answer.symm.trans computed

end Other

theorem Closed.same_values {other : Progress} (left : Closed compute a last)
    (right : Closed compute b other) (same : ∀ v, v ∈ a.toList ↔ v ∈ b.toList) :
    last.resolution.table = other.resolution.table ∧ last.resolution.Below other.resolution := by
  have up := right.bounds_run (fun v => (same v).symm) left.reached
  have down := left.bounds_run same right.reached
  refine ⟨?_, up.below right.disjoint⟩
  apply NameMap.ext_get?
  intro name
  cases held : last.resolution.table.get? name with
  | some value => exact (up.table name value held).symm
  | none =>
    cases found : other.resolution.table.get? name with
    | none => rfl
    | some value => exact absurd (down.table name value found) (by simp [held])

theorem Closed.queued_iff {other : Progress} (left : Closed compute a last)
    (right : Closed compute b other) (same : ∀ v, v ∈ a.toList ↔ v ∈ b.toList) {v : Variable}
    (queued : v ∈ last.queue) : v ∈ other.queue := by
  have requested : Requested b v :=
    (requested_of_mem_seed (left.reached.queued_seeded v queued)).of_same_members same
  have proper := right.trusted.proper_of_requested requested
  rcases right.accounted.seeded v (right.trusted.mem_seed_iff.2 requested) with still | done
  · exact still
  · have below := (right.same_values left fun v => (same v).symm).2
    have ready := done.settled.ready.mono below
    exact absurd ((Resolution.attempt_missing_eq_nil proper).2 ready) (left.stuck v queued)

end Progress

/-- Two resolutions come to the same: equal tables; or no way on, with the same variables left and
the same entries made; or a failure of the computation each. -/
inductive OutcomesAgree (compute : Variable → Except Failure Json) :
    Except Failure Table → Except Failure Table → Prop where
  | resolved (table : Table) : OutcomesAgree compute (.ok table) (.ok table)
  | stalled {unresolved others resolved : List String} {cycle other : Option String}
      (same : ∀ line, line ∈ unresolved ↔ line ∈ others) :
      OutcomesAgree compute (fail (.dependencyCycle unresolved resolved cycle))
        (fail (.dependencyCycle others resolved other))
  | failed {left right : Except Failure Table} (first : ComputationFailed compute left)
      (second : ComputationFailed compute right) : OutcomesAgree compute left right

section Endings
variable {compute : Variable → Except Failure Json} {a b : VariableSet} {last other : Progress}
  {left right : Except Failure Table}

theorem Ending.closed (trusted : Unambiguous (stateless compute) a ())
    (reached : Reached (stateless compute) a () last ()) (ending : Ending compute a last left) :
    Closed compute a last ∨ ∃ v ∈ last.queue, ∃ failure, (last.resolution.attempt v).missing = [] ∧
      compute (last.resolution.attempt v).call = .error failure := by
  cases ending with
  | complete empty => exact Or.inl ⟨trusted, reached, by simp [empty]⟩
  | stalled first stuck => exact Or.inl ⟨trusted, reached, stuck⟩
  | failed queued free answer => exact Or.inr ⟨_, queued, _, free, answer⟩

theorem Ending.computation_failed (trusted : Unambiguous (stateless compute) a ())
    (reached : Reached (stateless compute) a () last ()) (ending : Ending compute a last left)
    {v : Variable} (queued : v ∈ last.queue) (free : (last.resolution.attempt v).missing = []) :
    ComputationFailed compute left := by
  cases ending with
  | complete empty => simp [empty] at queued
  | stalled first stuck => exact absurd free (stuck v queued)
  | @failed u failure queued free answer =>
    have proper := trusted.proper_of_queued reached queued
    refine ⟨_, _, failure, ?_, answer, rfl⟩
    rw [Resolution.attempt_declared _ proper, Resolution.attempt_call _ proper]
    rfl

theorem Ending.agree_of_closed (ending : Ending compute a last left)
    (ending' : Ending compute b other right) (closed : Closed compute a last)
    (closed' : Closed compute b other) (same : ∀ v, v ∈ a.toList ↔ v ∈ b.toList) :
    OutcomesAgree compute left right := by
  have tables := (closed.same_values closed' same).1
  have forth := fun v => closed.queued_iff closed' same (v := v)
  have back := fun v => closed'.queued_iff closed (fun v => (same v).symm) (v := v)
  cases ending with
  | complete empty =>
    cases ending' with
    | complete empty' =>
      rw [tables]
      exact .resolved _
    | @stalled v rest first stuck =>
      have still := back v (by simp [first])
      simp [empty] at still
    | failed queued free answer => exact absurd free (closed'.stuck _ queued)
  | @stalled v rest first stuck =>
    cases ending' with
    | complete empty' =>
      have still := forth v (by simp [first])
      simp [empty'] at still
    | @stalled u more first' stuck' =>
      unfold Progress.cycleFault
      dsimp only [Progress.postpone]
      rw [tables]
      apply OutcomesAgree.stalled
      -- What is reported is the queue after one more turn.
      intro line
      have rotated : ∀ w, w ∈ rest ++ [v] ↔ w ∈ more ++ [u] := by
        intro w
        have mine : w ∈ rest ++ [v] ↔ w ∈ last.queue := by simp [first, or_comm]
        have theirs : w ∈ more ++ [u] ↔ w ∈ other.queue := by simp [first', or_comm]
        rw [mine, theirs]
        exact ⟨forth w, back w⟩
      simp only [List.mem_map, rotated]
    | failed queued free answer => exact absurd free (closed'.stuck _ queued)
  | failed queued free answer => exact absurd free (closed.stuck _ queued)

end Endings

theorem resolve_agree_of_same_members (compute : Variable → Except Failure Json)
    {a b : VariableSet} (same : ∀ v, v ∈ a.toList ↔ v ∈ b.toList)
    (trusted : Unambiguous (stateless compute) a ())
    (trusted' : Unambiguous (stateless compute) b ()) :
    OutcomesAgree compute (resolve compute a) (resolve compute b) := by
  obtain ⟨last, reached, ending⟩ := resolve_ends compute a
  obtain ⟨other, reached', ending'⟩ := resolve_ends compute b
  rcases ending.closed trusted reached with closed | ⟨v, queued, failure, free, answer⟩
  · rcases ending'.closed trusted' reached' with closed' | ⟨v, queued, failure, free, answer⟩
    · exact ending.agree_of_closed ending' closed closed' same
    · exact absurd answer (closed.no_failure same reached' queued free)
  · rcases ending'.closed trusted' reached' with closed' | ⟨u, queued', failure', free', answer'⟩
    · exact absurd answer (closed'.no_failure (fun v => (same v).symm) reached queued free)
    · exact .failed (ending.computation_failed trusted reached queued free)
        (ending'.computation_failed trusted' reached' queued' free')

theorem resolve_order_independent (compute : Variable → Except Failure Json) {a b : VariableSet}
    (reordered : a.toList.Perm b.toList) (trusted : Unambiguous (stateless compute) a ())
    (trusted' : Unambiguous (stateless compute) b ()) :
    OutcomesAgree compute (resolve compute a) (resolve compute b) :=
  resolve_agree_of_same_members compute (fun _ => reordered.mem_iff) trusted trusted'

theorem quotes_order_independent :
    OutcomesAgree (Quotes.registry.compute (.ofLocation "/"))
      (resolve (Quotes.registry.compute (.ofLocation "/")) (.ofList Quotes.asked))
      (resolve (Quotes.registry.compute (.ofLocation "/")) (.ofList Quotes.asked.reverse)) := by
  have forth := Quotes.unambiguous_reordered (.ofLocation "/") rfl (.refl Quotes.asked)
  have back := Quotes.unambiguous_reordered (.ofLocation "/") rfl
    (List.reverse_perm Quotes.asked)
  refine resolve_order_independent _ ?_ forth.2 back.2
  rw [forth.1, back.1]
  exact (List.reverse_perm _).symm

end TwoPhase
