import TwoPhase.Proofs.RelatedLists
import TwoPhase.Proofs.Runs

/-
The calls that one resolution makes. They are read off a run whose computation keeps a log
beside its state; the log changes nothing else. While a run goes on, the log and the table say
the same: every call was answered by a value, the value stands under the name of the call, and
no name was called twice.
-/
namespace TwoPhase
variable {σ τ : Type}

section Projection

def Step.mapState (seen : τ → σ) : Step τ → Step σ
  | .finished outcome state => .finished outcome (seen state)
  | .continued progress state => .continued progress (seen state)

variable {seen : τ → σ} {fine : Variable → τ → Except Failure Json × τ}
  {coarse : Variable → σ → Except Failure Json × σ}
  (same : ∀ v state, ((fine v state).1, seen (fine v state).2) = coarse v (seen state))
include same

namespace Progress

theorem settle_mapState (progress : Progress) (v : Variable) (rest : List Variable)
    (attempt : Attempt) (state : τ) :
    progress.settle coarse v rest attempt (seen state) =
      (progress.settle fine v rest attempt state).mapState seen := by
  unfold settle
  dsimp only
  split
  · rfl
  · rw [← same attempt.call state]
    obtain ⟨answer, after⟩ := fine attempt.call state
    cases answer <;> rfl

theorem step_mapState (progress : Progress) (state : τ) :
    progress.step coarse (seen state) = (progress.step fine state).mapState seen := by
  unfold step
  split
  · rfl
  · dsimp only
    split
    · exact settle_mapState same ..
    · split <;> rfl

theorem run_mapState (progress : Progress) (state : τ) : progress.run coarse (seen state) =
    ((progress.run fine state).1, seen (progress.run fine state).2) := by
  induction progress, state using Progress.run.induct fine with
  | case1 progress state outcome after stepped =>
    have stepped' := step_mapState same progress state
    rw [stepped] at stepped'
    rw [run, run, stepped, stepped']
    rfl
  | case2 progress state next after stepped ih =>
    have stepped' := step_mapState same progress state
    rw [stepped] at stepped'
    rw [run, run, stepped, stepped']
    exact ih

end Progress
end Projection

structure Call where
  form : Variable
  answer : Except Failure Json

def Call.Literal (call : Call) : Prop := ∀ arg ∈ call.form.arguments, arg.value?.isSome

/-- The computation with a log of its calls, the latest at the end. -/
def recording (compute : Variable → σ → Except Failure Json × σ) :
    Variable → σ × List Call → Except Failure Json × (σ × List Call) :=
  fun v kept =>
    ((compute v kept.1).1, (compute v kept.1).2, kept.2 ++ [⟨v, (compute v kept.1).1⟩])

theorem recording_log {compute : Variable → σ → Except Failure Json × σ} {v : Variable}
    {kept after : σ × List Call} {answer : Except Failure Json}
    (answered : recording compute v kept = (answer, after)) :
    after.2 = kept.2 ++ [⟨v, answer⟩] := by
  unfold recording at answered
  cases answered
  rfl

def callsOf (compute : Variable → σ → Except Failure Json × σ) (vars : VariableSet)
    (initial : σ) : List Call :=
  (resolveWith (recording compute) vars (initial, [])).2.2

theorem resolveWith_recording (compute : Variable → σ → Except Failure Json × σ)
    (vars : VariableSet) (initial : σ) :
    resolveWith (recording compute) vars (initial, []) =
      ((resolveWith compute vars initial).1, (resolveWith compute vars initial).2,
        callsOf compute vars initial) := by
  have whole := @Progress.run_mapState _ _ Prod.fst (recording compute) compute (fun _ _ => rfl)
    (.start vars) (initial, [])
  unfold callsOf resolveWith
  rw [whole]

section PlainArguments

theorem exists_mapM_of_forall {α β : Type} {f : α → Option β} {xs : List α}
    (each : ∀ x ∈ xs, (f x).isSome) : ∃ ys, xs.mapM f = some ys := by
  obtain ⟨ys, answered⟩ := exists_forall₂ fun x member => Option.isSome_iff_exists.1 (each x member)
  exact ⟨ys, mapM_eq_some_iff.2 answered⟩

theorem Variable.plainArguments?_of_literals {v : Variable}
    (literal : ∀ arg ∈ v.arguments, arg.value?.isSome) :
    ∃ positional named, v.plainArguments? = some (positional, named) := by
  obtain ⟨positional, read⟩ := exists_mapM_of_forall fun arg member =>
    literal arg (List.mem_append_left _ member)
  have literalNamed : ∀ entry ∈ v.named, (entry.2.value?.map (entry.1, ·)).isSome := by
    intro entry member
    rw [Option.isSome_map]
    exact literal entry.2 (List.mem_append_right _ (List.mem_map_of_mem member))
  obtain ⟨named, readNamed⟩ := exists_mapM_of_forall literalNamed
  refine ⟨positional, named, ?_⟩
  unfold plainArguments?
  rw [read]
  exact congrArg (fun answer => answer.bind fun named => some (positional, named)) readNamed

theorem Resolution.attempt_call_literal {state : Resolution} {v : Variable}
    (free : (state.attempt v).missing = []) :
    ∀ arg ∈ (state.attempt v).call.arguments, arg.value?.isSome := by
  rw [attempt_missing, List.append_eq_nil_iff, unknown_eq_nil, callForm_snd_eq_nil] at free
  obtain ⟨known, supplied⟩ := free
  intro arg member
  rw [attempt_call_supply, Variable.arguments_supply, List.mem_map] at member
  obtain ⟨declared, inDeclared, rfl⟩ := member
  cases declared with
  | value json => rfl
  | nested inner =>
    obtain ⟨value, found⟩ := Option.isSome_iff_exists.1 (supplied inner inDeclared)
    simp [Arg.supply, found, Arg.value?]
  | expect target =>
    -- Such an expectation would have been one without a value.
    obtain ⟨given, inV, image⟩ := (state.mem_attempt_declared).1 inDeclared
    cases given with
    | value json => simp [substituteArg] at image
    | nested inner => simp [substituteArg] at image
    | expect wanted =>
      obtain ⟨value, found⟩ := Option.isSome_iff_exists.1
        (known wanted (Variable.mem_expectations.2 (Or.inl inV)))
      simp [substituteArg, found] at image

end PlainArguments

section Log
variable {compute : Variable → σ → Except Failure Json × σ} {vars : VariableSet} {initial : σ}
  {table : Table} {log : List Call}

structure Logged (table : Table) (log : List Call) : Prop where
  once : (log.map fun call => call.form.identifier).Nodup
  literal : ∀ call ∈ log, call.Literal
  answered : ∀ call ∈ log, ∃ value, call.answer = .ok value ∧
    table.get? call.form.identifier = some value
  entered : ∀ name value, table.get? name = some value →
    ∃ call ∈ log, call.form.identifier = name

theorem Logged.once_append (logged : Logged table log) {call : Call}
    (new : table.contains call.form.identifier = false) :
    ((log ++ [call]).map fun call => call.form.identifier).Nodup := by
  rw [List.map_append, List.nodup_append]
  refine ⟨logged.once, by simp, ?_⟩
  intro name called other single same
  obtain ⟨earlier, inLog, rfl⟩ := List.mem_map.1 called
  obtain ⟨value, _, held⟩ := logged.answered earlier inLog
  have named : earlier.form.identifier = call.form.identifier :=
    same.trans (List.mem_singleton.1 single)
  rw [named] at held
  simp [NameMap.contains, held] at new

theorem Logged.store (logged : Logged table log) {form : Variable} {value : Json}
    (literal : ∀ arg ∈ form.arguments, arg.value?.isSome)
    (new : table.contains form.identifier = false) :
    Logged (table.insert form.identifier value) (log ++ [⟨form, .ok value⟩]) := by
  have absent : table.get? form.identifier = none :=
    Option.not_isSome_iff_eq_none.1 (Bool.eq_false_iff.1 new)
  refine ⟨logged.once_append new, ?_, ?_, ?_⟩
  · rw [List.forall_mem_append, List.forall_mem_singleton]
    exact ⟨logged.literal, literal⟩
  · intro call member
    rw [NameMap.get?_insert]
    rcases List.mem_append.1 member with early | late
    · obtain ⟨found, answer, held⟩ := logged.answered call early
      have apart : form.identifier ≠ call.form.identifier := by
        intro same
        rw [← same, absent] at held
        cases held
      rw [if_neg apart]
      exact ⟨found, answer, held⟩
    · cases List.mem_singleton.1 late
      exact ⟨value, rfl, if_pos rfl⟩
  · intro name held found
    rw [NameMap.get?_insert] at found
    split at found
    · next same => exact ⟨⟨form, .ok value⟩, by simp, same⟩
    · obtain ⟨call, member, named⟩ := logged.entered name held found
      exact ⟨call, List.mem_append_left _ member, named⟩

theorem Progress.Reached.logged {progress : Progress} {kept : σ × List Call}
    (reached : Reached (recording compute) vars (initial, []) progress kept) :
    Logged progress.resolution.table kept.2 := by
  induction reached with
  | start =>
    refine ⟨List.nodup_nil, by simp, by simp, ?_⟩
    intro name value found
    cases found
  | @next progress following kept after reached stepped ih =>
    have spec := progress.step_spec (recording compute) kept
    rw [stepped] at spec
    cases spec with
    | postponed first waits round => exact ih
    | @present v rest first free held =>
      rw [publish_table]
      exact ih
    | @computed v rest value after first free new answer =>
      rw [recording_log answer]
      change Logged ((progress.publish v rest _).resolution.table.insert _ value) _
      rw [publish_table]
      exact ih.store (Resolution.attempt_call_literal free) new

end Log

/-- A failure of the computation is passed on in the frame of the variable it was for. -/
def PassedOn (form : Variable) (failure : Failure) (outcome : Except Failure Table) : Prop :=
  ∃ declared : Variable, declared.identifier = form.identifier ∧ declared.path = form.path ∧
    outcome = .error (failure.within ("Failed to compute SSI variable " ++ declared.describe))

/-- What the calls of a resolution have to do with its outcome: no two have one name, their
arguments are plain values, a failing one is the last, and a table holds their answers. -/
structure ComputedOnce (calls : List Call) (outcome : Except Failure Table) : Prop where
  once : (calls.map fun call => call.form.identifier).Nodup
  plain : ∀ call ∈ calls, ∃ positional named,
    call.form.plainArguments? = some (positional, named) ∧
    ∀ (registry : Registry) (ctx : RequestContext), registry.compute ctx call.form =
      (registry.computations.get? call.form.path).elim (fail (.unknownComputation call.form.path))
        fun computation => computation ctx positional named
  stops : ∀ earlier call later failure, calls = earlier ++ call :: later →
    call.answer = .error failure → later = [] ∧ PassedOn call.form failure outcome
  entries : ∀ table, outcome = .ok table →
    (calls.map fun call => call.form.identifier).Perm table.names ∧
    ∀ call ∈ calls, ∃ value, call.answer = .ok value ∧
      table.get? call.form.identifier = some value

theorem Call.Literal.computed {call : Call} (literal : call.Literal) :
    ∃ positional named, call.form.plainArguments? = some (positional, named) ∧
      ∀ (registry : Registry) (ctx : RequestContext), registry.compute ctx call.form =
        (registry.computations.get? call.form.path).elim
          (fail (.unknownComputation call.form.path))
          fun computation => computation ctx positional named := by
  obtain ⟨positional, named, read⟩ := Variable.plainArguments?_of_literals literal
  refine ⟨positional, named, read, ?_⟩
  intro registry ctx
  unfold Registry.compute
  rw [read]
  dsimp only
  cases registry.computations.get? call.form.path <;> rfl

theorem Logged.names_perm {table : Table} {log : List Call} (logged : Logged table log) :
    (log.map fun call => call.form.identifier).Perm table.names := by
  refine (List.perm_ext_iff_of_nodup logged.once (Entries.names_nodup table.ordered)).2 ?_
  intro name
  constructor
  · intro called
    obtain ⟨call, member, rfl⟩ := List.mem_map.1 called
    obtain ⟨value, _, held⟩ := logged.answered call member
    exact List.mem_map_of_mem (f := Prod.fst) (Entries.mem_of_get? held)
  · intro held
    obtain ⟨entry, member, rfl⟩ := List.mem_map.1 held
    obtain ⟨value, found⟩ := Option.isSome_iff_exists.1 (Entries.get?_isSome_of_mem member)
    obtain ⟨call, inLog, named⟩ := logged.entered entry.1 value found
    exact List.mem_map.2 ⟨call, inLog, named⟩

theorem Logged.computedOnce {table : Table} {log : List Call} (logged : Logged table log)
    {outcome : Except Failure Table} (ends : ∀ other, outcome = .ok other → other = table) :
    ComputedOnce log outcome where
  once := logged.once
  plain call member := (logged.literal call member).computed
  stops earlier call later failure split failed := by
    obtain ⟨value, answer, _⟩ := logged.answered call (by simp [split])
    rw [answer] at failed
    cases failed
  entries other succeeded := by
    cases ends other succeeded
    exact ⟨logged.names_perm, logged.answered⟩

theorem Logged.computedOnce_failed {table : Table} {log : List Call} (logged : Logged table log)
    {form : Variable} {failure : Failure} {outcome : Except Failure Table}
    (literal : ∀ arg ∈ form.arguments, arg.value?.isSome)
    (new : table.contains form.identifier = false) (passed : PassedOn form failure outcome) :
    ComputedOnce (log ++ [⟨form, .error failure⟩]) outcome where
  once := logged.once_append new
  plain := by
    rw [List.forall_mem_append, List.forall_mem_singleton]
    exact ⟨fun call member => (logged.literal call member).computed, Call.Literal.computed literal⟩
  stops earlier call later other split failed := by
    rcases List.eq_nil_or_concat later with rfl | ⟨before, last, rfl⟩
    · have same := List.append_inj_right' split rfl
      cases List.head_eq_of_cons_eq same
      cases failed
      exact ⟨rfl, passed⟩
    · -- With a call after it, the failing one would stand in the log before.
      have shorter : log = earlier ++ call :: before := by
        have split : log ++ [⟨form, .error failure⟩] = (earlier ++ call :: before) ++ [last] := by
          simpa using split
        exact List.append_inj_left' split rfl
      obtain ⟨value, answer, _⟩ := logged.answered call (by simp [shorter])
      rw [answer] at failed
      cases failed
  entries table succeeded := by
    obtain ⟨declared, _, _, failed⟩ := passed
    rw [failed] at succeeded
    cases succeeded

/-- Whatever the computation remembers and whenever it fails, a resolution calls it at most once
for a name and with plain values only, stops at the first failure, and a table holds exactly
what the calls returned. -/
theorem resolve_computes_once (compute : Variable → σ → Except Failure Json × σ)
    (vars : VariableSet) (initial : σ) :
    resolveWith (recording compute) vars (initial, []) =
        ((resolveWith compute vars initial).1, (resolveWith compute vars initial).2,
          callsOf compute vars initial) ∧
      ComputedOnce (callsOf compute vars initial) (resolveWith compute vars initial).1 := by
  have recorded := resolveWith_recording compute vars initial
  refine ⟨recorded, ?_⟩
  obtain ⟨last, kept, reached, finished⟩ :=
    Progress.resolveWith_ends (recording compute) vars (initial, [])
  have spec := last.step_spec (recording compute) kept
  rw [finished, recorded] at spec
  generalize (resolveWith compute vars initial).1 = outcome at spec ⊢
  generalize callsOf compute vars initial = calls at spec ⊢
  generalize (resolveWith compute vars initial).2 = state at spec
  have logged := reached.logged
  cases spec with
  | done empty => exact logged.computedOnce fun table same => (Except.ok.inj same).symm
  | stalled first waits round => exact logged.computedOnce fun table same => by cases same
  | @failed v rest failure after first free new answer =>
    have log : calls = kept.2 ++ [⟨(last.resolution.attempt v).call, .error failure⟩] :=
      recording_log answer
    rw [log]
    exact logged.computedOnce_failed (Resolution.attempt_call_literal free) new
      ⟨(last.resolution.attempt v).declared, rfl, rfl, rfl⟩

end TwoPhase
