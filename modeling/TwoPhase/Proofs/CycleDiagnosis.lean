import TwoPhase.Proofs.CycleSearch
import TwoPhase.Proofs.Forms
import TwoPhase.Proofs.Stalls

/-
What the report of a resolution that gave up says about why. The waiting lists are recorded one by
one, but all those of the last round are about the same values, so at its end they are
current. With trusted names every variable left still has an expectation without a value;
if each of these stood for a variable that was seeded, they would lead from one variable
left to another for ever, and the search would have met a cycle.
-/
namespace TwoPhase
variable {σ : Type}

namespace Progress
variable {compute : Variable → σ → Except Failure Json × σ} {vars : VariableSet} {initial : σ}
  {progress : Progress} {state : σ} {v : Variable}

/-- A variable left in the queue under this name misses the value of that one. -/
def Misses (progress : Progress) (name target : String) : Prop :=
  ∃ v ∈ progress.queue, v.identifier = name ∧ target ∈ (progress.resolution.attempt v).missing

section Recording

/-- What is recorded for each of the variables is what one of its name, among them, misses. -/
def Recorded (progress : Progress) (tried : List Variable) : Prop :=
  ∀ v ∈ tried, ∃ u ∈ tried, u.identifier = v.identifier ∧
    progress.waiting.get? v.identifier = some (progress.resolution.attempt u).missing

theorem Recorded.postpone {tried : List Variable} (recorded : progress.Recorded tried)
    (v : Variable) (rest : List Variable) :
    (progress.postpone v rest (progress.resolution.attempt v).missing).Recorded (tried ++ [v]) := by
  intro w member
  change ∃ u ∈ tried ++ [v], u.identifier = w.identifier ∧
    (progress.waiting.insert v.identifier (progress.resolution.attempt v).missing).get?
      w.identifier = some (progress.resolution.attempt u).missing
  rw [NameMap.get?_insert]
  split
  · next same => exact ⟨v, by simp, same, rfl⟩
  · next other =>
    rcases List.mem_append.1 member with early | last
    · obtain ⟨u, inTried, named, waits⟩ := recorded w early
      exact ⟨u, List.mem_append_left _ inTried, named, waits⟩
    · exact absurd (congrArg Variable.identifier (List.mem_singleton.1 last)).symm other

theorem Recorded.of_same_members {tried others : List Variable}
    (recorded : progress.Recorded tried) (same : ∀ v, v ∈ others ↔ v ∈ tried) :
    progress.Recorded others := by
  intro v member
  obtain ⟨u, inTried, named, waits⟩ := recorded v ((same v).1 member)
  exact ⟨u, (same u).2 inTried, named, waits⟩

theorem Reached.recorded (reached : Reached compute vars initial progress state) :
    ∃ untried tried, progress.queue = untried ++ tried ∧ tried.length = progress.streak ∧
      progress.Recorded tried := by
  induction reached with
  | start => exact ⟨_, [], (List.append_nil _).symm, rfl, nofun⟩
  | @next progress following state after reached stepped ih =>
    have spec := progress.step_spec compute state
    rw [stepped] at spec
    cases spec with
    | @postponed v rest first waits round =>
      obtain ⟨untried, tried, split, count, recorded⟩ := ih
      rw [first] at split
      obtain ⟨later, _, left⟩ := untried_of_short split (by omega)
      refine ⟨later, tried ++ [v], ?_, ?_, recorded.postpone v rest⟩
      · simp [postpone, left]
      · simp [postpone, count]
    | present first free held => exact ⟨_, [], (List.append_nil _).symm, rfl, nofun⟩
    | computed first free new answer => exact ⟨_, [], (List.append_nil _).symm, rfl, nofun⟩

theorem Reached.recorded_round (reached : Reached compute vars initial progress state)
    {rest : List Variable} (first : progress.queue = v :: rest)
    (round : rest.length ≤ progress.streak) :
    (progress.postpone v rest (progress.resolution.attempt v).missing).Recorded (rest ++ [v]) := by
  obtain ⟨untried, tried, split, count, recorded⟩ := reached.recorded
  apply (recorded.postpone v rest).of_same_members
  intro w
  rw [first] at split
  rcases tried_of_round split (by omega) with all | others
  · simp [all, or_comm]
  · rw [others]

end Recording

section Graph

theorem misses_postpone {rest : List Variable} (first : progress.queue = v :: rest)
    (missing : List String) {name target : String} :
    (progress.postpone v rest missing).Misses name target ↔ progress.Misses name target := by
  unfold Misses
  simp only [postpone, mem_postponed first]

theorem waitGraph_waits {name target : String} : progress.waitGraph.Waits name target ↔
    ∃ v ∈ progress.queue, v.identifier = name ∧
      target ∈ (progress.waiting.get? v.identifier).getD [] := by
  rw [waitGraph, (WaitGraph.ofWaits_spec _).2, List.mem_flatMap]
  constructor
  · rintro ⟨v, queued, listed⟩
    obtain ⟨_, waits, same⟩ := List.mem_map.1 listed
    cases same
    exact ⟨v, queued, rfl, waits⟩
  · rintro ⟨v, queued, rfl, waits⟩
    exact ⟨v, queued, List.mem_map_of_mem waits⟩

theorem Recorded.waits_missed (recorded : progress.Recorded progress.queue) {name target : String}
    (waits : progress.waitGraph.Waits name target) : progress.Misses name target := by
  obtain ⟨v, queued, rfl, listed⟩ := waitGraph_waits.1 waits
  obtain ⟨u, left, named, current⟩ := recorded v queued
  rw [current, Option.getD_some] at listed
  exact ⟨u, left, named, listed⟩

theorem Recorded.missed_waits (recorded : progress.Recorded progress.queue)
    (apart : ∀ u ∈ progress.queue, ∀ v ∈ progress.queue, u.identifier = v.identifier → u = v)
    {name target : String} (misses : progress.Misses name target) :
    progress.waitGraph.Waits name target := by
  obtain ⟨v, queued, rfl, missing⟩ := misses
  obtain ⟨u, left, named, current⟩ := recorded v queued
  rw [apart u left v queued named] at current
  refine waitGraph_waits.2 ⟨v, queued, rfl, ?_⟩
  rw [current]
  exact missing

end Graph

section Trusted
variable (trusted : Unambiguous compute vars initial)
  (reached : Reached compute vars initial progress state)
include trusted reached

theorem Reached.queued_of_unknown (requested : Requested vars v)
    (unknown : progress.resolution.value? v.identifier = none) : v ∈ progress.queue := by
  have accounted := reached.accounted trusted
  rcases accounted.seeded v (trusted.mem_seed_iff.2 requested) with queued | done
  · exact queued
  · have known := done.settled.known (accounted.disjoint trusted)
    rw [unknown] at known
    cases known

theorem Reached.expects_unknown (stuck : progress.Stuck) (requested : Requested vars v)
    (queued : v ∈ progress.queue) :
    ∃ target ∈ v.expectations, progress.resolution.value? target = none := by
  induction v using Variable.nesting_induction with
  | step v ih =>
    by_contra none
    push Not at none
    have known : ∀ target ∈ v.expectations, (progress.resolution.value? target).isSome :=
      fun target member => Option.isSome_iff_ne_none.2 (none target member)
    apply stuck.2 v queued
    refine (Resolution.attempt_missing_eq_nil (trusted.proper_of_requested requested)).2
      ⟨known, ?_⟩
    intro w member
    obtain ⟨inner, nested, rfl⟩ := Variable.nested_mem_arguments_replace.1 member
    have within : Requested vars inner := by
      obtain ⟨u, asked, inside⟩ := requested
      exact ⟨u, asked, Variable.family_subset inside (Variable.nested_mem_family nested)⟩
    rcases (reached.accounted trusted).seeded inner (trusted.mem_seed_iff.2 within) with
      waiting | done
    · obtain ⟨target, expected, unknown⟩ := ih inner nested within waiting
      have inV := Variable.mem_expectations.2 (Or.inr ⟨inner, nested, expected⟩)
      exact absurd unknown (none target inV)
    · exact done.settled.declared_known

theorem Reached.expects_undeclared (stuck : progress.Stuck) {graph : WaitGraph}
    (complete : ∀ name target, progress.Misses name target → graph.Waits name target)
    (acyclic : ∀ name target, graph.Waits name target → graph.Ends name) :
    ∃ v ∈ progress.queue, ∃ target ∈ v.expectations,
      (∀ u, Requested vars u → u.identifier ≠ target) ∧
      progress.resolution.value? target = none := by
  by_contra none
  push Not at none
  have onward : ∀ name, (∃ v ∈ progress.queue, v.identifier = name) →
      ∃ target, graph.Waits name target ∧ ∃ u ∈ progress.queue, u.identifier = target := by
    rintro name ⟨v, queued, rfl⟩
    have requested := requested_of_mem_seed (reached.queued_seeded v queued)
    obtain ⟨target, expected, unknown⟩ :=
      reached.expects_unknown trusted stuck requested queued
    have seeded : ∃ u, Requested vars u ∧ u.identifier = target := by
      by_contra nobody
      push Not at nobody
      exact none v queued target expected nobody unknown
    obtain ⟨u, asked, rfl⟩ := seeded
    refine ⟨u.identifier, complete _ _ ⟨v, queued, rfl, ?_⟩, u, ?_, rfl⟩
    · rw [Resolution.attempt_missing]
      exact List.mem_append_left _ (by simp [Resolution.unknown, expected, unknown])
    · exact reached.queued_of_unknown trusted asked unknown
  obtain ⟨v, queued⟩ := List.exists_mem_of_ne_nil _ stuck.1
  obtain ⟨target, waits, _⟩ := onward v.identifier ⟨v, queued, rfl⟩
  exact (acyclic _ _ waits).not_endless onward ⟨v, queued, rfl⟩

end Trusted
end Progress

open Progress

/-- A resolution that gives up reports a cycle only if there is one: names with arrows between them
that end where they began and repeat no other, each of them that of a variable left that
misses the value of the next. If it reports none and names can be trusted, then some
variable left has an expectation, of its own or in a variable nested in it, whose target is
the name of no variable asked for or nested in one, and has no value. -/
theorem resolve_diagnosis {compute : Variable → σ → Except Failure Json × σ} {vars : VariableSet}
    {initial : σ} {unresolved resolved : List String} {cycle : Option String}
    (gaveUp : (resolveWith compute vars initial).1 =
      fail (.dependencyCycle unresolved resolved cycle)) :
    ∃ last state, Reached compute vars initial last state ∧
      last.step compute state =
        .finished (fail (.dependencyCycle unresolved resolved cycle)) state ∧
      unresolved = (last.queue.rotate 1).map Variable.describe ∧
      (∀ text, cycle = some text →
        ∃ names, text = joined " → " names ∧ Cycle last.Misses names) ∧
      (cycle = none → Unambiguous compute vars initial →
        ∃ v ∈ last.queue, ∃ target ∈ v.expectations,
          (∀ u, Requested vars u → u.identifier ≠ target) ∧
          last.resolution.value? target = none) := by
  obtain ⟨last, state, v, rest, reached, finished, first, round, stuck, fault⟩ :=
    resolveWith_fail gaveUp
  have recorded := reached.recorded_round first round
  have same := @misses_postpone _ v rest first (last.resolution.attempt v).missing
  refine ⟨last, state, reached, finished, ?_⟩
  generalize turned : last.postpone v rest (last.resolution.attempt v).missing = report
    at recorded same fault
  have queue : report.queue = rest ++ [v] := by rw [← turned, postpone]
  have closed : report.waitGraph.Closed := (WaitGraph.ofWaits_spec _).1
  obtain ⟨found, clear⟩ := WaitGraph.findCycle_spec closed
  rw [← queue] at recorded
  cases fault
  refine ⟨?_, ?_, ?_⟩
  · rw [first, queue, List.rotate_cons_succ, List.rotate_zero]
  · intro text reported
    obtain ⟨names, answer, rfl⟩ := Option.map_eq_some_iff.1 reported
    refine ⟨names, rfl, (found names answer).imp ?_⟩
    intro name target waits
    exact same.1 (recorded.waits_missed waits)
  · intro silent trusted
    have ends := clear (Option.map_eq_none_iff.1 silent)
    have arises : ∀ u ∈ report.queue, Arises compute vars initial u := by
      intro u left
      rw [queue, mem_postponed first] at left
      exact arises_of_seeded (reached.queued_seeded u left) (Variable.self_mem_family u)
    have complete : ∀ name target, last.Misses name target →
        report.waitGraph.Waits name target := by
      intro name target misses
      refine recorded.missed_waits ?_ (same.2 misses)
      intro u left w queued named
      exact trusted.eq_of_identifier_eq (arises u left) (arises w queued) named
    refine reached.expects_undeclared trusted stuck complete ?_
    intro name target waits
    exact ends name (closed name target waits).1

namespace Quotes

def alone : Variable := pick (.expect count.identifier)

def entangled : List Variable :=
  [(pick (.expect "vb")).rename "va", (pick (.expect "va")).rename "vb"]

end Quotes

theorem quotes_diagnosis :
    (∃ last, Reached (stateless (Quotes.registry.compute (.ofLocation "/")))
        (.ofList [Quotes.alone]) () last () ∧
      ∃ v ∈ last.queue, ∃ target ∈ v.expectations,
        (∀ u, Requested (.ofList [Quotes.alone]) u → u.identifier ≠ target) ∧
        last.resolution.value? target = none) ∧
    ∃ last, Reached (stateless (Quotes.registry.compute (.ofLocation "/")))
        (.ofList Quotes.entangled) () last () ∧
      ∃ names, "va → vb → va" = joined " → " names ∧ Cycle last.Misses names := by
  constructor
  · have stalls : resolve (Quotes.registry.compute (.ofLocation "/")) (.ofList [Quotes.alone]) =
        fail (.dependencyCycle [Quotes.alone.describe] [] none) :=
      resolve_fails_of_runFor 1 (by decide +kernel)
    obtain ⟨last, _, reached, _, _, _, undeclared⟩ := resolve_diagnosis stalls
    refine ⟨last, reached, undeclared rfl (Quotes.unambiguous _ rfl ?_)⟩
    intro v member
    rw [VariableSet.toList_ofList (by simp), List.mem_singleton] at member
    simp [member, Quotes.alone, Quotes.asked]
  · have stalls : resolve (Quotes.registry.compute (.ofLocation "/")) (.ofList Quotes.entangled) =
        fail (.dependencyCycle (Quotes.entangled.map Variable.describe) []
          (some "va → vb → va")) :=
      resolve_fails_of_runFor 2 (by decide +kernel)
    obtain ⟨last, _, reached, _, _, cycle, _⟩ := resolve_diagnosis stalls
    exact ⟨last, reached, cycle _ rfl⟩

end TwoPhase
