import TwoPhase.Proofs.Runs

/-
What is true of every state of a run over properly named variables: each variable seeded is
still queued or settled, and whatever the table and the aliases hold was put there by a
settled variable. Values are never taken back, so what was settled once stays so. All this
rests on identifiers that are not shared by two definitions met on the way.
-/
namespace TwoPhase
variable {σ : Type}

namespace Resolution
variable {a b c : Resolution} {v : Variable}

def declared (state : Resolution) (v : Variable) : Variable := v.replace state.value?

def call (state : Resolution) (v : Variable) : Variable :=
  (state.declared v).supply state.value?

theorem waits_of_renamed (proper : v.Proper)
    (renamed : (a.declared v).identifier ≠ v.identifier) : v.expectations ≠ [] := by
  intro concrete
  have kept : a.declared v = v := Variable.replace_of_concrete proper concrete
  exact renamed (by rw [kept])

def Below (a b : Resolution) : Prop :=
  ∀ target value, a.value? target = some value → b.value? target = some value

theorem Below.isSome (below : a.Below b) {target : String} (known : (a.value? target).isSome) :
    b.value? target = a.value? target := by
  obtain ⟨value, found⟩ := Option.isSome_iff_exists.1 known
  rw [found, below target value found]

theorem Ready.declared_eq (below : a.Below b) (ready : a.Ready v) :
    b.declared v = a.declared v :=
  Variable.replace_congr fun target member => below.isSome (ready.1 target member)

theorem Ready.call_eq (below : a.Below b) (ready : a.Ready v) : b.call v = a.call v := by
  unfold call
  rw [ready.declared_eq below]
  apply Variable.supply_congr
  intro inner member
  exact below.isSome (ready.2 inner member)

theorem Ready.mono (below : a.Below b) (ready : a.Ready v) : b.Ready v := by
  constructor
  · intro target member
    rw [below.isSome (ready.1 target member)]
    exact ready.1 target member
  · intro inner member
    have same : b.declared v = a.declared v := ready.declared_eq below
    change .nested inner ∈ (b.declared v).arguments at member
    rw [same] at member
    rw [below.isSome (ready.2 inner member)]
    exact ready.2 inner member

structure Settled (state : Resolution) (v : Variable) : Prop where
  ready : state.Ready v
  published : (state.table.get? (state.declared v).identifier).isSome
  renamed : (state.declared v).identifier ≠ v.identifier →
    state.aliases.get? v.identifier = some (state.declared v).identifier

structure Grows (a b : Resolution) : Prop where
  table : ∀ name value, a.table.get? name = some value → b.table.get? name = some value
  aliases : ∀ name published, a.aliases.get? name = some published →
    b.aliases.get? name = some published

def Disjoint (state : Resolution) : Prop :=
  ∀ name published, state.aliases.get? name = some published → state.table.get? name = none

theorem Grows.below (grows : a.Grows b) (disjoint : b.Disjoint) : a.Below b := by
  intro target value found
  unfold value? at found ⊢
  cases own : a.table.get? target with
  | some held =>
    rw [own] at found
    simp only [Option.some_or, Option.some.injEq] at found
    simp [grows.table target held own, found]
  | none =>
    -- No entry made since can hide the alias.
    rw [own, Option.none_or, Option.bind_eq_some_iff] at found
    obtain ⟨published, renamed, held⟩ := found
    have renamed := grows.aliases target published renamed
    simp [disjoint target published renamed, renamed, grows.table published value held]

theorem Settled.mono (grows : a.Grows b) (disjoint : b.Disjoint) (settled : a.Settled v) :
    b.Settled v := by
  have below := grows.below disjoint
  have same := settled.ready.declared_eq below
  refine ⟨settled.ready.mono below, ?_, ?_⟩
  · obtain ⟨value, held⟩ := Option.isSome_iff_exists.1 settled.published
    rw [same, grows.table _ value held]
    rfl
  · intro differs
    rw [same] at differs ⊢
    exact grows.aliases _ _ (settled.renamed differs)

theorem value?_of_settled (settled : a.Settled v) (disjoint : a.Disjoint)
    (apart : (a.declared v).identifier ≠ v.identifier) :
    a.value? v.identifier = a.table.get? (a.declared v).identifier := by
  have alias_found := settled.renamed apart
  simp [value?, disjoint _ _ alias_found, alias_found]

theorem Settled.declared_known (settled : a.Settled v) :
    (a.value? (a.declared v).identifier).isSome := by
  obtain ⟨value, held⟩ := Option.isSome_iff_exists.1 settled.published
  simp [value?, held]

theorem Settled.known (settled : a.Settled v) (disjoint : a.Disjoint) :
    (a.value? v.identifier).isSome := by
  by_cases same : (a.declared v).identifier = v.identifier
  · rw [← same]
    exact settled.declared_known
  · rw [value?_of_settled settled disjoint same]
    exact settled.published

theorem value?_given {answers : Json → Prop}
    (held : ∀ name value, a.table.get? name = some value → answers value) :
    ∀ target value, a.value? target = some value → answers value := by
  intro target value found
  unfold value? at found
  rcases Option.or_eq_some_iff.1 found with own | ⟨_, other⟩
  · exact held target value own
  · obtain ⟨published, _, entry⟩ := Option.bind_eq_some_iff.1 other
    exact held published value entry

end Resolution

def Requested (vars : VariableSet) (v : Variable) : Prop := ∃ u ∈ vars.toList, v ∈ u.family

theorem Requested.proper {vars : VariableSet} {v : Variable} (requested : Requested vars v)
    (proper : ∀ u ∈ vars.toList, u.Proper) : v.Proper := by
  obtain ⟨u, asked, inside⟩ := requested
  exact (proper u asked).of_mem_family inside

theorem Requested.of_same_members {a b : VariableSet} {v : Variable} (requested : Requested a v)
    (same : ∀ u, u ∈ a.toList ↔ u ∈ b.toList) : Requested b v := by
  obtain ⟨u, asked, inside⟩ := requested
  exact ⟨u, (same u).1 asked, inside⟩

/-- The variables whose names matter in a run: those in the queue and those that attempts
declare, with everything nested in them. -/
def Arises (compute : Variable → σ → Except Failure Json × σ) (vars : VariableSet) (initial : σ)
    (v : Variable) : Prop :=
  ∃ progress state, Progress.Reached compute vars initial progress state ∧
    ((∃ u ∈ progress.queue, v ∈ u.family) ∨
      ∃ u rest, progress.queue = u :: rest ∧
        v ∈ (progress.resolution.attempt u).declared.family)

/-- Names can be trusted in a run: they are hashes, no two definitions share one, and no literal or
computed value can be mistaken for a nested variable or an expectation. -/
structure Unambiguous (compute : Variable → σ → Except Failure Json × σ) (vars : VariableSet)
    (initial : σ) : Prop where
  proper : ∀ v ∈ vars.toList, v.Proper
  untagged : ∀ progress state, Progress.Reached compute vars initial progress state →
    ∀ name value, progress.resolution.table.get? name = some value → ¬ value.IsTagged
  distinct : ∀ v w, Arises compute vars initial v → Arises compute vars initial w →
    v.identifier = w.identifier → v.definition = w.definition

namespace Progress

theorem mem_of_mem_foldl_seed {nested queue : List Variable} {v : Variable}
    (member : v ∈ nested.foldl (fun queue w =>
      if queue.any (·.identifier = w.identifier) then queue else queue ++ [w]) queue) :
    v ∈ queue ∨ v ∈ nested := by
  induction nested generalizing queue with
  | nil => exact Or.inl member
  | cons w nested ih =>
    rw [List.foldl_cons] at member
    rcases ih member with early | late
    · split at early
      · exact Or.inl early
      · rcases List.mem_append.1 early with old | new
        · exact Or.inl old
        · exact Or.inr (by simp [List.mem_singleton.1 new])
    · exact Or.inr (List.mem_cons_of_mem _ late)

theorem exists_mem_foldl_seed {nested queue : List Variable} {v : Variable}
    (member : v ∈ queue ∨ v ∈ nested) :
    ∃ w ∈ nested.foldl (fun queue w =>
      if queue.any (·.identifier = w.identifier) then queue else queue ++ [w]) queue,
      w.identifier = v.identifier := by
  induction nested generalizing queue v with
  | nil =>
    rcases member with old | new
    · exact ⟨v, old, rfl⟩
    · cases new
  | cons w nested ih =>
    rw [List.foldl_cons]
    rcases member with old | new
    · apply ih (Or.inl _)
      split
      · exact old
      · exact List.mem_append_left _ old
    · rcases List.mem_cons.1 new with rfl | later
      · split
        · next held =>
          -- One of this name is queued already and stands for it.
          obtain ⟨u, inQueue, same⟩ := List.any_eq_true.1 held
          obtain ⟨t, inSeed, named⟩ := ih (v := u) (Or.inl inQueue)
          exact ⟨t, inSeed, named.trans (of_decide_eq_true same)⟩
        · exact ih (Or.inl (by simp))
      · exact ih (Or.inr later)

theorem requested_of_mem_seed {vars : VariableSet} {v : Variable} (member : v ∈ seed vars) :
    Requested vars v := by
  rcases mem_of_mem_foldl_seed member with asked | nested
  · exact ⟨v, asked, Variable.self_mem_family v⟩
  · obtain ⟨u, asked, inside⟩ := List.mem_flatMap.1 nested
    exact ⟨u, asked, List.mem_append_left _ inside⟩

theorem exists_mem_seed {vars : VariableSet} {v : Variable} (requested : Requested vars v) :
    ∃ w ∈ seed vars, w.identifier = v.identifier := by
  obtain ⟨u, asked, inside⟩ := requested
  apply exists_mem_foldl_seed
  rcases List.mem_append.1 inside with nested | self
  · exact Or.inr (List.mem_flatMap.2 ⟨u, asked, nested⟩)
  · exact Or.inl (List.mem_singleton.1 self ▸ asked)

theorem mem_foldl_seed_of_mem {nested queue : List Variable} {v : Variable} (member : v ∈ queue) :
    v ∈ nested.foldl (fun queue w =>
      if queue.any (·.identifier = w.identifier) then queue else queue ++ [w]) queue := by
  induction nested generalizing queue with
  | nil => exact member
  | cons w nested ih =>
    rw [List.foldl_cons]
    apply ih
    split
    · exact member
    · exact List.mem_append_left _ member

theorem mem_seed_of_mem_toList {vars : VariableSet} {v : Variable} (asked : v ∈ vars.toList) :
    v ∈ seed vars :=
  mem_foldl_seed_of_mem asked

theorem Reached.queued_seeded {compute : Variable → σ → Except Failure Json × σ}
    {vars : VariableSet} {initial : σ} {progress : Progress} {state : σ}
    (reached : Reached compute vars initial progress state) :
    ∀ v ∈ progress.queue, v ∈ seed vars := by
  induction reached with
  | start => exact fun v member => member
  | @next progress following state after reached stepped ih =>
    have spec := progress.step_spec compute state
    rw [stepped] at spec
    intro v member
    apply ih v
    cases spec with
    | postponed first waits round => exact (mem_postponed first).1 member
    | present first free held => exact first ▸ List.mem_cons_of_mem _ member
    | computed first free new answer => exact first ▸ List.mem_cons_of_mem _ member

end Progress

section Trusted
variable {compute : Variable → σ → Except Failure Json × σ} {vars : VariableSet} {initial : σ}
open Progress

theorem arises_of_seeded {u v : Variable} (seeded : u ∈ seed vars) (inside : v ∈ u.family) :
    Arises compute vars initial v :=
  ⟨.start vars, initial, .start, Or.inl ⟨u, seeded, inside⟩⟩

theorem arises_of_requested {v : Variable} (requested : Requested vars v) :
    Arises compute vars initial v := by
  obtain ⟨u, asked, inside⟩ := requested
  exact arises_of_seeded (mem_seed_of_mem_toList asked) inside

namespace Unambiguous
variable (trusted : Unambiguous compute vars initial)
include trusted

theorem proper_of_requested {v : Variable} (requested : Requested vars v) : v.Proper :=
  requested.proper trusted.proper

theorem proper_of_seeded {v : Variable} (seeded : v ∈ seed vars) : v.Proper :=
  trusted.proper_of_requested (requested_of_mem_seed seeded)

theorem proper_of_queued {progress : Progress} {state : σ}
    (reached : Reached compute vars initial progress state) {v : Variable}
    (queued : v ∈ progress.queue) : v.Proper :=
  trusted.proper_of_seeded (reached.queued_seeded v queued)

theorem declared_proper {progress : Progress} {state : σ}
    (reached : Reached compute vars initial progress state) {v : Variable} (proper : v.Proper) :
    (progress.resolution.declared v).Proper :=
  Variable.replace_proper proper (Resolution.value?_given (trusted.untagged _ _ reached))

theorem proper_of_arises {v : Variable} (arises : Arises compute vars initial v) : v.Proper := by
  obtain ⟨progress, state, reached, queued | attempted⟩ := arises
  · obtain ⟨u, member, inside⟩ := queued
    exact (trusted.proper_of_queued reached member).of_mem_family inside
  · obtain ⟨u, rest, first, inside⟩ := attempted
    have proper : u.Proper := trusted.proper_of_queued reached (by simp [first])
    rw [Resolution.attempt_declared _ proper] at inside
    exact (trusted.declared_proper reached proper).of_mem_family inside

theorem eq_of_identifier_eq {v w : Variable} (left : Arises compute vars initial v)
    (right : Arises compute vars initial w) (same : v.identifier = w.identifier) : v = w :=
  (trusted.proper_of_arises left).eq_of_definition_eq (trusted.proper_of_arises right)
    (trusted.distinct v w left right same)

theorem mem_seed_iff {v : Variable} : v ∈ seed vars ↔ Requested vars v := by
  constructor
  · exact requested_of_mem_seed
  · intro requested
    obtain ⟨w, seeded, same⟩ := exists_mem_seed requested
    have equal := trusted.eq_of_identifier_eq
      (arises_of_seeded seeded (Variable.self_mem_family w)) (arises_of_requested requested) same
    exact equal ▸ seeded

end Unambiguous

structure Done (compute : Variable → σ → Except Failure Json × σ) (vars : VariableSet) (initial : σ)
    (state : Resolution) (v : Variable) : Prop where
  settled : state.Settled v
  arises : ∀ w ∈ (state.declared v).family, Arises compute vars initial w

theorem Done.mono {a b : Resolution} {v : Variable} (grows : a.Grows b) (disjoint : b.Disjoint)
    (done : Done compute vars initial a v) : Done compute vars initial b v := by
  refine ⟨done.settled.mono grows disjoint, ?_⟩
  rw [done.settled.ready.declared_eq (grows.below disjoint)]
  exact done.arises

/-- The account of a state: where the queue, the aliases and the entries come from. -/
structure Accounted (compute : Variable → σ → Except Failure Json × σ) (vars : VariableSet)
    (initial : σ) (queue : List Variable) (state : Resolution) : Prop where
  seeded : ∀ v ∈ seed vars, v ∈ queue ∨ Done compute vars initial state v
  renamed : ∀ name published, state.aliases.get? name = some published →
    ∃ v ∈ seed vars, v.identifier = name ∧ v.expectations ≠ [] ∧
      Done compute vars initial state v ∧ (state.declared v).identifier = published
  entered : ∀ name value, state.table.get? name = some value →
    ∃ v ∈ seed vars, Done compute vars initial state v ∧ (state.declared v).identifier = name ∧
      ∃ before after, compute (state.call v) before = (.ok value, after)

namespace Unambiguous
variable (trusted : Unambiguous compute vars initial)
include trusted

/-- A renamed variable waited for something, and an entry belongs to a variable that waits for
nothing; so they have different names. -/
theorem disjoint_of_sources {state : Resolution}
    (renamed : ∀ name published, state.aliases.get? name = some published →
      ∃ v, Arises compute vars initial v ∧ v.identifier = name ∧ v.expectations ≠ [])
    (entered : ∀ name value, state.table.get? name = some value →
      ∃ d, Arises compute vars initial d ∧ d.identifier = name ∧ d.expectations = []) :
    state.Disjoint := by
  intro name published found
  cases held : state.table.get? name with
  | none => rfl
  | some value =>
    obtain ⟨v, left, named, waits⟩ := renamed name published found
    obtain ⟨d, right, entry, concrete⟩ := entered name value held
    have same := trusted.eq_of_identifier_eq left right (named.trans entry.symm)
    exact absurd (same ▸ concrete) waits

end Unambiguous

theorem Done.arises_declared {state : Resolution} {v : Variable}
    (done : Done compute vars initial state v) :
    Arises compute vars initial (state.declared v) ∧ (state.declared v).expectations = [] :=
  ⟨done.arises _ (Variable.self_mem_family _), Variable.isConcrete_replace done.settled.ready.1⟩

theorem Accounted.disjoint {queue : List Variable} {state : Resolution}
    (accounted : Accounted compute vars initial queue state)
    (trusted : Unambiguous compute vars initial) : state.Disjoint := by
  apply trusted.disjoint_of_sources
  · intro name published found
    obtain ⟨v, seeded, named, waits, _⟩ := accounted.renamed name published found
    exact ⟨v, arises_of_seeded seeded (Variable.self_mem_family v), named, waits⟩
  · intro name value held
    obtain ⟨v, _, done, named, _⟩ := accounted.entered name value held
    exact ⟨_, done.arises_declared.1, named, done.arises_declared.2⟩

/-- What settling the variable at the head of the queue does to the state: its declared form has
the value, whether new or held before, and its name is remembered if the two differ. -/
structure Settles (compute : Variable → σ → Except Failure Json × σ) (state next : Resolution)
    (v : Variable) (value : Json) : Prop where
  ready : state.Ready v
  aliases : ∀ name, next.aliases.get? name =
    if (state.declared v).identifier ≠ v.identifier ∧ v.identifier = name then
      some (state.declared v).identifier
    else state.aliases.get? name
  table : ∀ name, next.table.get? name =
    if (state.declared v).identifier = name then some value else state.table.get? name
  source : state.table.get? (state.declared v).identifier = some value ∨
    state.table.get? (state.declared v).identifier = none ∧
      ∃ before after, compute (state.call v) before = (.ok value, after)

section Settling
variable {state next : Resolution} {v : Variable} {value : Json} {rest : List Variable}

theorem Accounted.grows (accounted : Accounted compute vars initial (v :: rest) state)
    (trusted : Unambiguous compute vars initial) (seeded : v ∈ seed vars)
    (settles : Settles compute state next v value) : state.Grows next := by
  constructor
  · intro name held found
    rw [settles.table]
    split
    · next same =>
      subst same
      rcases settles.source with old | ⟨absent, _⟩
      · rw [← old, found]
      · rw [absent] at found
        cases found
    · exact found
  · intro name published found
    rw [settles.aliases]
    split
    · next renamed =>
      obtain ⟨u, inSeed, named, _, _, same⟩ := accounted.renamed name published found
      have equal : u = v := trusted.eq_of_identifier_eq
        (arises_of_seeded inSeed (Variable.self_mem_family u))
        (arises_of_seeded seeded (Variable.self_mem_family v)) (named.trans renamed.2.symm)
      rw [← equal, same]
    · exact found

theorem Accounted.next_disjoint (accounted : Accounted compute vars initial (v :: rest) state)
    (trusted : Unambiguous compute vars initial) (seeded : v ∈ seed vars)
    (settles : Settles compute state next v value)
    (arises : ∀ w ∈ (state.declared v).family, Arises compute vars initial w) : next.Disjoint := by
  apply trusted.disjoint_of_sources
  · intro name published found
    rw [settles.aliases] at found
    split at found
    · next renamed =>
      exact ⟨v, arises_of_seeded seeded (Variable.self_mem_family v), renamed.2,
        Resolution.waits_of_renamed (trusted.proper_of_seeded seeded) renamed.1⟩
    · obtain ⟨u, inSeed, named, waits, _⟩ := accounted.renamed name published found
      exact ⟨u, arises_of_seeded inSeed (Variable.self_mem_family u), named, waits⟩
  · intro name held found
    rw [settles.table] at found
    split at found
    · next same =>
      exact ⟨_, arises _ (Variable.self_mem_family _), same,
        Variable.isConcrete_replace settles.ready.1⟩
    · obtain ⟨u, _, done, named, _⟩ := accounted.entered name held found
      exact ⟨_, done.arises_declared.1, named, done.arises_declared.2⟩

theorem Settles.done (settles : Settles compute state next v value) (grows : state.Grows next)
    (disjoint : next.Disjoint)
    (arises : ∀ w ∈ (state.declared v).family, Arises compute vars initial w) :
    Done compute vars initial next v := by
  have below := grows.below disjoint
  have same := settles.ready.declared_eq below
  refine ⟨⟨settles.ready.mono below, ?_, ?_⟩, ?_⟩
  · rw [same, settles.table, if_pos rfl]
    rfl
  · intro differs
    rw [same] at differs ⊢
    rw [settles.aliases, if_pos ⟨differs, rfl⟩]
  · rw [same]
    exact arises

theorem Accounted.settle (accounted : Accounted compute vars initial (v :: rest) state)
    (trusted : Unambiguous compute vars initial) (seeded : v ∈ seed vars)
    (settles : Settles compute state next v value)
    (arises : ∀ w ∈ (state.declared v).family, Arises compute vars initial w) :
    Accounted compute vars initial rest next := by
  have grows := accounted.grows trusted seeded settles
  have disjoint := accounted.next_disjoint trusted seeded settles arises
  have below := grows.below disjoint
  have done : Done compute vars initial next v := settles.done grows disjoint arises
  constructor
  · intro u inSeed
    rcases accounted.seeded u inSeed with queued | before
    · rcases List.mem_cons.1 queued with rfl | later
      · exact Or.inr done
      · exact Or.inl later
    · exact Or.inr (before.mono grows disjoint)
  · intro name published found
    rw [settles.aliases] at found
    split at found
    · next renamed =>
      cases found
      exact ⟨v, seeded, renamed.2,
        Resolution.waits_of_renamed (trusted.proper_of_seeded seeded) renamed.1, done,
        by rw [settles.ready.declared_eq below]⟩
    · obtain ⟨u, inSeed, named, waits, before, same⟩ := accounted.renamed name published found
      refine ⟨u, inSeed, named, waits, before.mono grows disjoint, ?_⟩
      rw [before.settled.ready.declared_eq below, same]
  · -- What a settled variable calls for does not change any more, so old entries stay explained.
    have old : ∀ name held, state.table.get? name = some held →
        ∃ u ∈ seed vars, Done compute vars initial next u ∧ (next.declared u).identifier = name ∧
          ∃ before after, compute (next.call u) before = (.ok held, after) := by
      intro name held found
      obtain ⟨u, inSeed, before, named, answer⟩ := accounted.entered name held found
      have ready := before.settled.ready
      refine ⟨u, inSeed, before.mono grows disjoint, ?_, ?_⟩
      · rw [ready.declared_eq below, named]
      · rw [ready.call_eq below]
        exact answer
    intro name held found
    rw [settles.table] at found
    split at found
    · next same =>
      cases found
      rcases settles.source with present | ⟨_, answer⟩
      · exact old name value (same ▸ present)
      · refine ⟨v, seeded, done, ?_, ?_⟩
        · rw [settles.ready.declared_eq below, same]
        · rw [settles.ready.call_eq below]
          exact answer
    · exact old name held found

end Settling

theorem publish_aliases (progress : Progress) (v : Variable) (rest : List Variable)
    (published name : String) :
    (progress.publish v rest published).resolution.aliases.get? name =
      if published ≠ v.identifier ∧ v.identifier = name then some published
      else progress.resolution.aliases.get? name := by
  unfold publish
  by_cases same : published = v.identifier
  · simp [same]
  · simp [same, NameMap.get?_insert]

theorem Progress.Steps.settles {progress next : Progress} {state after : σ} {v : Variable}
    {rest : List Variable} (proper : v.Proper)
    (steps : progress.Steps compute state (.continued next after))
    (first : progress.queue = v :: rest) (free : (progress.resolution.attempt v).missing = []) :
    next.queue = rest ∧
      ∃ value, Settles compute progress.resolution next.resolution v value := by
  have ready := (Resolution.attempt_missing_eq_nil proper).1 free
  have declared : (progress.resolution.attempt v).declared = progress.resolution.declared v :=
    Resolution.attempt_declared _ proper
  have call : (progress.resolution.attempt v).call = progress.resolution.call v :=
    Resolution.attempt_call _ proper
  cases steps with
  | postponed first' waits round =>
    rw [first] at first'
    cases first'
    exact absurd free waits
  | present first' free' held =>
    rw [first] at first'
    cases first'
    rw [declared] at held ⊢
    obtain ⟨value, found⟩ := Option.isSome_iff_exists.1 held
    refine ⟨rfl, value, ready, ?_, ?_, Or.inl found⟩
    · intro name
      exact publish_aliases _ _ _ _ _
    · intro name
      rw [publish_table]
      split
      · next same => rw [← same, found]
      · rfl
  | @computed v' rest' value after' first' free' new answer =>
    rw [first] at first'
    cases first'
    rw [declared] at new ⊢
    rw [call] at answer
    have absent : progress.resolution.table.get? (progress.resolution.declared v).identifier = none :=
      Option.not_isSome_iff_eq_none.1 (Bool.eq_false_iff.1 new)
    refine ⟨rfl, value, ready, ?_, ?_, Or.inr ⟨absent, state, after, answer⟩⟩
    · intro name
      exact publish_aliases _ _ _ _ _
    · intro name
      change ((progress.publish v rest _).resolution.table.insert _ value).get? name = _
      rw [NameMap.get?_insert, publish_table]

/-- Induction along a run, in terms of what is queued and known: an attempt in vain only turns the
queue, any other takes its head out and settles it. -/
theorem Progress.Reached.settling_induction {motive : List Variable → Resolution → Prop}
    (proper : ∀ v ∈ seed vars, v.Proper) (start : motive (seed vars) {})
    (turn : ∀ {v rest state}, motive (v :: rest) state → motive (rest ++ [v]) state)
    (settle : ∀ {progress : Progress} {before : σ} {v rest next value},
      Reached compute vars initial progress before → progress.queue = v :: rest →
      Settles compute progress.resolution next v value →
      motive (v :: rest) progress.resolution → motive rest next)
    {progress : Progress} {state : σ} (reached : Reached compute vars initial progress state) :
    motive progress.queue progress.resolution := by
  induction reached with
  | start => exact start
  | @next progress following state after reached stepped ih =>
    have spec := progress.step_spec compute state
    rw [stepped] at spec
    have settled : ∀ {v rest}, progress.queue = v :: rest →
        (progress.resolution.attempt v).missing = [] →
        motive following.queue following.resolution := by
      intro v rest first free
      have seeded := reached.queued_seeded v (by simp [first])
      obtain ⟨left, value, settles⟩ := spec.settles (proper v seeded) first free
      rw [left]
      exact settle reached first settles (first ▸ ih)
    cases spec with
    | postponed first waits round => exact turn (first ▸ ih)
    | present first free held => exact settled first free
    | computed first free new answer => exact settled first free

theorem Unambiguous.seeds_proper (trusted : Unambiguous compute vars initial) :
    ∀ v ∈ seed vars, v.Proper :=
  fun _ seeded => trusted.proper_of_seeded seeded

theorem Progress.Reached.accounted {progress : Progress} {state : σ}
    (reached : Reached compute vars initial progress state)
    (trusted : Unambiguous compute vars initial) :
    Accounted compute vars initial progress.queue progress.resolution := by
  refine reached.settling_induction trusted.seeds_proper ?_ ?_ ?_
  · refine ⟨fun v member => Or.inl member, ?_, ?_⟩
    · intro name published found
      cases found
    · intro name value found
      cases found
  · intro v rest state ih
    refine ⟨?_, ih.renamed, ih.entered⟩
    intro u inSeed
    rcases ih.seeded u inSeed with queued | done
    · left
      rcases List.mem_cons.1 queued with rfl | later
      · exact List.mem_append_right _ (by simp)
      · exact List.mem_append_left _ later
    · exact Or.inr done
  · intro progress before v rest next value reached first settles ih
    have queued : v ∈ progress.queue := by simp [first]
    have proper := trusted.proper_of_queued reached queued
    refine ih.settle trusted (reached.queued_seeded v queued) settles ?_
    intro w inside
    refine ⟨progress, before, reached, Or.inr ⟨v, rest, first, ?_⟩⟩
    rw [Resolution.attempt_declared _ proper]
    exact inside

end Trusted
end TwoPhase
