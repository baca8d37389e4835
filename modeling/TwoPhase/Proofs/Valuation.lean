import TwoPhase.Proofs.OrderIndependence

/-
What the table of a successful resolution says. `Holds` reads it without knowing the order of
the run: a name has its own entry, or that of the variable it named once the values of
what this variable waits for are filled in. The table gives every variable asked for one
declared form, computed from the entries of the variables nested in it, and holds no more.
-/
namespace TwoPhase
open Progress

/-- The value a table has for a name, under the name itself or the one it was changed to. -/
inductive Holds (vars : VariableSet) (table : Table) : String → Json → Prop where
  | own {name : String} {value : Json} (entry : table.get? name = some value) :
      Holds vars table name value
  | renamed {v : Variable} {values : String → Option Json} {value : Json}
      (requested : Requested vars v)
      (held : ∀ target found, values target = some found → Holds vars table target found)
      (complete : ∀ target ∈ v.expectations, (values target).isSome)
      (entry : table.get? (v.replace values).identifier = some value) :
      Holds vars table v.identifier value

def Declares (vars : VariableSet) (table : Table) (v declared : Variable) : Prop :=
  ∃ values : String → Option Json,
    (∀ target found, values target = some found → Holds vars table target found) ∧
    (∀ target ∈ v.expectations, (values target).isSome) ∧ declared = v.replace values

theorem Holds.mono {vars : VariableSet} {table more : Table}
    (grows : ∀ name value, table.get? name = some value → more.get? name = some value)
    {name : String} {value : Json} (holds : Holds vars table name value) :
    Holds vars more name value := by
  induction holds with
  | own entry => exact .own (grows _ _ entry)
  | renamed requested held complete entry ih =>
    exact .renamed requested ih complete (grows _ _ entry)

section Runs
variable {σ : Type} {compute : Variable → σ → Except Failure Json × σ} {vars : VariableSet}
  {initial : σ}

theorem Accounted.value?_of_concrete {queue : List Variable} {state : Resolution}
    (accounted : Accounted compute vars initial queue state)
    (trusted : Unambiguous compute vars initial) {v : Variable}
    (arises : Arises compute vars initial v) (concrete : v.expectations = []) :
    state.value? v.identifier = state.table.get? v.identifier := by
  unfold Resolution.value?
  cases found : state.aliases.get? v.identifier with
  | none => simp
  | some published =>
    obtain ⟨u, seeded, named, waits, _⟩ := accounted.renamed _ _ found
    have same := trusted.eq_of_identifier_eq
      (arises_of_seeded seeded (Variable.self_mem_family u)) arises named
    exact absurd (same ▸ concrete) waits

theorem Accounted.settle_holds {state next : Resolution} {v : Variable} {value : Json}
    {rest : List Variable} (accounted : Accounted compute vars initial (v :: rest) state)
    (trusted : Unambiguous compute vars initial) (seeded : v ∈ seed vars)
    (settles : Settles compute state next v value)
    (holds : ∀ target found, state.value? target = some found → Holds vars state.table target found) :
    ∀ target found, next.value? target = some found → Holds vars next.table target found := by
  have grows := accounted.grows trusted seeded settles
  have kept : ∀ target found, state.value? target = some found →
      Holds vars next.table target found :=
    fun target found known => (holds target found known).mono grows.table
  intro target found known
  unfold Resolution.value? at known
  rcases Option.or_eq_some_iff.1 known with own | ⟨_, other⟩
  · exact .own own
  · obtain ⟨published, renamed, entry⟩ := Option.bind_eq_some_iff.1 other
    rw [settles.aliases] at renamed
    split at renamed
    · next here =>
      cases renamed
      rw [← here.2]
      exact .renamed (requested_of_mem_seed seeded) kept settles.ready.1 entry
    · -- An older alias had its entry before, so its value has been derived already.
      obtain ⟨u, _, named, _, done, same⟩ := accounted.renamed target published renamed
      obtain ⟨old, held⟩ := Option.isSome_iff_exists.1 done.settled.published
      rw [same] at held
      have equal : old = found := Option.some.inj ((grows.table _ _ held).symm.trans entry)
      apply kept
      simp [Resolution.value?, accounted.disjoint trusted target published renamed, renamed, held,
        equal]

theorem Progress.Reached.holds {progress : Progress} {state : σ}
    (reached : Reached compute vars initial progress state)
    (trusted : Unambiguous compute vars initial) :
    ∀ target found, progress.resolution.value? target = some found →
      Holds vars progress.resolution.table target found := by
  refine reached.settling_induction (motive := fun _ resolution => ∀ target found,
    resolution.value? target = some found → Holds vars resolution.table target found)
    trusted.seeds_proper ?_ ?_ ?_
  · intro target found known
    cases known
  · exact fun holds => holds
  · intro progress before v rest next value reached first settles ih
    have queued : v ∈ progress.queue := by simp [first]
    have accounted := reached.accounted trusted
    rw [first] at accounted
    exact accounted.settle_holds trusted (reached.queued_seeded v queued) settles ih

end Runs

section Complete
variable {compute : Variable → Except Failure Json} {vars : VariableSet} {last : Progress}

theorem Progress.Closed.done_of_complete (closed : Closed compute vars last)
    (empty : last.queue = []) {v : Variable} (requested : Requested vars v) :
    Done (stateless compute) vars () last.resolution v := by
  rcases closed.accounted.seeded v (closed.trusted.mem_seed_iff.2 requested) with queued | done
  · simp [empty] at queued
  · exact done

theorem Progress.Closed.value?_of_holds (closed : Closed compute vars last)
    (empty : last.queue = []) {name : String} {value : Json}
    (holds : Holds vars last.resolution.table name value) :
    last.resolution.value? name = some value := by
  induction holds with
  | own entry => simp [Resolution.value?, entry]
  | @renamed v values value requested held complete entry ih =>
    have done := closed.done_of_complete empty requested
    have declared : v.replace values = last.resolution.declared v := by
      apply Variable.replace_congr
      intro target member
      obtain ⟨found, known⟩ := Option.isSome_iff_exists.1 (complete target member)
      rw [known, ih target found known]
    rw [declared] at entry
    by_cases same : (last.resolution.declared v).identifier = v.identifier
    · simp [Resolution.value?, ← same, entry]
    · rw [Resolution.value?_of_settled done.settled closed.disjoint same, entry]

theorem Progress.Closed.declares_iff (closed : Closed compute vars last)
    (empty : last.queue = []) {v d : Variable} (requested : Requested vars v) :
    Declares vars last.resolution.table v d ↔ d = last.resolution.declared v := by
  constructor
  · rintro ⟨values, held, complete, rfl⟩
    apply Variable.replace_congr
    intro target member
    obtain ⟨found, known⟩ := Option.isSome_iff_exists.1 (complete target member)
    rw [known, closed.value?_of_holds empty (held target found known)]
  · rintro rfl
    have done := closed.done_of_complete empty requested
    exact ⟨last.resolution.value?, closed.reached.holds closed.trusted, done.settled.ready.1, rfl⟩

theorem Progress.Closed.nested_entries (closed : Closed compute vars last) {v inner : Variable}
    (done : Done (stateless compute) vars () last.resolution v)
    (nested : .nested inner ∈ (last.resolution.declared v).arguments) :
    last.resolution.value? inner.identifier = last.resolution.table.get? inner.identifier := by
  apply closed.accounted.value?_of_concrete closed.trusted
  · exact done.arises inner (Variable.nested_mem_family nested)
  · exact Variable.concrete_of_nested done.arises_declared.2 nested

end Complete

/-- Each variable asked for has one declared form, whose entry is what the computation gives for
it once the entries of its nested variables stand in their place; and there is no other entry. -/
structure Valuation (compute : Variable → Except Failure Json) (vars : VariableSet)
    (table : Table) : Prop where
  entry : ∀ v, Requested vars v → ∃ d, Declares vars table v d ∧
    (∀ other, Declares vars table v other → other = d) ∧
    (∀ inner, .nested inner ∈ d.arguments → (table.get? inner.identifier).isSome) ∧
    ∃ value, table.get? d.identifier = some value ∧ compute (d.supply table.get?) = .ok value
  nothing_else : ∀ name value, table.get? name = some value →
    ∃ v d, Requested vars v ∧ Declares vars table v d ∧ d.identifier = name

theorem resolve_valuation (compute : Variable → Except Failure Json) (vars : VariableSet)
    (trusted : Unambiguous (stateless compute) vars ()) {table : Table}
    (resolved : resolve compute vars = .ok table) : Valuation compute vars table := by
  obtain ⟨last, reached, ending⟩ := resolve_ends compute vars
  rw [resolved] at ending
  cases ending with
  | complete empty =>
    have closed : Closed compute vars last := ⟨trusted, reached, by simp [empty]⟩
    constructor
    · intro v requested
      have done := closed.done_of_complete empty requested
      have own : ∀ inner, .nested inner ∈ (last.resolution.declared v).arguments →
          last.resolution.value? inner.identifier =
            last.resolution.table.get? inner.identifier :=
        fun inner nested => closed.nested_entries done nested
      obtain ⟨value, held, answer⟩ := closed.entry_computed done
      refine ⟨last.resolution.declared v, (closed.declares_iff empty requested).2 rfl, ?_, ?_,
        value, held, ?_⟩
      · exact fun other declares => (closed.declares_iff empty requested).1 declares
      · intro inner nested
        rw [← own inner nested]
        exact done.settled.ready.2 inner nested
      · rw [← Variable.supply_congr own]
        exact answer
    · intro name value held
      obtain ⟨v, seeded, _, named, _⟩ := closed.accounted.entered name value held
      have requested := requested_of_mem_seed seeded
      exact ⟨v, _, requested, (closed.declares_iff empty requested).2 rfl, named⟩

theorem quotes_valuation :
    ∃ table, resolve (Quotes.registry.compute (.ofLocation "/")) (.ofList Quotes.asked) = .ok table ∧
      Valuation (Quotes.registry.compute (.ofLocation "/")) (.ofList Quotes.asked) table := by
  obtain ⟨table, resolved⟩ : ∃ table,
      resolve (Quotes.registry.compute (.ofLocation "/")) (.ofList Quotes.asked) = .ok table :=
    resolve_of_runFor 6 (by decide +kernel)
  have trusted := Quotes.unambiguous_reordered (.ofLocation "/") rfl (.refl Quotes.asked)
  exact ⟨table, resolved, resolve_valuation _ _ trusted.2 resolved⟩

end TwoPhase
