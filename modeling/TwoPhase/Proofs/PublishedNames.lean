import TwoPhase.Proofs.Settlement

/-
The names that values are published under, whether or not two definitions share one: a
variable named by a hash is published under a hash, and one that waits for nothing under its
own name. So a resolution that succeeds has a value for every such variable it was asked for,
and no name in its table holds a character that means something in a directive.
-/
namespace TwoPhase

theorem Sha256.hex_alphanumeric (bytes : List UInt8) : ∀ c ∈ hex bytes, c.isAlphanum = true := by
  have digits : ∀ n < 16, (Nat.digitChar n).isAlphanum = true := by decide
  intro c member
  obtain ⟨byte, _, inByte⟩ := List.mem_flatMap.1 member
  have small : byte.toNat < 256 := byte.toNat_lt
  simp only [List.mem_cons, List.not_mem_nil, or_false] at inByte
  rcases inByte with rfl | rfl
  · exact digits _ (by omega)
  · exact digits _ (by omega)

theorem identifierOf_alphanumeric (definition : Json) :
    ∀ c ∈ (identifierOf definition).toList, c.isAlphanum = true := by
  intro c member
  rw [identifierOf, String.toList_ofList] at member
  rcases List.mem_cons.1 member with rfl | digit
  · rfl
  · exact Sha256.hex_alphanumeric _ c digit

theorem identifierOf_ne_empty (definition : Json) : identifierOf definition ≠ "" := by
  intro empty
  have characters := congrArg String.toList empty
  rw [identifierOf, String.toList_ofList] at characters
  cases characters

def Variable.Hashed (v : Variable) : Prop := v.identifier = identifierOf v.definition

theorem Variable.ofParts_hashed (path : String) (positional : List Arg)
    (named : List (String × Arg)) : (ofParts path positional named).Hashed := by
  unfold Hashed ofParts definition
  rfl

namespace Resolution
variable {state : Resolution} {v : Variable}

theorem attempt_declared_hashed (hashed : v.Hashed) : (state.attempt v).declared.Hashed := by
  by_cases concrete : v.isConcrete = true
  · rw [attempt_declared_of_concrete concrete]
    exact hashed
  · rw [attempt_declared_of_waiting state concrete]
    exact Variable.ofParts_hashed ..

end Resolution

namespace Progress
variable {σ : Type} {compute : Variable → σ → Except Failure Json × σ} {vars : VariableSet}
  {initial : σ} {progress : Progress} {state : σ}

/-- What a step does to the queue and to the names in the table: the variable at the head goes
to the end and no name is new, or it leaves and the name of its declared form is served. -/
theorem Steps.names {next : Progress} {after : σ}
    (steps : progress.Steps compute state (.continued next after)) :
    ∃ v rest, progress.queue = v :: rest ∧
      (next.queue = rest ++ [v] ∧
          next.resolution.table = progress.resolution.table ∨
        (progress.resolution.attempt v).missing = [] ∧ next.queue = rest ∧
          ∀ name, next.resolution.table.contains name = true ↔
            (progress.resolution.attempt v).declared.identifier = name ∨
              progress.resolution.table.contains name = true) := by
  cases steps with
  | @postponed v rest first waits round => exact ⟨v, rest, first, Or.inl ⟨rfl, rfl⟩⟩
  | @present v rest first free held =>
    refine ⟨v, rest, first, Or.inr ⟨free, rfl, fun name => ?_⟩⟩
    rw [publish_table]
    exact ⟨Or.inr, fun served => served.elim (fun same => same ▸ held) id⟩
  | @computed v rest value after first free new answer =>
    refine ⟨v, rest, first, Or.inr ⟨free, rfl, fun name => ?_⟩⟩
    change (((progress.publish v rest _).resolution.table.insert _ value).get? name).isSome = true
      ↔ _
    rw [NameMap.get?_insert, publish_table]
    split
    · next same => simp [same]
    · next other => simp [other, NameMap.contains]

theorem Reached.concrete_served (reached : Reached compute vars initial progress state)
    {v : Variable} (seeded : v ∈ seed vars) (concrete : v.isConcrete = true) :
    v ∈ progress.queue ∨ progress.resolution.table.contains v.identifier = true := by
  induction reached with
  | start => exact Or.inl seeded
  | @next progress following state after reached stepped ih =>
    have spec := progress.step_spec compute state
    rw [stepped] at spec
    obtain ⟨u, rest, first, ⟨turned, kept⟩ | ⟨_, left, served⟩⟩ := spec.names
    · rw [turned, kept]
      exact ih.imp (mem_postponed first).2 id
    · rw [left, served]
      rcases ih with queued | held
      · rw [first] at queued
        rcases List.mem_cons.1 queued with rfl | later
        · rw [Resolution.attempt_declared_of_concrete concrete]
          exact Or.inr (Or.inl rfl)
        · exact Or.inl later
      · exact Or.inr (Or.inr held)

theorem Reached.table_hashed (hashed : ∀ v, Requested vars v → v.Hashed)
    (reached : Reached compute vars initial progress state) {name : String}
    (held : progress.resolution.table.contains name = true) :
    ∃ definition, name = identifierOf definition := by
  induction reached with
  | start => cases held
  | @next progress following state after reached stepped ih =>
    have spec := progress.step_spec compute state
    rw [stepped] at spec
    obtain ⟨u, rest, first, ⟨turned, kept⟩ | ⟨_, left, served⟩⟩ := spec.names
    · exact ih (kept ▸ held)
    · rcases (served name).1 held with own | before
      · have seeded := reached.queued_seeded u (by simp [first])
        have declared : (progress.resolution.attempt u).declared.Hashed :=
          Resolution.attempt_declared_hashed (hashed u (requested_of_mem_seed seeded))
        exact ⟨_, own.symm.trans declared⟩
      · exact ih before

end Progress

section Resolved
variable {compute : Variable → Except Failure Json} {vars : VariableSet} {table : Table}
  (resolved : resolve compute vars = .ok table)
include resolved

theorem resolve_reached : ∃ last, Progress.Reached (stateless compute) vars () last () ∧
    last.queue = [] ∧ last.resolution.table = table := by
  obtain ⟨last, reached, ends⟩ := resolve_ends compute vars
  rw [resolved] at ends
  cases ends with
  | complete empty => exact ⟨last, reached, empty, rfl⟩

theorem resolve_serves {v : Variable} (asked : v ∈ vars.toList) (concrete : v.isConcrete = true) :
    table.contains v.identifier = true := by
  obtain ⟨last, reached, empty, rfl⟩ := resolve_reached resolved
  have seeded := Progress.mem_seed_of_mem_toList asked
  rcases reached.concrete_served seeded concrete with queued | held
  · rw [empty] at queued
    cases queued
  · exact held

theorem resolve_names (hashed : ∀ v, Requested vars v → v.Hashed) {name : String}
    (held : table.contains name = true) : ∃ definition, name = identifierOf definition := by
  obtain ⟨last, reached, _, rfl⟩ := resolve_reached resolved
  exact reached.table_hashed hashed held

end Resolved
end TwoPhase
