import Mathlib.Data.List.Forall2

/-
Lists related member by member, and traversals that succeed on every member.
-/
namespace TwoPhase
variable {α β : Type} {rel : α → β → Prop} {xs : List α} {ys : List β}

theorem exists_of_mem_left (related : List.Forall₂ rel xs ys) {x : α} (member : x ∈ xs) :
    ∃ y ∈ ys, rel x y := by
  induction related with
  | nil => cases member
  | cons first _ ih =>
    rcases List.mem_cons.1 member with rfl | later
    · exact ⟨_, List.mem_cons_self, first⟩
    · obtain ⟨y, inRest, holds⟩ := ih later
      exact ⟨y, List.mem_cons_of_mem _ inRest, holds⟩

theorem exists_of_mem_right (related : List.Forall₂ rel xs ys) {y : β} (member : y ∈ ys) :
    ∃ x ∈ xs, rel x y :=
  exists_of_mem_left related.flip member

theorem map_eq_map_of_related {γ : Type} {f : β → γ} {g : α → γ} (related : List.Forall₂ rel xs ys)
    (same : ∀ x, ∀ y ∈ ys, rel x y → f y = g x) : ys.map f = xs.map g := by
  induction related with
  | nil => rfl
  | cons first _ ih =>
    have later := ih fun x y member => same x y (List.mem_cons_of_mem _ member)
    rw [List.map_cons, List.map_cons, same _ _ List.mem_cons_self first, later]

theorem exists_forall₂ (each : ∀ x ∈ xs, ∃ y, rel x y) : ∃ ys, List.Forall₂ rel xs ys := by
  induction xs with
  | nil => exact ⟨[], .nil⟩
  | cons x xs ih =>
    obtain ⟨y, first⟩ := each x List.mem_cons_self
    obtain ⟨ys, later⟩ := ih fun other member => each other (List.mem_cons_of_mem _ member)
    exact ⟨y :: ys, .cons first later⟩

theorem mapM_eq_some_iff {f : α → Option β} :
    xs.mapM f = some ys ↔ List.Forall₂ (fun x y => f x = some y) xs ys := by
  induction xs generalizing ys with
  | nil => cases ys <;> simp
  | cons x xs ih =>
    rw [List.mapM_cons]
    cases ys with
    | nil => simp [Option.bind_eq_some_iff]
    | cons y ys => simp [Option.bind_eq_some_iff, List.forall₂_cons, ← ih, and_comm]

end TwoPhase
