/-
Cutting lists at elements of a kind: into the parts between them, or free of them at both ends.
-/
namespace TwoPhase
variable {α : Type}

/-- The parts between elements of a kind; one more than there are such elements. -/
def splitWhere (kind : α → Bool) : List α → List (List α)
  | [] => [[]]
  | a :: rest =>
    if kind a then [] :: splitWhere kind rest
    else
      match splitWhere kind rest with
      | first :: more => (a :: first) :: more
      | [] => [[a]]

def trimWhere (kind : α → Bool) (items : List α) : List α :=
  ((items.dropWhile kind).reverse.dropWhile kind).reverse

theorem splitWhere_ne_nil (kind : α → Bool) (items : List α) : splitWhere kind items ≠ [] := by
  cases items with
  | nil => simp [splitWhere]
  | cons a rest =>
    simp only [splitWhere]
    split
    · simp
    · split <;> simp

theorem splitWhere_append {kind : α → Bool} {stop : α} (separates : kind stop = true)
    (left right : List α) :
    splitWhere kind (left ++ stop :: right) = splitWhere kind left ++ splitWhere kind right := by
  induction left with
  | nil => simp [splitWhere, separates]
  | cons a left ih =>
    obtain ⟨first, more, found⟩ := List.exists_cons_of_ne_nil (splitWhere_ne_nil kind left)
    by_cases same : kind a = true
    · simp [splitWhere, same, ih]
    · simp [splitWhere, same, ih, found]

theorem not_mem_of_splitWhere {kind : α → Bool} {items part : List α}
    (member : part ∈ splitWhere kind items) : ∀ a ∈ part, kind a = false := by
  induction items generalizing part with
  | nil =>
    simp only [splitWhere, List.mem_singleton] at member
    simp [member]
  | cons a rest ih =>
    simp only [splitWhere] at member
    split at member
    · rcases List.mem_cons.1 member with rfl | later
      · simp
      · exact ih later
    · next plain =>
      split at member
      · next first more found =>
        rcases List.mem_cons.1 member with rfl | later
        · intro b inFirst
          rcases List.mem_cons.1 inFirst with rfl | inRest
          · simpa using plain
          · exact ih (found ▸ List.mem_cons_self) b inRest
        · exact ih (found ▸ List.mem_cons_of_mem _ later)
      · next found => exact absurd found (splitWhere_ne_nil kind rest)

end TwoPhase
