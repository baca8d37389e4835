import TwoPhase.Directive.Form

/-
Where a scan cannot find anything. A text avoids a mark if no occurrence of the mark begins in
it, whatever follows: it holds none and ends in no beginning of one. Such texts may be put one
after another. A pattern passes over text that avoids the marks its pieces open with.
-/
namespace TwoPhase

/-- No occurrence of the mark begins in the text, whatever follows the text. -/
def Avoids (mark : List Char) : List Char → Prop
  | [] => True
  | c :: text => ¬ mark <+: c :: text ∧ ¬ c :: text <+: mark ∧ Avoids mark text

def decideAvoids (mark : List Char) : (text : List Char) → Decidable (Avoids mark text)
  | [] => isTrue trivial
  | c :: text =>
    have := decideAvoids mark text
    inferInstanceAs (Decidable (¬ mark <+: c :: text ∧ ¬ c :: text <+: mark ∧ Avoids mark text))

instance (mark : List Char) : DecidablePred (Avoids mark) := decideAvoids mark

namespace Avoids
variable {mark text more rest : List Char} {c : Char}

theorem apart (avoids : Avoids mark (c :: text)) (rest : List Char) :
    ¬ mark <+: c :: text ++ rest := by
  intro begins
  rcases List.prefix_or_prefix_of_prefix begins (List.prefix_append (c :: text) rest) with within | longer
  · exact avoids.1 within
  · exact avoids.2.1 longer

theorem append (left : Avoids mark text) (right : Avoids mark more) : Avoids mark (text ++ more) := by
  induction text with
  | nil => exact right
  | cons c text ih =>
    refine ⟨left.apart more, ?_, ih left.2.2⟩
    intro shorter
    exact left.2.1 ((List.prefix_append (c :: text) more).trans shorter)

theorem literal?_eq_none (avoids : Avoids mark (c :: text)) (rest : List Char) :
    literal? mark (c :: text ++ rest) = none := by
  cases found : literal? mark (c :: text ++ rest) with
  | none => rfl
  | some after =>
    have begins : mark <+: c :: text ++ rest := ⟨after, (literal?_eq_some.1 found).symm⟩
    exact absurd begins (avoids.apart rest)

theorem breakAt?_append (avoids : Avoids mark text) (mark_ne_nil : mark ≠ []) (rest : List Char) :
    breakAt? mark (text ++ (mark ++ rest)) = some (text, rest) := by
  induction text with
  | nil =>
    cases mark with
    | nil => exact absurd rfl mark_ne_nil
    | cons m mark =>
      have found : literal? (m :: mark) (m :: (mark ++ rest)) = some rest :=
        literal?_eq_some.2 rfl
      rw [List.nil_append, List.cons_append, breakAt?, found]
  | cons c text ih =>
    have missed := avoids.literal?_eq_none (mark ++ rest)
    rw [List.cons_append] at missed ⊢
    rw [breakAt?, missed, ih avoids.2.2]
    rfl

theorem breakAt?_eq_none (avoids : Avoids mark text) (mark_ne_nil : mark ≠ []) :
    breakAt? mark text = none := by
  induction text with
  | nil =>
    cases mark with
    | nil => exact absurd rfl mark_ne_nil
    | cons m mark => rfl
  | cons c text ih =>
    have missed := avoids.literal?_eq_none []
    rw [List.append_nil] at missed
    rw [breakAt?, missed, ih avoids.2.2]
    rfl

end Avoids

def Clean (marks : List (List Char)) (text : List Char) : Prop := ∀ mark ∈ marks, Avoids mark text

instance (marks : List (List Char)) : DecidablePred (Clean marks) := fun text =>
  inferInstanceAs (Decidable (∀ mark ∈ marks, Avoids mark text))

namespace Clean
variable {marks fewer : List (List Char)} {text more : List Char}

theorem nil (marks : List (List Char)) : Clean marks [] := fun _ _ => trivial

theorem append (left : Clean marks text) (right : Clean marks more) : Clean marks (text ++ more) :=
  fun mark member => (left mark member).append (right mark member)

theorem mono (clean : Clean marks text) (subset : fewer ⊆ marks) : Clean fewer text :=
  fun mark member => clean mark (subset member)

theorem mono_left {others : List (List Char)} (clean : Clean (marks ++ others) text)
    (subset : fewer ⊆ marks) : Clean (fewer ++ others) text := by
  intro mark member
  rcases List.mem_append.1 member with left | right
  · exact clean mark (List.mem_append_left _ (subset left))
  · exact clean mark (List.mem_append_right _ right)

theorem flatMap {α : Type} {pieces : List α} {f : α → List Char}
    (each : ∀ piece ∈ pieces, Clean marks (f piece)) : Clean marks (pieces.flatMap f) := by
  induction pieces with
  | nil => exact nil marks
  | cons piece pieces ih =>
    rw [List.flatMap_cons]
    exact (each piece List.mem_cons_self).append
      (ih fun other member => each other (List.mem_cons_of_mem _ member))

end Clean

namespace Pattern
variable {μ : Type} {pattern : Pattern μ} {marks : List (List Char)} {text more rest : List Char}

/-- Every piece opens with one of the marks. -/
def OpensWith (pattern : Pattern μ) (marks : List (List Char)) : Prop :=
  ∀ text piece rest, pattern.read? text = some (piece, rest) → ∃ mark ∈ marks, mark <+: text

/-- No piece is read that begins in the first text, when the second follows it. -/
def Silent (pattern : Pattern μ) : List Char → List Char → Prop
  | [], _ => True
  | c :: text, rest => pattern.read? (c :: text ++ rest) = none ∧ pattern.Silent text rest

theorem silent_append : pattern.Silent (text ++ more) rest ↔
    pattern.Silent text (more ++ rest) ∧ pattern.Silent more rest := by
  induction text with
  | nil => simp [Silent]
  | cons c text ih => simp [Silent, ih, and_assoc]

theorem silent_of_clean (opens : pattern.OpensWith marks) (clean : Clean marks text)
    (rest : List Char) : pattern.Silent text rest := by
  induction text with
  | nil => trivial
  | cons c text ih =>
    constructor
    · cases found : pattern.read? (c :: text ++ rest) with
      | none => rfl
      | some piece =>
        obtain ⟨mark, member, begins⟩ := opens _ _ _ found
        exact absurd begins ((clean mark member).apart rest)
    · exact ih fun mark member => (clean mark member).2.2

end Pattern

namespace Directive.Form

def fileStart : List Char := includeStart ++ fileWord ++ attributeStart
def virtualStart : List Char := includeStart ++ virtualWord ++ attributeStart

theorem sets_opensWith : sets.OpensWith [setStart] := by
  intro text form rest found
  refine ⟨setStart, List.mem_singleton_self _, ?_⟩
  rw [sets.eq_of_read? found]
  simp [sets, SetForm.source]

theorem echoes_opensWith : echoes.OpensWith [echoStart] := by
  intro text name rest found
  refine ⟨echoStart, List.mem_singleton_self _, ?_⟩
  rw [echoes.eq_of_read? found]
  simp [echoes, echoSource]

theorem ifs_opensWith : ifs.OpensWith [ifStart] := by
  intro text form rest found
  refine ⟨ifStart, List.mem_singleton_self _, ?_⟩
  rw [ifs.eq_of_read? found]
  simp [ifs, IfForm.source, IfForm.header]

theorem references_opensWith : references.OpensWith [referenceStart] := by
  intro text name rest found
  refine ⟨referenceStart, List.mem_singleton_self _, ?_⟩
  rw [references.eq_of_read? found]
  simp [references, referenceSource]

theorem IncludeForm.keyword_cases {text keyword rest : List Char}
    (found : keyword? text = some (keyword, rest)) : keyword = virtualWord ∨ keyword = fileWord := by
  unfold keyword? at found
  split at found
  · cases found
    exact Or.inl rfl
  · obtain ⟨_, _, pair⟩ := Option.map_eq_some_iff.1 found
    cases pair
    exact Or.inr rfl

theorem IncludeForm.keyword_of_read? {text rest : List Char} {form : IncludeForm}
    (found : read? text = some (form, rest)) :
    form.keyword = virtualWord ∨ form.keyword = fileWord := by
  simp only [read?, Option.bind_eq_bind, Option.bind_eq_some_iff, Prod.exists] at found
  obtain ⟨_, _, keyword, _, worded, _, _, _, _, _, _, _, pair⟩ := found
  cases pair
  exact keyword_cases worded

theorem includes_opensWith : includes.OpensWith [fileStart, virtualStart] := by
  intro text form rest found
  rw [includes.eq_of_read? found]
  rcases IncludeForm.keyword_of_read? found with isVirtual | isFile
  · refine ⟨virtualStart, by simp, ?_⟩
    simp [includes, IncludeForm.source, virtualStart, isVirtual]
  · refine ⟨fileStart, by simp, ?_⟩
    simp [includes, IncludeForm.source, fileStart, isFile]

end Directive.Form
end TwoPhase
