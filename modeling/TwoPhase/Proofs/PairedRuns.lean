import Mathlib.Data.Option.Basic
import TwoPhase.Proofs.Passes

/-
Two runs side by side. Steps are related if from related sessions they come to related sessions
and end alike: with related results, or with the same failure. A pair of texts is treated by a
pass in each run if, whatever follows the two, the passes do related actions for them.
-/
namespace TwoPhase.Evaluation
variable {σ τ μ α β γ δ : Type}

inductive Ends (rel : α → β → Prop) : Except Failure α → Except Failure β → Prop where
  | ok {value : α} {other : β} (related : rel value other) : Ends rel (.ok value) (.ok other)
  | error (failure : Failure) : Ends rel (.error failure) (.error failure)

theorem Ends.mono {rel weaker : α → β → Prop} {outcome : Except Failure α} {other : Except Failure β}
    (ends : Ends rel outcome other) (implies : ∀ value reply, rel value reply → weaker value reply) :
    Ends weaker outcome other := by
  cases ends with
  | ok related => exact .ok (implies _ _ related)
  | error failure => exact .error failure

theorem ends_eq_iff {outcome other : Except Failure α} : Ends Eq outcome other ↔ outcome = other := by
  constructor
  · rintro (⟨rfl⟩ | ⟨failure⟩) <;> rfl
  · rintro rfl
    cases outcome with
    | ok value => exact .ok rfl
    | error failure => exact .error failure

def Relates (along : Session σ → Session τ → Prop) (rel : α → β → Prop)
    (left : Evaluation σ α) (right : Evaluation τ β) : Prop :=
  ∀ session other, along session other →
    Ends rel (left.run.run session).1 (right.run.run other).1 ∧
      along (left.run.run session).2 (right.run.run other).2

namespace Relates
variable {along : Session σ → Session τ → Prop} {rel : α → β → Prop} {rel' : γ → δ → Prop}
  {left : Evaluation σ α} {right : Evaluation τ β}

theorem pure {value : α} {other : β} (related : rel value other) :
    Relates along rel (pure value) (pure other) :=
  fun _ _ sessions => ⟨.ok related, sessions⟩

theorem fail (failure : Failure) : Relates along rel (throw failure) (throw failure) :=
  fun _ _ sessions => ⟨.error failure, sessions⟩

theorem bind {next : α → Evaluation σ γ} {after : β → Evaluation τ δ}
    (first : Relates along rel left right)
    (later : ∀ value other, rel value other → Relates along rel' (next value) (after other)) :
    Relates along rel' (left >>= next) (right >>= after) := by
  intro session other sessions
  obtain ⟨ends, kept⟩ := first session other sessions
  rw [run_bind, run_bind]
  generalize left.run.run session = answer at ends kept ⊢
  generalize right.run.run other = reply at ends kept ⊢
  obtain ⟨outcome, session⟩ := answer
  obtain ⟨outcome', other⟩ := reply
  cases ends with
  | ok related => exact later _ _ related session other kept
  | error failure => exact ⟨.error failure, kept⟩

theorem mono {weaker : α → β → Prop} (relates : Relates along rel left right)
    (implies : ∀ value other, rel value other → weaker value other) :
    Relates along weaker left right := by
  intro session other sessions
  obtain ⟨ends, kept⟩ := relates session other sessions
  exact ⟨ends.mono implies, kept⟩

theorem mapM {parts : List γ} {action : γ → Evaluation σ α} {other : γ → Evaluation τ α}
    (each : ∀ part, Relates along Eq (action part) (other part)) :
    Relates along Eq (parts.mapM action) (parts.mapM other) := by
  induction parts with
  | nil => exact pure rfl
  | cons part parts ih =>
    rw [List.mapM_cons, List.mapM_cons]
    refine (each part).bind fun first _ same => ih.bind fun later _ same' => pure ?_
    rw [same, same']

theorem replaceAll (pattern : Pattern μ) {replace : μ → Evaluation σ (List Char)}
    {other : μ → Evaluation τ (List Char)}
    (each : ∀ piece, Relates along Eq (replace piece) (other piece)) (text : List Char) :
    Relates along Eq (Evaluation.replaceAll pattern replace text)
      (Evaluation.replaceAll pattern other text) := by
  refine bind (mapM ?_) fun parts _ same => pure (congrArg List.flatten same)
  rintro (c | piece)
  · exact pure rfl
  · exact each piece

section Bindings
variable (bindings : ∀ session other, along session other → session.bindings = other.bindings)
include bindings

theorem lookup (place : String) (name : List Char) :
    Relates along Eq (Evaluation.lookup place name) (Evaluation.lookup place name) := by
  intro session other sessions
  rw [run_lookup, run_lookup, bindings session other sessions]
  split
  · exact ⟨.ok rfl, sessions⟩
  · exact ⟨.error _, sessions⟩

theorem fillIn (place : String) (text : List Char) :
    Relates along Eq (Evaluation.fillIn place text) (Evaluation.fillIn place text) :=
  replaceAll _ (lookup bindings place) text

end Bindings
end Relates

/-- Whatever follows each of the texts, the two passes do related actions for them. -/
def Treated (along : Session σ → Session τ → Prop) (pattern : Pattern μ)
    (replace : μ → Evaluation σ (List Char)) (replace' : μ → Evaluation τ (List Char))
    (rel : List Char → List Char → Prop) (text other : List Char) : Prop :=
  ∃ action action', Handles pattern replace text action ∧ Handles pattern replace' other action' ∧
    Relates along rel action action'

namespace Treated
variable {along : Session σ → Session τ → Prop} {pattern : Pattern μ}
  {replace : μ → Evaluation σ (List Char)} {replace' : μ → Evaluation τ (List Char)}
  {rel rel' rel'' : List Char → List Char → Prop} {text other more more' : List Char}

theorem whole (treated : Treated along pattern replace replace' rel text other) :
    Relates along rel (replaceAll pattern replace text) (replaceAll pattern replace' other) := by
  obtain ⟨action, action', handles, handles', relates⟩ := treated
  rw [handles.whole, handles'.whole]
  exact relates

theorem append (first : Treated along pattern replace replace' rel text other)
    (second : Treated along pattern replace replace' rel' more more')
    (joins : ∀ a b c d, rel a b → rel' c d → rel'' (a ++ c) (b ++ d)) :
    Treated along pattern replace replace' rel'' (text ++ more) (other ++ more') := by
  obtain ⟨_, _, handles₁, handles₁', relates₁⟩ := first
  obtain ⟨_, _, handles₂, handles₂', relates₂⟩ := second
  refine ⟨_, _, handles₁.append handles₂, handles₁'.append handles₂', ?_⟩
  exact relates₁.bind fun a b before => relates₂.bind fun c d after =>
    .pure (joins a b c d before after)

theorem silent (quiet : ∀ rest, pattern.Silent text rest) (quiet' : ∀ rest, pattern.Silent other rest)
    (related : rel text other) : Treated along pattern replace replace' rel text other :=
  ⟨_, _, .silent replace quiet, .silent replace' quiet', .pure related⟩

theorem read {piece piece' : μ} (found : ∀ rest, pattern.read? (text ++ rest) = some (piece, rest))
    (found' : ∀ rest, pattern.read? (other ++ rest) = some (piece', rest))
    (relates : Relates along rel (replace piece) (replace' piece')) :
    Treated along pattern replace replace' rel text other :=
  ⟨_, _, .read found, .read found', relates⟩

theorem mono (treated : Treated along pattern replace replace' rel text other)
    (implies : ∀ value reply, rel value reply → rel' value reply) :
    Treated along pattern replace replace' rel' text other := by
  obtain ⟨action, action', handles, handles', relates⟩ := treated
  exact ⟨action, action', handles, handles', relates.mono implies⟩

section Blocks
open Directive.Form
variable {marks : List (List Char)} {expression : List Char} {no no' : Option (List Char)}

theorem block (opens : pattern.OpensWith marks)
    (header : Clean marks (ifStart ++ expression ++ directiveEnd)) (between : Clean marks elseMark)
    (ending : Clean marks endMark) (inYes : Treated along pattern replace replace' rel text other)
    (inNo : Option.Rel (Treated along pattern replace replace' rel) no no')
    (joins : ∀ yes yes' no no', rel yes yes' → Option.Rel rel no no' →
      rel' (IfForm.source ⟨expression, yes, no⟩) (IfForm.source ⟨expression, yes', no'⟩)) :
    Treated along pattern replace replace' rel' (IfForm.source ⟨expression, text, no⟩)
      (IfForm.source ⟨expression, other, no'⟩) := by
  obtain ⟨_, _, handles, handles', relates⟩ := inYes
  cases inNo with
  | none =>
    have whole := handles.block opens header between ending none (by simp)
    have whole' := handles'.block opens header between ending none (by simp)
    refine ⟨_, _, whole, whole', relates.bind fun yes yes' related => ?_⟩
    exact .pure (joins _ _ _ _ related .none)
  | some treated =>
    obtain ⟨_, _, handlesNo, handlesNo', relatesNo⟩ := treated
    have whole := handles.block opens header between ending (some (_, _)) (by simpa using handlesNo)
    have whole' := handles'.block opens header between ending (some (_, _)) (by simpa using handlesNo')
    refine ⟨_, _, whole, whole', relates.bind fun yes yes' related => ?_⟩
    simp only [Option.elim_some, map_eq_pure_bind, bind_assoc, pure_bind]
    exact relatesNo.bind fun no no' relatedNo => .pure (joins _ _ _ _ related (.some relatedNo))

end Blocks
end Treated
end TwoPhase.Evaluation
