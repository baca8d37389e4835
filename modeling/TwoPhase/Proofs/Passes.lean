import TwoPhase.Evaluation
import TwoPhase.Proofs.Marks

/-
A pass over a text made of parts. A part is handled if, whatever follows it, the pass does one
action for it and goes on behind it; then a text of handled parts is one action after another.
Steps of evaluation that agree on quiet sessions are compared by what they leave behind.
-/
namespace TwoPhase.Evaluation
variable {σ μ α β : Type} {pattern : Pattern μ} {replace : μ → Evaluation σ (List Char)}
  {text more rest : List Char}

theorem replaceAll_nil : replaceAll pattern replace [] = pure [] := by
  simp [replaceAll, Pattern.scan, Pattern.scanAfter]

theorem replaceAll_skip {c : Char} (missed : pattern.read? (c :: text) = none) :
    replaceAll pattern replace (c :: text) = do
      let after ← replaceAll pattern replace text
      return c :: after := by
  unfold replaceAll
  rw [pattern.scan_of_none missed, List.mapM_cons]
  simp

theorem replaceAll_read {piece : μ} (found : pattern.read? text = some (piece, rest)) :
    replaceAll pattern replace text = do
      let before ← replace piece
      let after ← replaceAll pattern replace rest
      return before ++ after := by
  unfold replaceAll
  rw [pattern.scan_of_read? found, List.mapM_cons]
  simp

theorem replaceAll_silent (silent : pattern.Silent text rest) :
    replaceAll pattern replace (text ++ rest) = do
      let after ← replaceAll pattern replace rest
      return text ++ after := by
  induction text with
  | nil => simp
  | cons c text ih =>
    have missed := silent.1
    rw [List.cons_append] at missed ⊢
    rw [replaceAll_skip missed, ih silent.2]
    simp

/-- Whatever follows the text, a pass does the action for it and goes on behind it. -/
def Handles (pattern : Pattern μ) (replace : μ → Evaluation σ (List Char)) (text : List Char)
    (action : Evaluation σ (List Char)) : Prop :=
  ∀ rest, replaceAll pattern replace (text ++ rest) = do
    let before ← action
    let after ← replaceAll pattern replace rest
    return before ++ after

namespace Handles
variable {first second : Evaluation σ (List Char)}

theorem whole (handles : Handles pattern replace text first) :
    replaceAll pattern replace text = first := by
  have all := handles []
  rw [List.append_nil, replaceAll_nil] at all
  rw [all]
  simp

theorem silent (replace : μ → Evaluation σ (List Char))
    (silent : ∀ rest, pattern.Silent text rest) : Handles pattern replace text (pure text) := by
  intro rest
  rw [replaceAll_silent (silent rest)]
  simp

theorem clean (replace : μ → Evaluation σ (List Char)) {marks : List (List Char)}
    (opens : pattern.OpensWith marks) (clean : Clean marks text) :
    Handles pattern replace text (pure text) :=
  .silent replace fun rest => Pattern.silent_of_clean opens clean rest

theorem read {piece : μ} (found : ∀ rest, pattern.read? (text ++ rest) = some (piece, rest)) :
    Handles pattern replace text (replace piece) :=
  fun rest => replaceAll_read (found rest)

theorem append (left : Handles pattern replace text first)
    (right : Handles pattern replace more second) :
    Handles pattern replace (text ++ more) (do return (← first) ++ (← second)) := by
  intro rest
  rw [List.append_assoc, left, right]
  simp only [bind_assoc, pure_bind, List.append_assoc]

theorem flatMap {parts : List α} {source : α → List Char} {action : α → Evaluation σ β}
    {written : β → List Char}
    (each : ∀ part ∈ parts, Handles pattern replace (source part) (written <$> action part)) :
    Handles pattern replace (parts.flatMap source)
      ((fun results => results.flatMap written) <$> parts.mapM action) := by
  induction parts with
  | nil =>
    intro rest
    simp
  | cons part parts ih =>
    have first := each part List.mem_cons_self
    have later := ih fun other member => each other (List.mem_cons_of_mem _ member)
    intro rest
    rw [List.flatMap_cons, List.append_assoc, first, later, List.mapM_cons]
    simp only [map_eq_pure_bind, bind_assoc, pure_bind, List.flatMap_cons, List.append_assoc]

section Blocks
open Directive.Form

theorem block {marks : List (List Char)} {expression yes : List Char}
    {inside : Evaluation σ (List Char)} (inYes : Handles pattern replace yes inside)
    (opens : pattern.OpensWith marks) (header : Clean marks (ifStart ++ expression ++ directiveEnd))
    (between : Clean marks elseMark) (ending : Clean marks endMark)
    (no : Option (List Char × Evaluation σ (List Char)))
    (inNo : ∀ branch ∈ no, Handles pattern replace branch.1 branch.2) :
    Handles pattern replace (IfForm.source ⟨expression, yes, no.map Prod.fst⟩) (do
      let yes ← inside
      let no ← no.elim (pure none) fun branch => some <$> branch.2
      return IfForm.source ⟨expression, yes, no⟩) := by
  have first := (clean replace opens header).append inYes
  have last := clean replace opens ending
  intro rest
  cases no with
  | none =>
    have whole := (first.append last) rest
    simp only [IfForm.source, IfForm.header, Option.map_none, Option.elim_none, List.append_nil]
    rw [whole]
    simp only [bind_assoc, pure_bind, Option.elim_none, List.append_nil]
  | some no =>
    have middle := clean replace opens between
    have whole := ((first.append (middle.append (inNo no rfl))).append last) rest
    simp only [IfForm.source, IfForm.header, Option.map_some, Option.elim_some]
    rw [whole]
    simp only [map_eq_pure_bind, bind_assoc, pure_bind, Option.elim_some]

end Blocks
end Handles

/-- Values that no pass will mistake for a directive. -/
def Quiet (marks : List (List Char)) (session : Session σ) : Prop :=
  ∀ name value, session.bindings.get? name = some value → Clean marks value.toList

/-- From a quiet session the two steps do the same; they leave it quiet, and what they give has
the property. -/
def Agree (marks : List (List Char)) (holds : α → Prop) (left right : Evaluation σ α) : Prop :=
  ∀ session : Session σ, Quiet marks session →
    left.run.run session = right.run.run session ∧
      Quiet marks (right.run.run session).2 ∧
      ∀ value, (right.run.run session).1 = .ok value → holds value

theorem run_bind (step : Evaluation σ α) (next : α → Evaluation σ β) (session : Session σ) :
    (step >>= next).run.run session =
      match step.run.run session with
      | (.ok value, after) => (next value).run.run after
      | (.error failure, after) => (.error failure, after) := by
  have unfolded : (step >>= next).run.run session =
      (ExceptT.bindCont next (step.run.run session).1).run (step.run.run session).2 := rfl
  rw [unfolded]
  obtain ⟨outcome, after⟩ := step.run.run session
  cases outcome <;> rfl

theorem ok_of_run_bind {step : Evaluation σ α} {next : α → Evaluation σ β} {session : Session σ}
    {result : β} (ended : ((step >>= next).run.run session).1 = .ok result) :
    ∃ value after, step.run.run session = (.ok value, after) ∧
      ((next value).run.run after).1 = .ok result := by
  rw [run_bind] at ended
  generalize step.run.run session = answer at ended
  obtain ⟨outcome, after⟩ := answer
  cases outcome with
  | error failure => cases ended
  | ok value => exact ⟨value, after, rfl, ended⟩

theorem run_lookup (place : String) (name : List Char) (session : Session σ) :
    (lookup place name).run.run session =
      match session.bindings.get? (String.ofList name) with
      | some value => (.ok value.toList, session)
      | none => (.error (.ofFault (.undeclaredReference (String.ofList name) place
          (closestName? (String.ofList name) session.bindings.names))), session) := by
  have current : (get : Evaluation σ (Session σ)).run.run session = (.ok session, session) := rfl
  unfold lookup
  rw [run_bind, current]
  cases known : session.bindings.get? (String.ofList name) <;> simp only [known] <;> rfl

theorem run_visit (visit : Visit) (session : Session σ) : (Evaluation.visit visit).run.run session =
    (.ok (), { session with visits := session.visits ++ [visit] }) := rfl

theorem run_share (step : σ → α × σ) (session : Session σ) : (share step).run.run session =
    (.ok (step session.shared).1, { session with shared := (step session.shared).2 }) := rfl

theorem run_fetch (evaluator : Evaluator σ) (ctx : RequestContext) (level : Nat) (path : String)
    (session : Session σ) : (evaluator.fetch ctx level path).run.run session =
      match evaluator.sources.lookup path session.shared with
      | (some cached, shared) =>
        (.ok cached, { session with visits := session.visits ++ [.lookup level path], shared })
      | (none, shared) =>
        let answer := evaluator.sources.dispatch (ctx.atLocation path) shared
        (inFrame ("Failed to include " ++ path) answer.1,
          { session with
            visits := session.visits ++ [.lookup level path] ++ [.dispatch level (ctx.atLocation path)]
            shared := answer.2 }) := by
  unfold Evaluator.fetch
  simp only [run_bind, run_visit, run_share]
  obtain ⟨hit, after⟩ := evaluator.sources.lookup path session.shared
  cases hit with
  | some cached => rfl
  | none =>
    simp only [run_bind, run_visit, run_share]
    generalize evaluator.sources.dispatch (ctx.atLocation path) after = answer
    obtain ⟨outcome, last⟩ := answer
    cases outcome <;> rfl

namespace Agree
variable {marks : List (List Char)} {holds : α → Prop} {holds' : β → Prop}
  {left right : Evaluation σ α}

theorem bind {next other : α → Evaluation σ β} (first : Agree marks holds left right)
    (later : ∀ value, holds value → Agree marks holds' (next value) (other value)) :
    Agree marks holds' (left >>= next) (right >>= other) := by
  intro session quiet
  obtain ⟨same, kept, given⟩ := first session quiet
  rw [run_bind, run_bind, same]
  generalize right.run.run session = answer at kept given ⊢
  obtain ⟨outcome, after⟩ := answer
  cases outcome with
  | error failure => exact ⟨rfl, kept, fun value impossible => by cases impossible⟩
  | ok value => exact later value (given value rfl) after kept

theorem pure {value : α} (given : holds value) :
    Agree marks holds (pure value : Evaluation σ α) (pure value) := by
  intro session quiet
  refine ⟨rfl, quiet, ?_⟩
  intro other same
  cases same
  exact given

theorem mono {weaker : α → Prop} (agree : Agree marks holds left right)
    (implies : ∀ value, holds value → weaker value) : Agree marks weaker left right := by
  intro session quiet
  obtain ⟨same, kept, given⟩ := agree session quiet
  exact ⟨same, kept, fun value found => implies value (given value found)⟩

theorem mapM {parts : List α} {action other : α → Evaluation σ β}
    (each : ∀ part ∈ parts, Agree marks holds' (action part) (other part)) :
    Agree marks (fun results => ∀ result ∈ results, holds' result)
      (parts.mapM action) (parts.mapM other) := by
  induction parts with
  | nil => exact pure (by simp)
  | cons part parts ih =>
    rw [List.mapM_cons, List.mapM_cons]
    apply bind (each part List.mem_cons_self)
    intro first given
    apply bind (ih fun other member => each other (List.mem_cons_of_mem _ member))
    intro later all
    apply pure
    intro result member
    rcases List.mem_cons.1 member with rfl | old
    · exact given
    · exact all result old

theorem forM {parts : List α} {effect : α → Evaluation σ Unit}
    (each : ∀ part ∈ parts, Agree marks (fun _ => True) (effect part) (effect part)) :
    Agree marks (fun _ => True) (parts.forM effect) (parts.forM effect) := by
  induction parts with
  | nil => exact pure trivial
  | cons part parts ih =>
    have first := each part List.mem_cons_self
    exact first.bind fun _ _ => ih fun other member => each other (List.mem_cons_of_mem _ member)

theorem of_bindings {step : Evaluation σ α}
    (kept : ∀ session, (step.run.run session).2.bindings = session.bindings) :
    Agree marks (fun _ => True) step step := by
  intro session quiet
  refine ⟨rfl, ?_, fun _ _ => trivial⟩
  intro name value found
  rw [kept] at found
  exact quiet name value found

theorem visit (visited : Visit) :
    Agree (σ := σ) marks (fun _ => True) (Evaluation.visit visited) (Evaluation.visit visited) :=
  of_bindings fun _ => rfl

theorem share (step : σ → α × σ) :
    Agree marks (fun _ => True) (Evaluation.share step) (Evaluation.share step) :=
  of_bindings fun _ => rfl

theorem fail (failure : Failure) :
    Agree (σ := σ) marks holds (throw failure) (throw failure) := by
  intro session quiet
  exact ⟨rfl, quiet, fun value impossible => by cases impossible⟩

theorem bindValue {name value : String} (clean : Clean marks value.toList) :
    Agree (σ := σ) marks (fun _ => True) (Evaluation.bind name value) (Evaluation.bind name value) := by
  intro session quiet
  refine ⟨rfl, ?_, fun _ _ => trivial⟩
  intro other held found
  have inserted : (session.bindings.insert name value).get? other = some held := found
  rw [NameMap.get?_insert] at inserted
  split at inserted
  · cases inserted
    exact clean
  · exact quiet other held inserted

theorem lookup (place : String) (name : List Char) :
    Agree (σ := σ) marks (Clean marks) (Evaluation.lookup place name)
      (Evaluation.lookup place name) := by
  intro session quiet
  rw [run_lookup]
  split
  · next held known =>
    refine ⟨rfl, quiet, ?_⟩
    intro value found
    cases found
    exact quiet _ held known
  · exact ⟨rfl, quiet, fun value impossible => by cases impossible⟩

end Agree
end TwoPhase.Evaluation
