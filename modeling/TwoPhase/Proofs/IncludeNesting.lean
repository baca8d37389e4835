import TwoPhase.Proofs.IncludeReading

/-
How deep includes may nest. A run comes to the includes of a text one after another, and through
the fragment behind each to the includes of that text, one level deeper. Those it meets at the
limit are refused before anything is asked for, and end the run; as long as it meets none of
them, a higher limit makes no difference.
-/
namespace TwoPhase

namespace Evaluation
variable {σ μ : Type} {pattern : Pattern μ} {replace other : μ → Evaluation σ (List Char)}
  {text : List Char} {session after last : Session σ} {piece : μ}

/-- Replacing the pieces of a text from a session comes to the piece, with the session that those
before it left. -/
inductive ComesTo (pattern : Pattern μ) (replace : μ → Evaluation σ (List Char)) :
    List Char → Session σ → μ → Session σ → Prop where
  | here {text rest : List Char} {session : Session σ} {piece : μ}
      (read : pattern.read? text = some (piece, rest)) :
      ComesTo pattern replace text session piece session
  | missed {c : Char} {text : List Char} {session after : Session σ} {piece : μ}
      (read : pattern.read? (c :: text) = none)
      (later : ComesTo pattern replace text session piece after) :
      ComesTo pattern replace (c :: text) session piece after
  | past {text rest content : List Char} {session middle after : Session σ} {first piece : μ}
      (read : pattern.read? text = some (first, rest))
      (replaced : (replace first).run.run session = (.ok content, middle))
      (later : ComesTo pattern replace rest middle piece after) :
      ComesTo pattern replace text session piece after

theorem ComesTo.run_eq_error (comes : ComesTo pattern replace text session piece after)
    {failure : Failure} (failed : (replace piece).run.run after = (.error failure, last)) :
    (replaceAll pattern replace text).run.run session = (.error failure, last) := by
  induction comes with
  | here read => rw [replaceAll_read read, run_bind, failed]
  | missed read later ih => rw [replaceAll_skip read, run_bind, ih failed]
  | past read replaced later ih =>
    rw [replaceAll_read read, run_bind, replaced]
    dsimp only
    rw [run_bind, ih failed]

theorem run_replaceAll_congr
    (same : ∀ piece after, ComesTo pattern replace text session piece after →
      (replace piece).run.run after = (other piece).run.run after) :
    (replaceAll pattern replace text).run.run session =
      (replaceAll pattern other text).run.run session := by
  induction text using pattern.scan_induction generalizing session with
  | nil => rw [replaceAll_nil, replaceAll_nil]
  | found piece rest read ih =>
    rw [replaceAll_read read, replaceAll_read read, run_bind, run_bind,
      ← same piece session (.here read)]
    cases answer : (replace piece).run.run session with
    | mk outcome middle =>
      cases outcome with
      | error failure => rfl
      | ok content =>
        dsimp only
        rw [run_bind, run_bind,
          ih fun piece after comes => same piece after (.past read answer comes)]
  | missed c text read ih =>
    rw [replaceAll_skip read, replaceAll_skip read, run_bind, run_bind,
      ih fun piece after comes => same piece after (.missed read comes)]

theorem asksOnly_replaceAll {allowed : Visit → Prop}
    (each : ∀ piece after, ComesTo pattern replace text session piece after →
      AsksOnly allowed after (replace piece)) :
    AsksOnly allowed session (replaceAll pattern replace text) := by
  induction text using pattern.scan_induction generalizing session with
  | nil =>
    rw [replaceAll_nil]
    exact Asks.pure [] session
  | found piece rest read ih =>
    rw [replaceAll_read read]
    refine (each piece session (.here read)).bind fun before middle replaced => ?_
    refine (ih fun other after comes => each other after (.past read replaced comes)).bind ?_
    exact fun after last _ => Asks.pure (before ++ after) last
  | missed c text read ih =>
    rw [replaceAll_skip read]
    refine (ih fun other after comes => each other after (.missed read comes)).bind ?_
    exact fun after last _ => Asks.pure (c :: after) last

end Evaluation

namespace Evaluator
open Evaluation Directive.Form
variable {σ : Type} (evaluator : Evaluator σ) (ctx : RequestContext)

def includeAt (level : Nat) (path : List Char) : Evaluation σ (List Char) :=
  if level < evaluator.maxDepth then do
    let raw ← evaluator.fetch ctx level (String.ofList path)
    evaluator.evaluate ctx (evaluator.maxDepth - (level + 1)) raw.toList
  else throw (.ofFault (.includeDepthExceeded (String.ofList path) evaluator.maxDepth))

theorem evaluate_eq_passes {level : Nat} (within : level ≤ evaluator.maxDepth) :
    evaluator.evaluate ctx (evaluator.maxDepth - level) =
      evaluator.passes (evaluator.includeAt ctx level) := by
  funext text
  cases remaining : evaluator.maxDepth - level with
  | zero =>
    have limit : ¬ level < evaluator.maxDepth := by omega
    have refused : evaluator.includeAt ctx level = fun path =>
        throw (.ofFault (.includeDepthExceeded (String.ofList path) evaluator.maxDepth)) := by
      funext path
      rw [includeAt, if_neg limit]
    rw [refused, evaluate]
  | succ levels =>
    have below : level < evaluator.maxDepth := by omega
    have nested : evaluator.maxDepth - (level + 1) = levels := by omega
    have own : evaluator.maxDepth - (levels + 1) = level := by omega
    have served : evaluator.includeAt ctx level = (fun path => do
        let raw ← evaluator.fetch ctx level (String.ofList path)
        evaluator.evaluate ctx levels raw.toList) := by
      funext path
      rw [includeAt, if_pos below, nested]
    rw [served, evaluate, own]

theorem evaluateDocument_eq (document : String) (shared : σ) :
    evaluator.evaluateDocument ctx document shared =
      let answer := (evaluator.passes (evaluator.includeAt ctx 0) document.toList).run.run { shared }
      (answer.1.map String.ofList, answer.2) := by
  have whole : evaluator.evaluate ctx evaluator.maxDepth = _ :=
    evaluator.evaluate_eq_passes ctx (Nat.zero_le _)
  unfold evaluateDocument
  rw [whole]
  rfl

/-- Evaluating a text at a level comes to an include of the path, with the session it has then. -/
def Includes (level : Nat) (text : List Char) (session : Session σ) (path : List Char)
    (after : Session σ) : Prop :=
  ∃ ready prepared form reached,
    (evaluator.prepare text).run.run session = (.ok ready, prepared) ∧
    ComesTo includes (evaluator.evaluateInclude (evaluator.includeAt ctx level)) ready prepared form
      reached ∧
    (fillIn "include path" form.path).run.run reached = (.ok path, after)

/-- The includes that evaluating a text at a level comes to: its own, and those of the fragments
behind them. -/
inductive Meets : Nat → List Char → Session σ → Nat → List Char → Session σ → Prop where
  | own {level : Nat} {text path : List Char} {session after : Session σ}
      (comes : evaluator.Includes ctx level text session path after) :
      Meets level text session level path after
  | nested {level deep : Nat} {text path inner : List Char} {raw : String}
      {session middle entered after : Session σ}
      (comes : evaluator.Includes ctx level text session path middle)
      (below : level < evaluator.maxDepth)
      (fetched : (evaluator.fetch ctx level (String.ofList path)).run.run middle = (.ok raw, entered))
      (inside : Meets (level + 1) raw.toList entered deep inner after) :
      Meets level text session deep inner after

section Run
variable {evaluator ctx} {level deep : Nat} {text path inner : List Char}
  {session middle after last : Session σ} {failure : Failure}

theorem run_evaluateInclude {included : List Char → Evaluation σ (List Char)} {form : IncludeForm}
    (filled : (fillIn "include path" form.path).run.run session = (.ok path, after)) :
    (evaluator.evaluateInclude included form).run.run session =
      (do return evaluator.wrap form.source (← included path)).run.run after := by
  unfold evaluateInclude
  rw [run_bind, filled]

theorem Includes.alone {path : String} (nonempty : path ≠ "") (unquoted : '\'' ∉ path.toList)
    (plain : ¬ SpellsReference path.toList) (session : Session σ) :
    evaluator.Includes ctx level (Directive.includeFile path).toList session path.toList session := by
  have read := IncludeForm.read?_source (by simpa using nonempty) unquoted [] (.inr rfl)
  have filled : fillIn (σ := σ) "include path" path.toList = pure path.toList :=
    replaceAll_of_silent (references_silent_iff.2 plain)
  rw [List.append_nil] at read
  rw [toList_includeFile]
  refine ⟨_, session, ⟨fileWord, path.toList⟩, session, ?_, .here read, ?_⟩
  · rw [evaluator.prepare_include unquoted]
    rfl
  · rw [filled]
    rfl

theorem Includes.run_eq_error (comes : evaluator.Includes ctx level text session path middle)
    (failed : (evaluator.includeAt ctx level path).run.run middle = (.error failure, last)) :
    (evaluator.passes (evaluator.includeAt ctx level) text).run.run session =
      (.error failure, last) := by
  obtain ⟨ready, prepared, form, reached, before, comes, filled⟩ := comes
  have ended : (evaluator.evaluateInclude (evaluator.includeAt ctx level) form).run.run reached =
      (.error failure, last) := by
    rw [run_evaluateInclude filled, run_bind, failed]
  rw [passes_eq, run_bind, before]
  exact comes.run_eq_error ended

theorem run_passes_congr {other : List Char → Evaluation σ (List Char)}
    (same : ∀ path after, evaluator.Includes ctx level text session path after →
      (evaluator.includeAt ctx level path).run.run after = (other path).run.run after) :
    (evaluator.passes (evaluator.includeAt ctx level) text).run.run session =
      (evaluator.passes other text).run.run session := by
  rw [passes_eq, passes_eq, run_bind, run_bind]
  cases before : (evaluator.prepare text).run.run session with
  | mk outcome prepared =>
    cases outcome with
    | error failure => rfl
    | ok ready =>
      apply run_replaceAll_congr
      intro form reached comes
      unfold evaluateInclude
      rw [run_bind, run_bind]
      cases filled : (fillIn "include path" form.path).run.run reached with
      | mk outcome after =>
        cases outcome with
        | error failure => rfl
        | ok path =>
          dsimp only
          rw [run_bind, run_bind, same path after ⟨_, _, _, _, before, comes, filled⟩]

theorem asksOnly_passes {allowed : Visit → Prop}
    (each : ∀ path after, evaluator.Includes ctx level text session path after →
      AsksOnly allowed after (evaluator.includeAt ctx level path)) :
    AsksOnly allowed session (evaluator.passes (evaluator.includeAt ctx level) text) := by
  rw [passes_eq]
  refine (evaluator.prepare_asks text session).bind fun ready prepared before => ?_
  apply asksOnly_replaceAll
  intro form reached comes
  refine (Asks.fillIn _ _ reached).bind fun path after filled => ?_
  refine (each path after ⟨_, _, _, _, before, comes, filled⟩).bind ?_
  exact fun content last _ => Asks.pure _ last

theorem Meets.level_le (meets : evaluator.Meets ctx level text session deep inner after)
    (within : level ≤ evaluator.maxDepth) : deep ≤ evaluator.maxDepth := by
  induction meets with
  | own => exact within
  | nested comes below fetched inside ih => exact ih below

theorem Meets.run_eq_error (meets : evaluator.Meets ctx level text session deep inner after)
    (failed : (evaluator.includeAt ctx deep inner).run.run after = (.error failure, last)) :
    (evaluator.passes (evaluator.includeAt ctx level) text).run.run session =
      (.error failure, last) := by
  induction meets with
  | own comes => exact comes.run_eq_error failed
  | nested comes below fetched inside ih =>
    apply comes.run_eq_error
    rw [includeAt, if_pos below, run_bind, fetched]
    dsimp only
    rw [evaluator.evaluate_eq_passes ctx (Nat.succ_le_of_lt below)]
    exact ih failed

theorem run_includeAt_of_limit (limit : ¬ level < evaluator.maxDepth) (path : List Char)
    (session : Session σ) : (evaluator.includeAt ctx level path).run.run session =
      (.error (.ofFault (.includeDepthExceeded (String.ofList path) evaluator.maxDepth)), session) := by
  rw [includeAt, if_neg limit]
  rfl

theorem Meets.refused (meets : evaluator.Meets ctx level text session deep inner after)
    (within : level ≤ evaluator.maxDepth) :
    deep ≤ evaluator.maxDepth ∧ (deep = evaluator.maxDepth →
      (evaluator.passes (evaluator.includeAt ctx level) text).run.run session =
        (.error (.ofFault (.includeDepthExceeded (String.ofList inner) evaluator.maxDepth)),
          after)) := by
  refine ⟨meets.level_le within, fun limit => meets.run_eq_error ?_⟩
  exact run_includeAt_of_limit (by omega) inner after

theorem passes_asksOnly_met {remaining : Nat} (depth : level + remaining = evaluator.maxDepth) :
    AsksOnly (fun visit => visit.level < evaluator.maxDepth ∧ ∃ path met,
        evaluator.Meets ctx level text session visit.level path met ∧
        IsFetch ctx visit.level (String.ofList path) visit)
      session (evaluator.passes (evaluator.includeAt ctx level) text) := by
  induction remaining generalizing level text session with
  | zero =>
    apply asksOnly_passes
    intro path after _
    rw [includeAt, if_neg (by omega)]
    exact Asks.of_visits (fun _ => rfl) after
  | succ remaining ih =>
    apply asksOnly_passes
    intro path after comes
    have below : level < evaluator.maxDepth := by omega
    rw [includeAt, if_pos below]
    refine AsksOnly.bind ?_ fun raw entered fetched => ?_
    · refine (evaluator.fetch_asks ctx level (String.ofList path) after).mono fun visit fetches => ?_
      rw [fetches.level]
      exact ⟨below, path, after, .own comes, fetches⟩
    · rw [evaluator.evaluate_eq_passes ctx (Nat.succ_le_of_lt below)]
      refine (ih (by omega)).mono fun visit met => ?_
      obtain ⟨shallow, inner, after, inside, fetches⟩ := met
      exact ⟨shallow, inner, after, .nested comes below fetched inside, fetches⟩

theorem passes_of_deeper {remaining deeper : Nat} (depth : level + remaining = evaluator.maxDepth)
    (more : evaluator.maxDepth ≤ deeper)
    (below : ∀ deep inner after, evaluator.Meets ctx level text session deep inner after →
      deep < evaluator.maxDepth) :
    (evaluator.passes (evaluator.includeAt ctx level) text).run.run session =
      (evaluator.passes (({ evaluator with maxDepth := deeper }).includeAt ctx level)
        text).run.run session := by
  induction remaining generalizing level text session with
  | zero =>
    apply run_passes_congr
    intro path after comes
    have met := below level path after (.own comes)
    omega
  | succ remaining ih =>
    apply run_passes_congr
    intro path after comes
    have met := below level path after (.own comes)
    have further : level < ({ evaluator with maxDepth := deeper } : Evaluator σ).maxDepth :=
      Nat.lt_of_lt_of_le met more
    have same : ({ evaluator with maxDepth := deeper }).fetch ctx level (String.ofList path) =
        evaluator.fetch ctx level (String.ofList path) := rfl
    rw [includeAt, includeAt, if_pos met, if_pos further, same, run_bind, run_bind]
    cases fetched : (evaluator.fetch ctx level (String.ofList path)).run.run after with
    | mk outcome entered =>
      cases outcome with
      | error failure => rfl
      | ok raw =>
        dsimp only
        rw [evaluator.evaluate_eq_passes ctx (Nat.succ_le_of_lt met),
          evaluate_eq_passes _ ctx (Nat.succ_le_of_lt further)]
        exact ih (by omega) fun deep inner last inside =>
          below deep inner last (.nested comes met fetched inside)

end Run

/-- The limit is exact and changes nothing else. Lookups and dispatches are made for includes that
the run meets at levels below the limit, and for no other; an include met at the limit is
refused and ends the run as it stands then; a run that meets none there is the same with a
higher limit, in what it asks for, what it binds and how it ends. -/
theorem include_limit_exact (document : String) (shared : σ) :
    (∀ visit ∈ (evaluator.evaluateDocument ctx document shared).2.visits,
      visit.level < evaluator.maxDepth ∧ ∃ path met,
        evaluator.Meets ctx 0 document.toList { shared } visit.level path met ∧
        IsFetch ctx visit.level (String.ofList path) visit) ∧
    (∀ level path met, evaluator.Meets ctx 0 document.toList { shared } level path met →
      level ≤ evaluator.maxDepth ∧ (level = evaluator.maxDepth →
        evaluator.evaluateDocument ctx document shared =
          (.error (.ofFault (.includeDepthExceeded (String.ofList path) evaluator.maxDepth)),
            met))) ∧
    ∀ deeper, evaluator.maxDepth ≤ deeper →
      (∀ level path met, evaluator.Meets ctx 0 document.toList { shared } level path met →
        level < evaluator.maxDepth) →
      ({ evaluator with maxDepth := deeper }).evaluateDocument ctx document shared =
        evaluator.evaluateDocument ctx document shared := by
  refine ⟨?_, fun level path met meets => ?_, fun deeper more below => ?_⟩
  · have asks : AsksOnly _ { shared }
        (evaluator.passes (evaluator.includeAt ctx 0) document.toList) :=
      passes_asksOnly_met (Nat.zero_add evaluator.maxDepth)
    obtain ⟨asked, visits, each⟩ := asks
    rw [evaluateDocument_eq]
    intro visit member
    exact each visit (by simpa [visits] using member)
  · obtain ⟨bounded, refused⟩ := meets.refused (Nat.zero_le _)
    refine ⟨bounded, fun limit => ?_⟩
    rw [evaluateDocument_eq, refused limit]
    rfl
  · rw [evaluateDocument_eq, evaluateDocument_eq,
      passes_of_deeper (Nat.zero_add evaluator.maxDepth) more below]
    rfl

def selfIncluding : Evaluator Unit where
  sources := {
    lookup _ state := (none, state)
    dispatch ctx state :=
      (.ok (if ctx.path = "/self/" then "<!--#include file='/self/'-->" else "end"), state) }
  maxDepth := 2

theorem selfIncluding_limit :
    (∀ level path met, selfIncluding.Meets { path := "/" } 0 "<!--#include file='/end/'-->".toList
        { shared := () } level path met → level < 2) ∧
      ({ selfIncluding with maxDepth := 16 }).evaluateDocument { path := "/" }
          "<!--#include file='/end/'-->" () =
        selfIncluding.evaluateDocument { path := "/" } "<!--#include file='/end/'-->" () := by
  obtain ⟨_, refused, wider⟩ :=
    include_limit_exact selfIncluding { path := "/" } "<!--#include file='/end/'-->" ()
  have served : (selfIncluding.evaluateDocument { path := "/" } "<!--#include file='/end/'-->"
      ()).1.toOption = some "end" := by decide +kernel
  have below : ∀ level path met, selfIncluding.Meets { path := "/" } 0
      "<!--#include file='/end/'-->".toList { shared := () } level path met → level < 2 := by
    intro level path met meets
    obtain ⟨bounded, ends⟩ := refused level path met meets
    apply Nat.lt_of_le_of_ne bounded
    intro limit
    rw [ends limit] at served
    cases served
  exact ⟨below, wider 16 (by decide) below⟩

end Evaluator
end TwoPhase
