import TwoPhase.Proofs.ItemPasses

/-
Evaluating a written document is evaluating its items. The passes agree with the phases one by
one; what a session binds comes from sets of documents, so no value that an echo writes out can
be mistaken for a directive by a later pass. Includes agree by induction on the levels left.
-/
namespace TwoPhase.Markup
open Evaluation Directive.Form

section Phases
variable {σ : Type} {marks full : List (List Char)}

theorem leaf_bind_agree {leaf : Leaf} (formed : leaf.WellFormed full) :
    Agree (σ := σ) valueMarks (fun _ => True) leaf.bind leaf.bind := by
  cases leaf with
  | set name value => exact Agree.bindValue formed.2
  | text content => exact Agree.pure trivial
  | echo name => exact Agree.pure trivial
  | fragment path => exact Agree.pure trivial

theorem item_bind_agree {item : Item} (formed : item.WellFormed) :
    Agree (σ := σ) valueMarks (fun _ => True) item.bind item.bind := by
  cases item with
  | leaf content => exact leaf_bind_agree formed
  | block expression yes no =>
    obtain ⟨_, _, yesFormed, noFormed⟩ := formed
    exact (Agree.forM fun leaf member => leaf_bind_agree (yesFormed leaf member)).bind
      fun _ _ => Agree.forM fun leaf member => leaf_bind_agree (noFormed leaf member)

theorem leaf_show_agree (left : List (List Char)) {leaf : Leaf} (formed : leaf.WellFormed full)
    (fewer : left ⊆ full) (covered : left ++ includeMarks ⊆ valueMarks) :
    Agree (σ := σ) valueMarks (fun pieces => ∀ piece ∈ pieces, piece.Settled left)
      leaf.show leaf.show := by
  have formed := formed.mono fewer
  cases leaf with
  | text content =>
    apply Agree.pure
    intro piece member
    cases List.mem_singleton.1 member
    exact formed
  | set name value => exact Agree.pure (by simp)
  | echo name =>
    apply (Agree.lookup "echo" name.toList).bind
    intro value clean
    apply Agree.pure
    intro piece member
    cases List.mem_singleton.1 member
    exact clean.mono covered
  | fragment path =>
    apply Agree.pure
    intro piece member
    cases List.mem_singleton.1 member
    exact formed

theorem leaves_show_agree (left : List (List Char)) {leaves : List Leaf}
    (formed : ∀ leaf ∈ leaves, leaf.WellFormed full) (fewer : left ⊆ full)
    (covered : left ++ includeMarks ⊆ valueMarks) :
    Agree (σ := σ) valueMarks (fun pieces => ∀ piece ∈ pieces.flatten, piece.Settled left)
      (leaves.mapM Leaf.show) (leaves.mapM Leaf.show) := by
  apply (Agree.mapM fun leaf member => leaf_show_agree left (formed leaf member) fewer covered).mono
  intro pieces settled piece member
  obtain ⟨group, among, inside⟩ := List.mem_flatten.1 member
  exact settled group among piece inside

theorem item_show_agree {item : Item} (formed : item.WellFormed) :
    Agree (σ := σ) valueMarks Shown.Settled item.show item.show := by
  cases item with
  | leaf content =>
    apply (leaf_show_agree [ifStart] formed (by decide) (by decide)).bind
    exact fun pieces settled => Agree.pure settled
  | block expression yes no =>
    obtain ⟨written, _, yesFormed, noFormed⟩ := formed
    have yesShown := leaves_show_agree (σ := σ) [elseMark, endMark] yesFormed
      (by decide) (by decide)
    cases no with
    | none =>
      apply yesShown.bind
      intro yes yesSettled
      exact Agree.pure ⟨written, yesSettled, by simp⟩
    | some no =>
      apply yesShown.bind
      intro yes yesSettled
      apply (leaves_show_agree [endMark] noFormed (by decide) (by decide)).bind
      intro no noSettled
      exact Agree.pure ⟨written, yesSettled, noSettled⟩

theorem template_agree (place : String) (template : Template) :
    Agree (σ := σ) marks (fun _ => True) (template.evaluate place) (template.evaluate place) := by
  have each : ∀ part ∈ template.parts, Agree (σ := σ) marks (fun _ => True)
      (part.evaluate place) (part.evaluate place) := by
    intro part _
    cases part with
    | literal content => exact Agree.pure trivial
    | reference name => exact (Agree.lookup place name.toList).mono fun _ _ => trivial
  exact (Agree.mapM each).bind fun _ _ => Agree.pure trivial

theorem choose_agree {shown : Shown} (settled : shown.Settled) :
    Agree (σ := σ) valueMarks (fun pieces => ∀ piece ∈ pieces, piece.Settled [])
      shown.choose shown.choose := by
  cases shown with
  | pieces content =>
    exact Agree.pure fun piece member => (settled piece member).mono (List.nil_subset _)
  | block expression yes no =>
    obtain ⟨_, yesSettled, noSettled⟩ := settled
    apply (template_agree "if expression" expression).bind
    intro value _
    apply Agree.pure
    intro piece member
    split at member
    · exact (noSettled piece member).mono (List.nil_subset _)
    · exact (yesSettled piece member).mono (List.nil_subset _)

theorem fetch_agree {included other : List Char → Evaluation σ (List Char)}
    (each : ∀ path, Agree marks (fun _ => True) (included path) (other path)) (piece : Piece) :
    Agree marks (fun _ => True) (piece.fetch included) (piece.fetch other) := by
  cases piece with
  | text content => exact Agree.pure trivial
  | fragment path => exact (template_agree "include path" path).bind fun value _ => each value

end Phases

section Passes
variable {σ : Type} {evaluator : Evaluator σ} (plain : evaluator.verbose = false)
include plain

theorem sets_pass {items : List Item} (formed : ∀ item ∈ items, item.WellFormed) :
    replaceAll sets evaluator.evaluateSet (source items).toList =
      (do items.forM Item.bind; return items.flatMap Item.unset) := by
  have each : ∀ item ∈ items, Handles sets evaluator.evaluateSet item.source.toList
      (id <$> do item.bind; return item.unset) := by
    intro item member
    rw [id_map]
    exact sets_item_handled plain (formed item member)
  rw [source_toList, (Handles.flatMap each).whole, mapM_then]
  simp only [map_eq_pure_bind, bind_assoc, pure_bind, List.flatMap_map, id_eq]

theorem echoes_pass {items : List Item} (formed : ∀ item ∈ items, item.WellFormed) :
    replaceAll echoes evaluator.evaluateEcho (items.flatMap Item.unset) =
      (fun shown => shown.flatMap Shown.written) <$> items.mapM Item.show :=
  (Handles.flatMap fun item member => echoes_item_handled plain (formed item member)).whole

theorem ifs_pass {shown : List Shown} (settled : ∀ item ∈ shown, item.Settled) :
    replaceAll ifs evaluator.evaluateIf (shown.flatMap Shown.written) =
      (fun pieces => piecesText pieces.flatten) <$> shown.mapM Shown.choose := by
  rw [(Handles.flatMap fun item member => if_handled plain (settled item member)).whole]
  simp only [piecesText_flatten]

theorem includes_pass (included : List Char → Evaluation σ (List Char)) {pieces : List Piece}
    (settled : ∀ piece ∈ pieces, piece.Settled []) :
    replaceAll includes (fun form => do
        let path ← fillIn "include path" form.path
        return evaluator.wrap form.source (← included path)) (piecesText pieces) =
      List.flatten <$> pieces.mapM (Piece.fetch included) := by
  have each : ∀ piece ∈ pieces, Handles includes (fun form => do
        let path ← fillIn "include path" form.path
        return evaluator.wrap form.source (← included path))
      piece.written (id <$> piece.fetch included) := by
    intro piece member
    rw [id_map]
    exact include_handled plain included (settled piece member)
  unfold piecesText
  rw [(Handles.flatMap each).whole]
  simp only [List.flatMap_id]

theorem passes_agree {items : List Item} (formed : ∀ item ∈ items, item.WellFormed)
    {included other : List Char → Evaluation σ (List Char)}
    (each : ∀ path, Agree valueMarks (fun _ => True) (included path) (other path)) :
    Agree valueMarks (fun _ => True) (evaluator.passes included (source items).toList)
      (evaluateWith other items) := by
  unfold Evaluator.passes evaluateWith
  rw [sets_pass plain formed]
  simp only [bind_assoc, pure_bind, echoes_pass plain formed, map_eq_pure_bind]
  apply (Agree.forM fun item member => item_bind_agree (formed item member)).bind
  intro _ _
  apply (Agree.mapM fun item member => item_show_agree (formed item member)).bind
  intro shown settled
  rw [ifs_pass plain settled]
  simp only [map_eq_pure_bind, bind_assoc, pure_bind]
  apply (Agree.mapM fun item member => choose_agree (settled item member)).bind
  intro pieces chosen
  have flat : ∀ piece ∈ pieces.flatten, piece.Settled [] := by
    intro piece member
    obtain ⟨group, among, inside⟩ := List.mem_flatten.1 member
    exact chosen group among piece inside
  rw [includes_pass plain included flat]
  simp only [map_eq_pure_bind]
  apply (Agree.mapM fun piece _ => fetch_agree each piece).bind
  exact fun _ _ => Agree.pure trivial

end Passes

section Nesting
variable {σ : Type} (library : Library σ) (ctx : RequestContext)

def Library.evaluator (maxDepth : Nat) : Evaluator σ where
  sources := library.sources
  maxDepth := maxDepth

theorem fetch_eq (maxDepth level : Nat) (path : String) :
    (library.evaluator maxDepth).fetch ctx level path =
      (fun fragment => source fragment.items) <$> library.fetch ctx level path := by
  have looked : share ((library.evaluator maxDepth).sources.lookup path) =
      Option.map (fun fragment => source fragment.items) <$> share (library.lookup path) := rfl
  have dispatched : share ((library.evaluator maxDepth).sources.dispatch (ctx.atLocation path)) =
      Except.map (fun fragment => source fragment.items) <$>
        share (library.dispatch (ctx.atLocation path)) := rfl
  unfold Evaluator.fetch Library.fetch
  simp only [looked, dispatched, map_eq_pure_bind, bind_assoc, pure_bind]
  refine bind_congr fun _ => bind_congr fun hit => ?_
  cases hit with
  | some cached => simp only [Option.map_some, pure_bind]
  | none =>
    simp only [Option.map_none, bind_assoc]
    refine bind_congr fun _ => bind_congr fun outcome => ?_
    cases outcome with
    | ok fragment => simp only [Except.map, pure_bind]
    | error failure => rfl

theorem library_fetch_agree {marks : List (List Char)} (level : Nat) (path : String) :
    Agree marks (fun _ => True) (library.fetch ctx level path) (library.fetch ctx level path) := by
  unfold Library.fetch
  refine (Agree.visit _).bind fun _ _ => (Agree.share _).bind fun hit _ => ?_
  cases hit with
  | some cached => exact Agree.pure trivial
  | none =>
    refine (Agree.visit _).bind fun _ _ => (Agree.share _).bind fun outcome _ => ?_
    cases outcome with
    | ok fragment => exact Agree.pure trivial
    | error failure => exact Agree.fail _

theorem evaluate_agree (maxDepth levels : Nat) (document : Document) :
    Agree valueMarks (fun _ => True)
      ((library.evaluator maxDepth).evaluate ctx levels (source document.items).toList)
      (library.evaluate ctx maxDepth levels document.items) := by
  induction levels generalizing document with
  | zero => exact passes_agree rfl document.wellFormed fun path => Agree.fail _
  | succ levels ih =>
    apply passes_agree rfl document.wellFormed
    intro path
    rw [fetch_eq]
    simp only [map_eq_pure_bind, bind_assoc, pure_bind]
    exact (library_fetch_agree library ctx _ _).bind fun fragment _ => ih fragment

theorem evaluate_document (maxDepth : Nat) (document : Document) (shared : σ) :
    (library.evaluator maxDepth).evaluateDocument ctx (source document.items) shared =
      library.evaluateItems ctx maxDepth document.items shared := by
  have quiet : Quiet valueMarks ({ shared } : Session σ) := by
    intro name value found
    cases found
  obtain ⟨same, _⟩ := evaluate_agree library ctx maxDepth maxDepth document _ quiet
  unfold Evaluator.evaluateDocument Library.evaluateItems
  exact congrArg (fun answer => (answer.1.map String.ofList, answer.2)) same

end Nesting

def greetingFragment : Document where
  items := [.leaf (.text "Good evening, "), .leaf (.echo "user")]
  wellFormed := by decide +kernel

def greetingLibrary : Library Unit where
  lookup _ state := (none, state)
  dispatch _ state := (.ok greetingFragment, state)

/-- Text that only resembles a directive, a quote in a value and a dollar sign before a reference do
no harm. -/
def greetingPage : Document where
  items := [.leaf (.set "user" "O'Neil"), .leaf (.text "<!--#config--> <b>"),
    .block ⟨[.literal "$", .reference "user"]⟩ [.text "Hello ", .echo "user"] (some [.text "Hello"]),
    .leaf (.text ". "), .leaf (.fragment ⟨[.literal "/greeting/", .reference "user"]⟩)]
  wellFormed := by decide +kernel

theorem greeting_page_evaluated :
    (greetingLibrary.evaluator 16).evaluateDocument (.ofLocation "/")
        (source greetingPage.items) () =
      greetingLibrary.evaluateItems (.ofLocation "/") 16 greetingPage.items () ∧
    ((greetingLibrary.evaluator 16).evaluateDocument (.ofLocation "/")
        (source greetingPage.items) ()).1.toOption =
      some "<!--#config--> <b>Hello O'Neil. Good evening, O'Neil" := by
  have same := evaluate_document greetingLibrary (.ofLocation "/") 16 greetingPage ()
  refine ⟨same, ?_⟩
  rw [same]
  decide +kernel

/-- Without the conditions on texts it would not hold: a text that spells a directive is one. -/
theorem spelled_directive_evaluated :
    ((Library.empty.evaluator 16).evaluateDocument (.ofLocation "/")
        (source [.leaf (.text "<!--#set var='a' value='b'-->")]) ()).1.toOption = some "" ∧
      (Library.empty.evaluateItems (.ofLocation "/") 16
        [.leaf (.text "<!--#set var='a' value='b'-->")] ()).1.toOption =
        some "<!--#set var='a' value='b'-->" ∧
      (Library.empty.evaluator 16).evaluateDocument (.ofLocation "/")
          (source [.leaf (.text "<!--#set var='a' value='b'-->")]) () ≠
        Library.empty.evaluateItems (.ofLocation "/") 16
          [.leaf (.text "<!--#set var='a' value='b'-->")] () := by
  have program : ((Library.empty.evaluator 16).evaluateDocument (.ofLocation "/")
      (source [.leaf (.text "<!--#set var='a' value='b'-->")]) ()).1.toOption = some "" := by
    decide +kernel
  have items : (Library.empty.evaluateItems (.ofLocation "/") 16
      [.leaf (.text "<!--#set var='a' value='b'-->")] ()).1.toOption =
      some "<!--#set var='a' value='b'-->" := by decide +kernel
  refine ⟨program, items, ?_⟩
  intro same
  rw [same, items] at program
  exact absurd program (by decide)

end TwoPhase.Markup
