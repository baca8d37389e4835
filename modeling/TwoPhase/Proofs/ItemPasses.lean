import TwoPhase.Proofs.DirectiveReading
import TwoPhase.Proofs.Items
import TwoPhase.Proofs.Passes

/-
The four passes over a document written out from items. Each pass is the matching phase of the
items' own evaluation, because every directive is read where it was written and nothing is
read anywhere else. What the phases have in common is that they handle one item after another.
-/
namespace TwoPhase.Markup
open Evaluation Directive.Form

section Characters
variable {name value : String} {path expression : Template}

theorem toList_joined (texts : List String) :
    (joined "" texts).toList = texts.flatMap String.toList := by
  fun_induction joined "" texts with
  | case1 => rfl
  | case2 last => simp
  | case3 first rest _ ih => simp [ih]

theorem Template.source_toList (template : Template) :
    template.source.toList = template.parts.flatMap fun part => part.source.toList := by
  rw [source, toList_joined, List.flatMap_map]

theorem Part.reference_toList : (Part.reference name).source.toList = referenceSource name.toList := by
  unfold Part.source Directive.reference referenceSource referenceStart referenceEnd
  rw [String.toList_append, String.toList_append]

theorem Leaf.set_toList : (Leaf.set name value).source.toList =
    SetForm.source ⟨name.toList, Directive.escapeChars value.toList⟩ := by
  have escaped : (Directive.escape (Directive.valueText (.str value))).toList =
      Directive.escapeChars value.toList := String.toList_ofList
  unfold Leaf.source Directive.set SetForm.source setStart setMiddle directiveEnd
  rw [String.toList_append, String.toList_append, String.toList_append, String.toList_append,
    escaped]

theorem Leaf.echo_toList : (Leaf.echo name).source.toList = echoSource name.toList := by
  unfold Leaf.source Directive.echo echoSource echoStart echoEnd
  rw [String.toList_append, String.toList_append]

def fragmentForm (path : Template) : IncludeForm := ⟨fileWord, path.source.toList⟩

theorem Leaf.fragment_toList :
    (Leaf.fragment path).source.toList = (fragmentForm path).source := by
  have opening : "<!--#include file='".toList = includeStart ++ fileWord ++ attributeStart := by
    decide
  unfold Leaf.source Directive.includeFile IncludeForm.source
  rw [String.toList_append, String.toList_append, opening]
  rfl

def leavesSource (leaves : List Leaf) : List Char := leaves.flatMap fun leaf => leaf.source.toList

theorem toList_joined_leaves (leaves : List Leaf) :
    (joined "" (leaves.map Leaf.source)).toList = leavesSource leaves := by
  rw [toList_joined, List.flatMap_map]
  rfl

theorem Item.block_toList (yes : List Leaf) (no : Option (List Leaf)) :
    (Item.block expression yes no).source.toList =
      IfForm.source ⟨expression.source.toList, leavesSource yes, no.map leavesSource⟩ := by
  have opening : (Directive.ifOpen expression.source).toList =
      ifStart ++ expression.source.toList ++ directiveEnd := by
    unfold Directive.ifOpen ifStart directiveEnd
    rw [String.toList_append, String.toList_append]
  have alternative : (no.elim "" fun no =>
      Directive.elseMark ++ joined "" (no.map Leaf.source)).toList =
      (no.map leavesSource).elim [] fun no => Directive.Form.elseMark ++ no := by
    cases no with
    | none => exact String.toList_empty
    | some no =>
      rw [Option.elim_some, Option.map_some, Option.elim_some, String.toList_append,
        toList_joined_leaves]
      rfl
  unfold Item.source IfForm.source IfForm.header
  rw [String.toList_append, String.toList_append, String.toList_append, opening,
    toList_joined_leaves, alternative]
  rfl

theorem source_toList (items : List Item) :
    (source items).toList = items.flatMap fun item => item.source.toList := by
  rw [source, toList_joined, List.flatMap_map]

end Characters

section References
variable {σ : Type} {place : String}

theorem references_silent {text rest : List Char} (avoids : AvoidsBefore referenceStart rest text) :
    references.Silent text rest := by
  induction text with
  | nil => trivial
  | cons c text ih =>
    refine ⟨?_, ih avoids.2⟩
    cases found : references.read? (c :: text ++ rest) with
    | none => rfl
    | some piece =>
      obtain ⟨mark, member, begins⟩ := references_opensWith _ _ _ found
      rw [List.mem_singleton.1 member] at begins
      exact absurd begins avoids.1

theorem fillIn_parts {parts : List Part} (readsBack : Template.ReadsBack parts) :
    fillIn (σ := σ) place (parts.flatMap fun part => part.source.toList) = do
      let texts ← parts.mapM (Part.evaluate place)
      return texts.flatten := by
  induction parts with
  | nil => exact replaceAll_nil
  | cons part parts ih =>
    unfold fillIn at ih ⊢
    rw [List.flatMap_cons, List.mapM_cons]
    cases part with
    | literal content =>
      have following : (joined "" (parts.map Part.source)).toList =
          parts.flatMap fun part => part.source.toList := by
        rw [toList_joined, List.flatMap_map]
      have silent := references_silent (following ▸ readsBack.1)
      rw [Part.source, replaceAll_silent silent, ih readsBack.2]
      simp [Part.evaluate]
    | reference name =>
      have read := readReference?_source (by simpa using readsBack.1) readsBack.2.1
        (parts.flatMap fun part => part.source.toList)
      rw [Part.reference_toList, replaceAll_read read, ih readsBack.2.2]
      simp [Part.evaluate]

theorem Template.WellFormed.fillIn {template : Template} (formed : template.WellFormed) :
    fillIn (σ := σ) place template.source.toList = template.evaluate place := by
  rw [Template.source_toList]
  exact fillIn_parts formed.readsBack

end References

section Attributes
variable {marks fewer : List (List Char)} {opening inner : List Char}

def passMarks : List (List Char) :=
  [setStart, echoStart, ifStart, Directive.Form.elseMark, Directive.Form.endMark]

theorem attribute_clean (before : Clean marks opening) (within : Clean marks (inner ++ ['\'']))
    (after : Clean marks "-->".toList) : Clean marks (opening ++ inner ++ directiveEnd) := by
  have parts : opening ++ inner ++ directiveEnd = opening ++ (inner ++ ['\''] ++ "-->".toList) := by
    have ending : directiveEnd = ['\''] ++ "-->".toList := by decide
    rw [ending]
    simp only [List.append_assoc]
  rw [parts]
  exact before.append (within.append after)

theorem fileStart_clean : Clean passMarks fileStart := by decide

theorem directiveTail_clean : Clean passMarks "-->".toList := by decide

theorem fragment_clean {path : Template} (known : marks ⊆ passMarks)
    (clean : Clean marks (path.source.toList ++ ['\''])) : Clean marks (fragmentForm path).source :=
  attribute_clean (fileStart_clean.mono known) clean (directiveTail_clean.mono known)

theorem Leaf.WellFormed.mono {leaf : Leaf} (formed : leaf.WellFormed marks)
    (subset : fewer ⊆ marks) : leaf.WellFormed fewer := by
  cases leaf with
  | text content => exact Clean.mono_left formed subset
  | set name value => exact formed
  | echo name => exact formed
  | fragment path => exact ⟨formed.1, formed.2.1, formed.2.2.mono subset⟩

theorem NameFormed.toList_ne_nil {name : String} (formed : NameFormed name) : name.toList ≠ [] := by
  simpa using formed.nonempty

end Attributes

section Blocks
variable {σ μ β : Type} {pattern : Pattern μ} {replace : μ → Evaluation σ (List Char)}

theorem block_handled {marks : List (List Char)} (opens : pattern.OpensWith marks)
    {expression : List Char} (header : Clean marks (ifStart ++ expression ++ directiveEnd))
    (between : Clean marks Directive.Form.elseMark) (ending : Clean marks Directive.Form.endMark)
    {source : Leaf → List Char} {action : Leaf → Evaluation σ β} {written : β → List Char}
    {yes : List Leaf} {no : Option (List Leaf)}
    (inYes : ∀ leaf ∈ yes, Handles pattern replace (source leaf) (written <$> action leaf))
    (inNo : ∀ leaf ∈ no.getD [], Handles pattern replace (source leaf) (written <$> action leaf)) :
    Handles pattern replace
      (IfForm.source ⟨expression, yes.flatMap source, no.map fun leaves => leaves.flatMap source⟩)
      (do
        let yes ← yes.mapM action
        let no ← no.elim (pure none) fun leaves => some <$> leaves.mapM action
        return IfForm.source ⟨expression, yes.flatMap written, no.map fun leaves =>
          leaves.flatMap written⟩) := by
  have inElse : ∀ branch ∈ no.map fun leaves => (leaves.flatMap source,
        (fun results => results.flatMap written) <$> leaves.mapM action),
      Handles pattern replace branch.1 branch.2 := by
    intro branch member
    obtain ⟨leaves, rfl, rfl⟩ := Option.map_eq_some_iff.1 member
    exact Handles.flatMap inNo
  have handled := (Handles.flatMap inYes).block opens header between ending _ inElse
  cases no with
  | none =>
    simpa only [Option.map_none, Option.elim_none, map_eq_pure_bind, bind_assoc, pure_bind]
      using handled
  | some no =>
    simpa only [Option.map_some, Option.elim_some, map_eq_pure_bind, bind_assoc, pure_bind]
      using handled

end Blocks

section Sets
variable {σ : Type} {evaluator : Evaluator σ}

def Leaf.unset : Leaf → List Char
  | text content => content.toList
  | set _ _ => []
  | echo name => echoSource name.toList
  | fragment path => (fragmentForm path).source

def Item.unset : Item → List Char
  | leaf content => content.unset
  | block expression yes no =>
    IfForm.source ⟨expression.source.toList, yes.flatMap Leaf.unset,
      no.map fun leaves => leaves.flatMap Leaf.unset⟩

/-- Whatever its value is, since that is escaped. -/
theorem set_statement_handled (evaluator : Evaluator σ) {name : String} (formed : NameFormed name)
    (value : String) :
    Handles sets evaluator.evaluateSet (Leaf.set name value).source.toList (do
      Evaluation.bind name value
      return if evaluator.verbose then (Leaf.set name value).source.toList else []) := by
  have read := SetForm.read?_source formed.toList_ne_nil formed.unquoted
  have done : evaluator.evaluateSet ⟨name.toList, Directive.escapeChars value.toList⟩ = (do
      Evaluation.bind name value
      return if evaluator.verbose then (Leaf.set name value).source.toList else []) := by
    simp [Evaluator.evaluateSet, Directive.unescape_escape_chars, Leaf.set_toList]
  have handled : Handles sets evaluator.evaluateSet _ _ :=
    Handles.read fun rest => read rest (escapedRun_escape value.toList)
  rw [done, ← Leaf.set_toList] at handled
  exact handled

theorem set_leaf_handled (plain : evaluator.verbose = false) {name : String}
    (formed : NameFormed name) (value : String) :
    Handles sets evaluator.evaluateSet (Leaf.set name value).source.toList
      (do Evaluation.bind name value; return []) := by
  simpa [plain] using set_statement_handled evaluator formed value

theorem set_handled (plain : evaluator.verbose = false) {leaf : Leaf}
    (formed : leaf.WellFormed [setStart]) :
    Handles sets evaluator.evaluateSet leaf.source.toList (do leaf.bind; return leaf.unset) := by
  cases leaf with
  | text content =>
    have clean : Clean [setStart] content.toList := Clean.mono formed (List.subset_append_left _ _)
    simpa [Leaf.bind, Leaf.unset, Leaf.source] using Handles.clean _ sets_opensWith clean
  | set name value => exact set_leaf_handled plain formed.1 value
  | echo name =>
    have silent := Handles.silent evaluator.evaluateSet
      (sets_silent_echo formed.unquoted)
    rw [Leaf.echo_toList]
    simpa [Leaf.bind, Leaf.unset] using silent
  | fragment path =>
    have clean := fragment_clean (by decide) formed.2.2
    rw [Leaf.fragment_toList]
    simpa [Leaf.bind, Leaf.unset] using Handles.clean _ sets_opensWith clean

theorem mapM_then {α β : Type} (effect : α → Evaluation σ Unit) (left : α → β) (parts : List α) :
    (parts.mapM fun part => do effect part; return left part) =
      (do parts.forM effect; return parts.map left) := by
  induction parts with
  | nil => exact (pure_bind _ _).symm
  | cons part parts ih =>
    have effects : (part :: parts).forM effect = (do effect part; parts.forM effect) := rfl
    rw [List.mapM_cons, ih, effects]
    simp only [bind_assoc, pure_bind, List.map_cons]

theorem sets_item_handled (plain : evaluator.verbose = false) {item : Item}
    (formed : item.WellFormed) :
    Handles sets evaluator.evaluateSet item.source.toList (do item.bind; return item.unset) := by
  cases item with
  | leaf content => exact set_handled plain (formed.mono (by decide))
  | block expression yes no =>
    obtain ⟨_, clean, yesFormed, noFormed⟩ := formed
    have header : Clean [setStart] (ifStart ++ expression.source.toList ++ directiveEnd) :=
      attribute_clean (by decide) (clean.mono (by decide)) (by decide)
    have each : ∀ leaf : Leaf, leaf.WellFormed [setStart] →
        Handles sets evaluator.evaluateSet leaf.source.toList
          (id <$> do leaf.bind; return leaf.unset) := by
      intro leaf formed
      rw [id_map]
      exact set_handled plain formed
    have handled := block_handled sets_opensWith header (by decide) (by decide)
      (fun leaf member => each leaf ((yesFormed leaf member).mono (by decide)))
      (fun leaf member => each leaf ((noFormed leaf member).mono (by decide)))
    have nothing : ([] : List Leaf).forM Leaf.bind = (pure () : Evaluation σ Unit) := rfl
    have all : ∀ leaves : List Leaf, (leaves.map Leaf.unset).flatMap id = leaves.flatMap Leaf.unset :=
      fun leaves => List.flatMap_map ..
    rw [Item.block_toList]
    intro rest
    refine (handled rest).trans ?_
    cases no with
    | none =>
      simp only [mapM_then, Item.bind, Item.unset, Option.elim_none, Option.map_none, bind_assoc,
        pure_bind, all, Option.getD_none, nothing]
    | some no =>
      simp only [mapM_then, Item.bind, Item.unset, Option.elim_some, Option.map_some, bind_assoc,
        pure_bind, all, Option.getD_some, map_eq_pure_bind]

end Sets

section Pieces

def Piece.written : Piece → List Char
  | text content => content
  | fragment path => (fragmentForm path).source

def piecesText (pieces : List Piece) : List Char := pieces.flatMap Piece.written

def Shown.written : Shown → List Char
  | pieces content => piecesText content
  | block expression yes no =>
    IfForm.source ⟨expression.source.toList, piecesText yes, no.map piecesText⟩

/-- What a leaf has become keeps clear of the marks that the leaf kept clear of. -/
def Piece.Settled (marks : List (List Char)) : Piece → Prop
  | text content => Clean (marks ++ includeMarks) content
  | fragment path =>
    path.WellFormed ∧ path.source ≠ "" ∧ Clean marks (path.source.toList ++ ['\''])

def Shown.Settled : Shown → Prop
  | pieces content => ∀ piece ∈ content, piece.Settled [ifStart]
  | block expression yes no =>
    expression.WellFormed ∧
      (∀ piece ∈ yes, piece.Settled [Directive.Form.elseMark, Directive.Form.endMark]) ∧
      ∀ piece ∈ no.getD [], piece.Settled [Directive.Form.endMark]

variable {marks fewer : List (List Char)}

theorem Piece.Settled.mono {piece : Piece} (settled : piece.Settled marks)
    (subset : fewer ⊆ marks) : piece.Settled fewer := by
  cases piece with
  | text content => exact Clean.mono_left settled subset
  | fragment path => exact ⟨settled.1, settled.2.1, settled.2.2.mono subset⟩

theorem Piece.Settled.clean {piece : Piece} (settled : piece.Settled marks)
    (known : marks ⊆ passMarks) : Clean marks piece.written := by
  cases piece with
  | text content => exact Clean.mono settled (List.subset_append_left _ _)
  | fragment path => exact fragment_clean known settled.2.2

theorem piecesText_clean {pieces : List Piece} (settled : ∀ piece ∈ pieces, piece.Settled marks)
    (known : marks ⊆ passMarks) : Clean marks (piecesText pieces) :=
  Clean.flatMap fun piece member => (settled piece member).clean known

theorem piecesText_flatten (pieces : List (List Piece)) :
    pieces.flatMap piecesText = piecesText pieces.flatten := by
  induction pieces with
  | nil => rfl
  | cons first pieces ih =>
    rw [List.flatMap_cons, ih, List.flatten_cons]
    unfold piecesText
    rw [List.flatMap_append]

end Pieces

section Echoes
variable {σ : Type} {evaluator : Evaluator σ}

theorem echo_leaf_handled (plain : evaluator.verbose = false) {name : String}
    (formed : NameFormed name) :
    Handles echoes evaluator.evaluateEcho (echoSource name.toList)
      (Evaluation.lookup "echo" name.toList) := by
  have read := readEcho?_source formed.toList_ne_nil formed.unquoted
  have done : evaluator.evaluateEcho name.toList = Evaluation.lookup "echo" name.toList := by
    simp [Evaluator.evaluateEcho, Evaluator.wrap, plain]
  have handled : Handles echoes evaluator.evaluateEcho _ _ := Handles.read read
  rwa [done] at handled

theorem echo_handled (plain : evaluator.verbose = false) {leaf : Leaf}
    (formed : leaf.WellFormed [echoStart]) :
    Handles echoes evaluator.evaluateEcho leaf.unset (piecesText <$> leaf.show) := by
  cases leaf with
  | text content =>
    have clean : Clean [echoStart] content.toList := Clean.mono formed (List.subset_append_left _ _)
    simpa [Leaf.show, Leaf.unset, piecesText, Piece.written] using
      Handles.clean evaluator.evaluateEcho echoes_opensWith clean
  | set name value =>
    simpa [Leaf.show, Leaf.unset, piecesText] using
      Handles.clean evaluator.evaluateEcho echoes_opensWith (Clean.nil _)
  | echo name =>
    simpa [Leaf.show, Leaf.unset, piecesText, Piece.written] using echo_leaf_handled plain formed
  | fragment path =>
    have clean := fragment_clean (by decide) formed.2.2
    simpa [Leaf.show, Leaf.unset, piecesText, Piece.written] using
      Handles.clean evaluator.evaluateEcho echoes_opensWith clean

theorem echoes_item_handled (plain : evaluator.verbose = false) {item : Item}
    (formed : item.WellFormed) :
    Handles echoes evaluator.evaluateEcho item.unset (Shown.written <$> item.show) := by
  cases item with
  | leaf content =>
    have handled := echo_handled plain (formed.mono (by decide))
    simpa [Item.show, Item.unset, Shown.written] using handled
  | block expression yes no =>
    obtain ⟨_, clean, yesFormed, noFormed⟩ := formed
    have header : Clean [echoStart] (ifStart ++ expression.source.toList ++ directiveEnd) :=
      attribute_clean (by decide) (clean.mono (by decide)) (by decide)
    have handled := block_handled echoes_opensWith header (by decide) (by decide)
      (fun leaf member => echo_handled plain ((yesFormed leaf member).mono (by decide)))
      (fun leaf member => echo_handled plain ((noFormed leaf member).mono (by decide)))
    intro rest
    refine (handled rest).trans ?_
    cases no with
    | none =>
      simp only [Item.show, Shown.written, Option.elim_none, Option.map_none, bind_assoc, pure_bind,
        map_eq_pure_bind, piecesText_flatten]
    | some no =>
      simp only [Item.show, Shown.written, Option.elim_some, Option.map_some, bind_assoc,
        pure_bind, map_eq_pure_bind, piecesText_flatten]

end Echoes

section Ifs
variable {σ : Type} {evaluator : Evaluator σ}

theorem if_handled (plain : evaluator.verbose = false) {shown : Shown} (settled : shown.Settled) :
    Handles ifs evaluator.evaluateIf shown.written (piecesText <$> shown.choose) := by
  cases shown with
  | pieces content =>
    have clean : Clean [ifStart] (piecesText content) :=
      piecesText_clean settled (by decide)
    simpa [Shown.choose, Shown.written] using Handles.clean evaluator.evaluateIf ifs_opensWith clean
  | block expression yes no =>
    obtain ⟨formed, yesSettled, noSettled⟩ := settled
    have yesClean := piecesText_clean yesSettled (by decide)
    have noClean : Avoids Directive.Form.endMark ((no.map piecesText).getD []) := by
      cases no with
      | none => trivial
      | some no => exact piecesText_clean noSettled (by decide) _ (by simp)
    have read : ∀ rest, ifs.read? _ = some _ := fun rest =>
      IfForm.read?_source formed.unquoted rest (piecesText yes) (no.map piecesText)
        (yesClean _ (by simp)) (yesClean _ (by simp)) noClean
    have handled : Handles ifs evaluator.evaluateIf _ _ := Handles.read read
    have branch : (no.map piecesText).getD [] = piecesText (no.getD []) := by
      cases no <;> rfl
    have done : evaluator.evaluateIf ⟨expression.source.toList, piecesText yes, no.map piecesText⟩ =
        piecesText <$> (Shown.block expression yes no).choose := by
      simp only [Evaluator.evaluateIf, Evaluator.wrap, plain, formed.fillIn, branch, Shown.choose,
        map_eq_pure_bind, bind_assoc, pure_bind]
      refine bind_congr fun value => ?_
      rw [if_neg Bool.false_ne_true, apply_ite piecesText]
    rw [done] at handled
    exact handled

end Ifs

section Includes
variable {σ : Type} {evaluator : Evaluator σ}

theorem include_handled (plain : evaluator.verbose = false)
    (included : List Char → Evaluation σ (List Char)) {piece : Piece} (settled : piece.Settled []) :
    Handles includes (fun form => do
        let path ← fillIn "include path" form.path
        return evaluator.wrap form.source (← included path))
      piece.written (piece.fetch included) := by
  have pass : (fun form : IncludeForm => do
      let path ← fillIn "include path" form.path
      return evaluator.wrap form.source (← included path)) =
      (fun form => do included (← fillIn "include path" form.path)) := by
    funext form
    simp [Evaluator.wrap, plain]
  rw [pass]
  cases piece with
  | text content => exact Handles.clean _ includes_opensWith settled
  | fragment path =>
    have nonempty : path.source.toList ≠ [] := by simpa using settled.2.1
    have handled : Handles includes
        (fun form => do included (← fillIn "include path" form.path)) _ _ :=
      Handles.read fun rest =>
        IncludeForm.read?_source nonempty settled.1.unquoted rest (Or.inr rfl)
    simp only [settled.1.fillIn] at handled
    exact handled

end Includes

end TwoPhase.Markup
