import Mathlib.Data.List.Infix
import TwoPhase.Proofs.ItemEvaluation
import TwoPhase.Proofs.PublishedNames
import TwoPhase.Proofs.Replay
import TwoPhase.Proofs.SetStatements

/-
Rendering in two phases gives the page that writing the values in directly would have given.
The statements in front of the page bind every name to its own value, whatever the values are,
because names are hashes and values are escaped. From then on the session does not change:
the remaining passes replace what the page shows, piece by piece.
-/
namespace TwoPhase
open Evaluation Markup Directive.Form

/-- The text holds no opening of a directive and does not end in the beginning of one. -/
structure Undirected (text : List Char) : Prop where
  unopened : ¬ openStart <:+: text
  unbegun : ∀ beginning, beginning <+: openStart → beginning <:+ text → beginning = []

namespace Undirected
variable {text mark : List Char}

theorem tail {c : Char} (undirected : Undirected (c :: text)) : Undirected text where
  unopened inside := undirected.unopened (inside.trans (List.suffix_cons c text).isInfix)
  unbegun beginning begins ends :=
    undirected.unbegun beginning begins (ends.trans (List.suffix_cons c text))

theorem avoids (undirected : Undirected text) (opened : openStart <+: mark) : Avoids mark text := by
  induction text with
  | nil => trivial
  | cons c text ih =>
    refine ⟨?_, ?_, ih undirected.tail⟩
    · intro begins
      exact undirected.unopened (opened.trans begins).isInfix
    · intro begins
      rcases List.prefix_or_prefix_of_prefix begins opened with shorter | longer
      · cases undirected.unbegun _ shorter (List.suffix_refl _)
      · exact undirected.unopened longer.isInfix

theorem clean (undirected : Undirected text) {marks : List (List Char)}
    (opened : ∀ mark ∈ marks, openStart <+: mark) : Clean marks text :=
  fun mark member => undirected.avoids (opened mark member)

theorem of_not_mem (absent : '<' ∉ text) : Undirected text where
  unopened inside := absent (inside.subset (by decide))
  unbegun beginning begins ends := by
    cases beginning with
    | nil => rfl
    | cons c rest =>
      obtain ⟨after, whole⟩ := begins
      cases (List.cons.inj whole).1
      exact absurd (ends.subset List.mem_cons_self) absent

end Undirected

instance : DecidablePred Undirected := fun text =>
  decidable_of_iff (¬ openStart <:+: text ∧ ∀ beginning ∈ openStart.inits,
      beginning <:+ text → beginning = [])
    ⟨fun both => ⟨both.1, fun beginning begins =>
        both.2 beginning (List.mem_inits _ _ |>.2 begins)⟩,
      fun undirected => ⟨undirected.unopened, fun beginning member =>
        undirected.unbegun beginning (List.mem_inits _ _ |>.1 member)⟩⟩

inductive Inline where
  | text (content : String)
  | echo (v : Variable)

/-- A block shows its first branch if the value of the variable is not empty. -/
inductive PagePart where
  | inline (content : Inline)
  | block (v : Variable) (yes : List Inline) (no : Option (List Inline))

namespace Inline

def source : Inline → String
  | text content => content
  | echo v => v.echo

def rendered (shown : Variable → String) : Inline → String
  | text content => content
  | echo v => shown v

def used : Inline → List Variable
  | text _ => []
  | echo v => [v]

end Inline

namespace PagePart

def source : PagePart → String
  | inline content => content.source
  | block v yes no =>
    v.ifOpen ++ joined "" (yes.map Inline.source) ++
      (no.elim "" fun no => Directive.elseMark ++ joined "" (no.map Inline.source)) ++
      Directive.endMark

def inlines : PagePart → List Inline
  | inline content => [content]
  | block _ yes no => yes ++ no.getD []

def used : PagePart → List Variable
  | inline content => content.used
  | block v yes no => v :: (yes ++ no.getD []).flatMap Inline.used

def chosen (shown : Variable → String) : PagePart → List Inline
  | inline content => [content]
  | block v yes no => if shown v = "" then no.getD [] else yes

def rendered (shown : Variable → String) (part : PagePart) : String :=
  joined "" ((part.chosen shown).map (Inline.rendered shown))

end PagePart

structure Page where
  parts : List PagePart

namespace Page

def source (page : Page) : String := joined "" (page.parts.map PagePart.source)

def used (page : Page) : List Variable := page.parts.flatMap PagePart.used

def rendered (shown : Variable → String) (page : Page) : String :=
  joined "" (page.parts.map (PagePart.rendered shown))

/-- Nothing that the page puts into the output can be taken for a directive. -/
def Undirected (shown : Variable → String) (page : Page) : Prop :=
  ∀ part ∈ page.parts, ∀ content ∈ part.inlines,
    TwoPhase.Undirected (content.rendered shown).toList

end Page

def Table.shown (table : Table) (v : Variable) : String :=
  Directive.valueText ((table.get? v.identifier).getD .null)

section Items

def Inline.leaf : Inline → Leaf
  | text content => .text content
  | echo v => .echo v.identifier

def PagePart.item : PagePart → Item
  | inline content => .leaf content.leaf
  | block v yes no =>
    .block ⟨[.reference v.identifier]⟩ (yes.map Inline.leaf) (no.map (List.map Inline.leaf))

def Page.items (page : Page) : List Item := page.parts.map PagePart.item

theorem Inline.leaf_source (content : Inline) : content.leaf.source = content.source := by
  cases content <;> rfl

theorem PagePart.item_source (part : PagePart) : part.item.source = part.source := by
  have leaves : ∀ contents : List Inline,
      (contents.map Inline.leaf).map Leaf.source = contents.map Inline.source := by
    intro contents
    rw [List.map_map]
    exact List.map_congr_left fun content _ => content.leaf_source
  cases part with
  | inline content => exact content.leaf_source
  | block v yes no =>
    simp only [item, Item.source, source, leaves]
    cases no with
    | none => rfl
    | some no =>
      simp only [Option.map_some, Option.elim_some, leaves]
      rfl

theorem Page.items_source (page : Page) : Markup.source page.items = page.source := by
  unfold Markup.source source items
  rw [List.map_map]
  exact congrArg _ (List.map_congr_left fun part _ => part.item_source)

variable {v : Variable}

theorem not_mem_identifierOf (definition : Json) {c : Char} (special : c.isAlphanum = false) :
    c ∉ (identifierOf definition).toList := by
  intro member
  rw [identifierOf_alphanumeric definition c member] at special
  cases special

theorem Variable.Hashed.not_mem (hashed : v.Hashed) {c : Char} (special : c.isAlphanum = false) :
    c ∉ v.identifier.toList :=
  hashed ▸ not_mem_identifierOf _ special

theorem identifierOf_nameFormed (definition : Json) : NameFormed (identifierOf definition) where
  nonempty := identifierOf_ne_empty _
  unquoted := not_mem_identifierOf definition rfl

theorem Variable.Hashed.nameFormed (hashed : v.Hashed) : NameFormed v.identifier :=
  hashed ▸ identifierOf_nameFormed _

theorem Variable.Hashed.reference_wellFormed (hashed : v.Hashed) :
    Template.WellFormed ⟨[.reference v.identifier]⟩ where
  unquoted := by
    rw [Template.source_toList, List.flatMap_singleton, Part.reference_toList, referenceSource]
    have absent : '\'' ∉ v.identifier.toList := hashed.not_mem rfl
    simp [absent, referenceStart, referenceEnd]
  readsBack := ⟨hashed.nameFormed.nonempty, hashed.not_mem rfl, trivial⟩

theorem Variable.Hashed.reference_clean (hashed : v.Hashed) : Clean [setStart, echoStart]
    ((Template.mk [.reference v.identifier]).source.toList ++ ['\'']) := by
  apply Undirected.clean _ (by decide)
  apply Undirected.of_not_mem
  rw [Template.source_toList, List.flatMap_singleton, Part.reference_toList, referenceSource]
  have absent : '<' ∉ v.identifier.toList := hashed.not_mem rfl
  simp [absent, referenceStart, referenceEnd]

end Items

namespace Evaluation
variable {σ α β : Type} {session : Session σ} {step : Evaluation σ α} {value : α} {result : β}

/-- From this session the step gives the value and changes nothing. -/
def Gives (session : Session σ) (step : Evaluation σ α) (value : α) : Prop :=
  step.run.run session = (.ok value, session)

namespace Gives

theorem pure (value : α) : Gives session (pure value) value := rfl

theorem bind {next : α → Evaluation σ β} (first : Gives session step value)
    (later : Gives session (next value) result) : Gives session (step >>= next) result := by
  unfold Gives at first
  unfold Gives
  rw [run_bind, first]
  exact later

theorem map (f : α → β) (first : Gives session step value) :
    Gives session (f <$> step) (f value) := by
  rw [map_eq_pure_bind]
  exact first.bind (.pure _)

theorem lookup {place name text : String} (known : session.bindings.get? name = some text) :
    Gives session (Evaluation.lookup place name.toList) text.toList := by
  unfold Gives
  rw [run_lookup, String.ofList_toList, known]

theorem mapM {parts : List α} {action : α → Evaluation σ β} {result : α → β}
    (each : ∀ part ∈ parts, Gives session (action part) (result part)) :
    Gives session (parts.mapM action) (parts.map result) := by
  induction parts with
  | nil => exact .pure _
  | cons part parts ih =>
    rw [List.mapM_cons, List.map_cons]
    have later := ih fun other member => each other (List.mem_cons_of_mem _ member)
    exact (each part List.mem_cons_self).bind (later.bind (.pure _))

theorem forM {parts : List α} {effect : α → Evaluation σ Unit}
    (each : ∀ part ∈ parts, Gives session (effect part) ()) :
    Gives session (parts.forM effect) () := by
  induction parts with
  | nil => exact .pure _
  | cons part parts ih =>
    have later := ih fun other member => each other (List.mem_cons_of_mem _ member)
    exact (each part List.mem_cons_self).bind later

end Gives
end Evaluation

theorem getD_map_nil {α β : Type} (f : α → β) (branch : Option (List α)) :
    (branch.map (List.map f)).getD [] = (branch.getD []).map f :=
  Option.getD_map (List.map f) [] branch

section Values
variable {σ : Type} {session : Session σ} {shown : Variable → String}

/-- The names of the variables stand for what they show. -/
def Bound (shown : Variable → String) (session : Session σ) (vars : List Variable) : Prop :=
  ∀ v ∈ vars, session.bindings.get? v.identifier = some (shown v)

def Inline.piece (shown : Variable → String) (content : Inline) : Piece :=
  .text (content.rendered shown).toList

def PagePart.piecesFor (shown : Variable → String) : PagePart → Shown
  | inline content => .pieces [content.piece shown]
  | block v yes no =>
    .block ⟨[.reference v.identifier]⟩ (yes.map (Inline.piece shown))
      (no.map (List.map (Inline.piece shown)))

theorem Inline.bind_gives (content : Inline) : Gives session content.leaf.bind () := by
  cases content <;> exact .pure _

theorem Inline.binds_give (contents : List Inline) :
    Gives session ((contents.map Inline.leaf).forM Leaf.bind) () := by
  apply Gives.forM
  intro leaf member
  obtain ⟨content, _, rfl⟩ := List.mem_map.1 member
  exact content.bind_gives

theorem PagePart.bind_gives (part : PagePart) : Gives session part.item.bind () := by
  cases part with
  | inline content => exact content.bind_gives
  | block v yes no =>
    refine Gives.bind (Inline.binds_give yes) ?_
    rw [getD_map_nil]
    exact Inline.binds_give _

theorem Inline.show_gives {content : Inline} (bound : Bound shown session content.used) :
    Gives session content.leaf.show [content.piece shown] := by
  cases content with
  | text content => exact .pure _
  | echo v => exact (Gives.lookup (bound v List.mem_cons_self)).bind (.pure _)

theorem Inline.shows_give {contents : List Inline}
    (bound : Bound shown session (contents.flatMap Inline.used)) :
    Gives session ((contents.map Inline.leaf).mapM Leaf.show)
      (contents.map fun content => [content.piece shown]) := by
  rw [List.mapM_map]
  apply Gives.mapM
  intro content member
  exact show_gives fun v used => bound v (List.mem_flatMap.2 ⟨content, member, used⟩)

theorem PagePart.show_gives {part : PagePart} (bound : Bound shown session part.used) :
    Gives session part.item.show (part.piecesFor shown) := by
  have single : ∀ contents : List Inline,
      (contents.map fun content => [content.piece shown]).flatten =
        contents.map (Inline.piece shown) := by
    intro contents
    rw [← List.flatMap_def, ← List.map_eq_flatMap]
  cases part with
  | inline content => exact (Inline.show_gives bound).bind (.pure _)
  | block v yes no =>
    have inside : ∀ {contents : List Inline}, contents ⊆ yes ++ no.getD [] →
        Bound shown session (contents.flatMap Inline.used) := by
      intro contents within u used
      obtain ⟨content, member, own⟩ := List.mem_flatMap.1 used
      exact bound u (List.mem_cons_of_mem _ (List.mem_flatMap.2 ⟨content, within member, own⟩))
    have yesShown := Inline.shows_give (inside (List.subset_append_left yes _))
    cases no with
    | none =>
      refine Gives.bind yesShown ?_
      simp only [single]
      exact .pure _
    | some no =>
      have noShown := Inline.shows_give (inside (List.subset_append_right yes _))
      refine Gives.bind yesShown (Gives.bind noShown ?_)
      simp only [single]
      exact .pure _

theorem Template.evaluate_gives {v : Variable} (place : String)
    (known : session.bindings.get? v.identifier = some (shown v)) :
    Gives session ((Template.mk [.reference v.identifier]).evaluate place) (shown v).toList := by
  have value : Gives session ((Part.reference v.identifier).evaluate place) (shown v).toList :=
    .lookup known
  unfold Template.evaluate
  rw [List.mapM_cons, List.mapM_nil]
  refine Gives.bind (value.bind (.pure _)) ?_
  simp only [List.flatten_singleton]
  exact .pure _

theorem PagePart.choose_gives {part : PagePart} (bound : Bound shown session part.used) :
    Gives session (part.piecesFor shown).choose ((part.chosen shown).map (Inline.piece shown)) := by
  cases part with
  | inline content => exact .pure _
  | block v yes no =>
    refine (Template.evaluate_gives "if expression" (bound v List.mem_cons_self)).bind ?_
    simp only [List.isEmpty_iff, String.toList_eq_nil_iff, getD_map_nil]
    rw [← apply_ite (List.map _)]
    exact .pure _

end Values

section Formed
variable {shown : Variable → String} {marks : List (List Char)}

theorem Inline.leaf_wellFormed {content : Inline} (hashed : ∀ v ∈ content.used, v.Hashed)
    (undirected : Undirected (content.rendered shown).toList)
    (opened : ∀ mark ∈ marks ++ includeMarks, openStart <+: mark) :
    content.leaf.WellFormed marks := by
  cases content with
  | text content => exact undirected.clean opened
  | echo v => exact (hashed v List.mem_cons_self).nameFormed

theorem PagePart.item_wellFormed {part : PagePart} (hashed : ∀ v ∈ part.used, v.Hashed)
    (undirected : ∀ content ∈ part.inlines, Undirected (content.rendered shown).toList) :
    part.item.WellFormed := by
  cases part with
  | inline content =>
    exact content.leaf_wellFormed hashed (undirected content List.mem_cons_self) (by decide)
  | block v yes no =>
    have named := hashed v List.mem_cons_self
    have inside : ∀ content ∈ yes ++ no.getD [], ∀ u ∈ content.used, u.Hashed :=
      fun content member u used =>
        hashed u (List.mem_cons_of_mem _ (List.mem_flatMap.2 ⟨content, member, used⟩))
    refine ⟨named.reference_wellFormed, named.reference_clean, ?_, ?_⟩
    · intro leaf member
      obtain ⟨content, written, rfl⟩ := List.mem_map.1 member
      have member : content ∈ yes ++ no.getD [] := List.mem_append_left _ written
      exact content.leaf_wellFormed (inside content member) (undirected content member) (by decide)
    · intro leaf member
      rw [getD_map_nil] at member
      obtain ⟨content, written, rfl⟩ := List.mem_map.1 member
      have member : content ∈ yes ++ no.getD [] := List.mem_append_right _ written
      exact content.leaf_wellFormed (inside content member) (undirected content member) (by decide)

theorem Inline.piece_settled {contents : List Inline}
    (undirected : ∀ content ∈ contents, Undirected (content.rendered shown).toList)
    (opened : ∀ mark ∈ marks ++ includeMarks, openStart <+: mark) :
    ∀ piece ∈ contents.map (Inline.piece shown), piece.Settled marks := by
  intro piece member
  obtain ⟨content, written, rfl⟩ := List.mem_map.1 member
  exact (undirected content written).clean opened

theorem PagePart.pieces_settled {part : PagePart} (hashed : ∀ v ∈ part.used, v.Hashed)
    (undirected : ∀ content ∈ part.inlines, Undirected (content.rendered shown).toList) :
    (part.piecesFor shown).Settled := by
  cases part with
  | inline content =>
    have alone : ∀ other ∈ [content], Undirected (other.rendered shown).toList := undirected
    exact Inline.piece_settled alone (by decide)
  | block v yes no =>
    have named := hashed v List.mem_cons_self
    refine ⟨named.reference_wellFormed, ?_, ?_⟩
    · exact Inline.piece_settled (fun content member =>
        undirected content (List.mem_append_left _ member)) (by decide)
    · rw [getD_map_nil]
      exact Inline.piece_settled (fun content member =>
        undirected content (List.mem_append_right _ member)) (by decide)

end Formed

section Chosen
variable {shown : Variable → String}

theorem PagePart.chosen_subset (part : PagePart) : part.chosen shown ⊆ part.inlines := by
  cases part with
  | inline content => exact List.Subset.refl _
  | block v yes no =>
    simp only [chosen, inlines]
    split
    · exact List.subset_append_right yes _
    · exact List.subset_append_left yes _

def Page.chosen (shown : Variable → String) (page : Page) : List Inline :=
  page.parts.flatMap (PagePart.chosen shown)

theorem Page.chosen_undirected {page : Page} (undirected : page.Undirected shown) :
    ∀ content ∈ page.chosen shown, TwoPhase.Undirected (content.rendered shown).toList := by
  intro content member
  obtain ⟨part, written, inside⟩ := List.mem_flatMap.1 member
  exact undirected part written content (part.chosen_subset inside)

theorem Page.chosen_pieces (page : Page) (shown : Variable → String) :
    (page.parts.map fun part => (part.chosen shown).map (Inline.piece shown)).flatten =
      (page.chosen shown).map (Inline.piece shown) := by
  rw [← List.flatMap_def, chosen, List.map_flatMap]

theorem Page.rendered_toList (page : Page) (shown : Variable → String) :
    (page.rendered shown).toList =
      ((page.chosen shown).map fun content => (content.rendered shown).toList).flatten := by
  have part : ∀ part : PagePart, (part.rendered shown).toList =
      ((part.chosen shown).map fun content => (content.rendered shown).toList).flatten := by
    intro part
    rw [PagePart.rendered, toList_joined, List.flatMap_map, List.flatMap_def]
  rw [rendered, toList_joined, List.flatMap_map, chosen, ← List.flatMap_def, List.flatMap_assoc]
  simp only [part, List.flatMap_def]

end Chosen

section Passes
variable {σ : Type} {evaluator : Evaluator σ} {session : Session σ} {shown : Variable → String}
  {page : Page} (plain : evaluator.verbose = false)
  (included : List Char → Evaluation σ (List Char))
include plain

theorem passes_page (hashed : ∀ v ∈ page.used, v.Hashed) (undirected : page.Undirected shown)
    (bound : Bound shown session page.used) :
    Gives session (evaluator.passes included page.source.toList) (page.rendered shown).toList := by
  have inside : ∀ part ∈ page.parts, ∀ v ∈ part.used, v ∈ page.used :=
    fun part member v used => List.mem_flatMap.2 ⟨part, member, used⟩
  have formed : ∀ item ∈ page.items, item.WellFormed := by
    intro item member
    obtain ⟨part, written, rfl⟩ := List.mem_map.1 member
    exact part.item_wellFormed (fun v used => hashed v (inside part written v used))
      (undirected part written)
  have settled : ∀ shown' ∈ page.parts.map (PagePart.piecesFor shown), shown'.Settled := by
    intro shown' member
    obtain ⟨part, written, rfl⟩ := List.mem_map.1 member
    exact part.pieces_settled (fun v used => hashed v (inside part written v used))
      (undirected part written)
  have first : Gives session (page.items.forM Item.bind) () := by
    apply Gives.forM
    intro item member
    obtain ⟨part, _, rfl⟩ := List.mem_map.1 member
    exact part.bind_gives
  have second : Gives session (page.items.mapM Item.show)
      (page.parts.map (PagePart.piecesFor shown)) := by
    unfold Page.items
    rw [List.mapM_map]
    exact Gives.mapM fun part written => part.show_gives fun v used =>
      bound v (inside part written v used)
  have third : Gives session ((page.parts.map (PagePart.piecesFor shown)).mapM Shown.choose)
      (page.parts.map fun part => (part.chosen shown).map (Inline.piece shown)) := by
    rw [List.mapM_map]
    exact Gives.mapM fun part written => part.choose_gives fun v used =>
      bound v (inside part written v used)
  unfold Evaluator.passes
  rw [← page.items_source, sets_pass plain formed]
  refine Gives.bind (first.bind (.pure _)) ?_
  rw [echoes_pass plain formed]
  refine Gives.bind (second.map _) ?_
  rw [ifs_pass plain settled]
  refine Gives.bind (third.map _) ?_
  have quiet : ∀ piece ∈ (page.chosen shown).map (Inline.piece shown), piece.Settled [] :=
    Inline.piece_settled (Page.chosen_undirected undirected) (by decide)
  rw [page.chosen_pieces, includes_pass plain included quiet, page.rendered_toList]
  refine Gives.map List.flatten ?_
  rw [List.mapM_map]
  exact Gives.mapM fun content _ => .pure _

end Passes

section Statements
variable {σ : Type} {evaluator : Evaluator σ}

theorem passes_statements (plain : evaluator.verbose = false)
    (included : List Char → Evaluation σ (List Char)) {entries : List (String × Json)}
    (formed : ∀ entry ∈ entries, NameFormed entry.1) (rest : List Char) :
    evaluator.passes included (statementsFor entries ++ rest) =
      (do entries.forM bindEntry; evaluator.passes included rest) := by
  unfold Evaluator.passes
  rw [sets_statements evaluator formed, plain]
  simp

end Statements

section Delivered
variable {σ : Type}

theorem Evaluator.exists_passes (evaluator : Evaluator σ) (ctx : RequestContext) (levels : Nat) :
    ∃ included, evaluator.evaluate ctx levels = evaluator.passes included := by
  cases levels with
  | zero => exact ⟨_, rfl⟩
  | succ levels => exact ⟨_, rfl⟩

theorem evaluateDocument_page {evaluator : Evaluator σ} (plain : evaluator.verbose = false)
    (ctx : RequestContext) {page : Page} {table : Table} (shared : σ)
    (hashed : ∀ v ∈ page.used, v.Hashed)
    (named : ∀ name, table.contains name = true → ∃ definition, name = identifierOf definition)
    (served : ∀ v ∈ page.used, table.contains v.identifier = true)
    (undirected : page.Undirected table.shown) :
    ∃ bindings, evaluator.evaluateDocument ctx (table.statements ++ page.source) shared =
      (.ok (page.rendered table.shown), { bindings, shared }) := by
  obtain ⟨included, passes⟩ := evaluator.exists_passes ctx evaluator.maxDepth
  have formed : ∀ entry ∈ table.entries, NameFormed entry.1 := by
    intro entry member
    obtain ⟨definition, hash⟩ := named entry.1 (Entries.get?_isSome_of_mem member)
    exact hash ▸ identifierOf_nameFormed definition
  obtain ⟨bindings, ran, _, bound⟩ :=
    run_bindEntries table.entries ({ shared } : Session σ)
  have known : Bound table.shown ({ bindings, shared } : Session σ) page.used := by
    intro v used
    obtain ⟨value, found⟩ := Option.isSome_iff_exists.1 (served v used)
    rw [Table.shown, found, Option.getD_some]
    exact bound (Entries.names_nodup table.ordered) _ _ (Entries.mem_of_get? found)
  have rendered := passes_page plain included hashed undirected known
  refine ⟨bindings, ?_⟩
  unfold Evaluator.evaluateDocument
  rw [passes, String.toList_append, table.statements_toList,
    passes_statements plain included formed, run_bind, ran]
  dsimp only
  rw [rendered]
  simp only [Except.map, String.ofList_toList]

end Delivered

theorem Response.body_removeHeader (response : Response) (name : String) :
    (response.removeHeader name).body = response.body := by
  unfold removeHeader
  split <;> rfl

/-- Whatever the other variables are worth, the page that is delivered shows the values of its
own. -/
theorem deliver_page {σ : Type} (delivery : Delivery σ) (ctx : RequestContext) (response : Response)
    (shared : σ) (page : Page) (table : Table) (renders : delivery.render = true)
    (plain : delivery.evaluator.verbose = false) (body : response.body = page.source)
    (fresh : ctx.needed.isEmpty = true → response.header Header.name = none)
    (resolved : resolve (delivery.registry.compute ctx) ctx.needed = .ok table)
    (hashed : ∀ v, Requested ctx.needed v → v.Hashed)
    (registered : ∀ v ∈ page.used, v ∈ ctx.needed.toList ∧ v.isConcrete = true)
    (undirected : page.Undirected table.shown) :
    (∀ v ∈ page.used, table.contains v.identifier = true) ∧
      delivery.deliver ctx response shared =
        (.ok { (if delivery.debug then response else response.removeHeader Header.name) with
          body := page.rendered table.shown }, shared) := by
  have served : ∀ v ∈ page.used, table.contains v.identifier = true := fun v used =>
    resolve_serves resolved (registered v used).1 (registered v used).2
  refine ⟨served, ?_⟩
  obtain ⟨bindings, evaluated⟩ := evaluateDocument_page plain ctx shared
    (fun v used => hashed v ⟨v, (registered v used).1, v.self_mem_family⟩)
    (fun name held => resolve_names resolved hashed held) served undirected
  have kept : (if delivery.debug then response else response.removeHeader Header.name).body =
      page.source := by
    rw [← body]
    split
    · rfl
    · exact response.body_removeHeader _
  rw [delivery.deliver_of_resolved ctx response shared fresh resolved]
  simp only [Except.map, Delivery.finish, renders, kept, evaluated, inFrame, if_true]

namespace Quotes

def greeting : Page where
  parts := [.inline (.text "<h1>"), .inline (.echo count), .inline (.text " quotes</h1>"),
    .block count [.text "<p>Pick one of ", .echo count, .text ".</p>"]
      (some [.text "<p>None yet.</p>"])]

end Quotes

theorem quotes_greeting : ∃ table,
    resolve (Quotes.registry.compute Quotes.visit) Quotes.visit.needed = .ok table ∧
      Quotes.rendering.deliver Quotes.visit { body := Quotes.greeting.source } () =
        (.ok { body := "<h1>4 quotes</h1><p>Pick one of 4.</p>" }, ()) := by
  obtain ⟨table, resolved, checked⟩ : ∃ table,
      resolve (Quotes.registry.compute Quotes.visit) Quotes.visit.needed = .ok table ∧
        decide (table.shown Quotes.count = "4") = true :=
    resolve_checked_of_runFor 6 (by decide +kernel)
  have four : table.shown Quotes.count = "4" := of_decide_eq_true checked
  have site : ∀ v ∈ Quotes.visit.needed.toList, v ∈ Quotes.asked := by
    rw [Quotes.visit_needed]
    simp [Quotes.asked]
  have used : ∀ v ∈ Quotes.greeting.used, v = Quotes.count := by
    simp [Page.used, Quotes.greeting, PagePart.used, Inline.used]
  have quiet : ∀ text ∈
      ["<h1>", "4", " quotes</h1>", "<p>Pick one of ", ".</p>", "<p>None yet.</p>"],
      Undirected text.toList := by decide
  have undirected : Quotes.greeting.Undirected table.shown := by
    intro part written content inside
    apply quiet
    revert part content
    simp [Quotes.greeting, PagePart.inlines, Inline.rendered, four]
  have delivered := deliver_page Quotes.rendering Quotes.visit { body := Quotes.greeting.source } ()
    Quotes.greeting table rfl rfl rfl (fun _ => rfl) resolved
    (fun v requested => (Quotes.asked_proper v (Quotes.requested_asked site requested)).hashed
      v v.self_mem_family)
    (fun v member => by
      rw [used v member, Quotes.visit_needed]
      exact ⟨List.mem_cons_self, rfl⟩)
    undirected
  have rendered :
      Quotes.greeting.rendered table.shown = "<h1>4 quotes</h1><p>Pick one of 4.</p>" := by
    have nonempty : "4" ≠ "" := by decide
    simp only [Page.rendered, Quotes.greeting, PagePart.rendered, PagePart.chosen, four,
      if_neg nonempty, List.map_cons, List.map_nil, Inline.rendered]
    rfl
  rw [rendered] at delivered
  exact ⟨table, resolved, delivered.2⟩

end TwoPhase
