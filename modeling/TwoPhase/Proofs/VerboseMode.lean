import TwoPhase.Proofs.Annotations
import TwoPhase.Proofs.EchoedValues
import TwoPhase.Proofs.PairedRuns

/-
Verbose output is plain output with annotations. A verbose run and a plain run over a document
are compared pass by pass: between passes the two texts are alike but for annotations in the
verbose one, of directives that are evaluated already, and for a while they share those still
to come. No pass finds anything in an annotation, because it opens only where it begins.
-/
namespace TwoPhase
open Evaluation Directive.Form

namespace Written

inductive Leaf where
  | text (content : List Char)
  | set (form : SetForm)
  | echo (name : List Char)
  | fragment (form : IncludeForm)

inductive Item where
  | leaf (content : Leaf)
  | block (expression : List Char) (yes : List Leaf) (no : Option (List Leaf))

def Leaf.source : Leaf → List Char
  | text content => content
  | set form => form.source
  | echo name => echoSource name
  | fragment form => form.source

def Item.source : Item → List Char
  | leaf content => content.source
  | block expression yes no =>
    IfForm.source ⟨expression, yes.flatMap Leaf.source, no.map (List.flatMap Leaf.source)⟩

def Leaf.Formed : Leaf → Prop
  | text content => OpensNothing content
  | set form => (Tag.set form).Formed
  | echo name => (Tag.echo name).Formed
  | fragment form => (Tag.fragment form).Formed

def Item.Formed : Item → Prop
  | leaf content => content.Formed
  | block expression yes no =>
    Quotable expression ∧ (∀ leaf ∈ yes, leaf.Formed) ∧ ∀ leaf ∈ no.getD [], leaf.Formed

section Deciding

instance : DecidablePred Leaf.Formed
  | .text content => inferInstanceAs (Decidable (OpensNothing content))
  | .set form => inferInstanceAs (Decidable (Tag.set form).Formed)
  | .echo name => inferInstanceAs (Decidable (Tag.echo name).Formed)
  | .fragment form => inferInstanceAs (Decidable (Tag.fragment form).Formed)

instance : DecidablePred Item.Formed
  | .leaf content => inferInstanceAs (Decidable content.Formed)
  | .block expression yes no => inferInstanceAs (Decidable (Quotable expression ∧
      (∀ leaf ∈ yes, leaf.Formed) ∧ ∀ leaf ∈ no.getD [], leaf.Formed))

end Deciding
end Written

/-- The text is written from items, none of which holds what opens a directive. -/
def Orderly (document : String) : Prop :=
  ∃ items : List Written.Item, (∀ item ∈ items, item.Formed) ∧
    document.toList = items.flatMap Written.Item.source

/-- All texts that the sources give have the property, as long as their state is kept in order. -/
structure Sources.Serve {σ : Type} (sources : Sources σ) (kept : σ → Prop) (proper : String → Prop) :
    Prop where
  lookup : ∀ path state, kept state → kept (sources.lookup path state).2 ∧
    ∀ text, (sources.lookup path state).1 = some text → proper text
  dispatch : ∀ ctx state, kept state → kept (sources.dispatch ctx state).2 ∧
    ∀ text, (sources.dispatch ctx state).1 = .ok text → proper text

def Evaluator.setVerbose {σ : Type} (evaluator : Evaluator σ) (verbose : Bool) : Evaluator σ :=
  { evaluator with verbose }

def stripped (document : String) : String := String.ofList (strip document.toList)

/-- A text of the verbose run and one of the plain run before a pass: what is evaluated already has
left annotations in the first, what is not stands in both. No header is bare: to come, it is part
of a block. -/
inductive Strand (pass : Nat) : List Char → List Char → Prop where
  | text {content : List Char} (plain : Avoids openStart content) : Strand pass content content
  | kept {tag : Tag} (formed : tag.Formed) (done : tag.pass < pass) : Strand pass tag.source []
  | twin {tag : Tag} (formed : tag.Formed) (done : tag.pass < pass) :
    Strand pass (twins.source tag) []
  | pending {tag : Tag} (formed : tag.Formed) (coming : pass ≤ tag.pass) (bare : tag.pass ≠ 2) :
    Strand pass tag.source tag.source
  | append {loud plain loud' plain' : List Char} (first : Strand pass loud plain)
    (later : Strand pass loud' plain') : Strand pass (loud ++ loud') (plain ++ plain')

inductive Sheet (pass : Nat) : List Char → List Char → Prop where
  | strand {loud plain : List Char} (strand : Strand pass loud plain) : Sheet pass loud plain
  | block {expression yes yes' : List Char} {no no' : Option (List Char)}
    (quotable : Quotable expression) (inYes : Strand pass yes yes')
    (inNo : Option.Rel (Strand pass) no no') :
    Sheet pass (IfForm.source ⟨expression, yes, no⟩) (IfForm.source ⟨expression, yes', no'⟩)
  | append {loud plain loud' plain' : List Char} (first : Sheet pass loud plain)
    (later : Sheet pass loud' plain') : Sheet pass (loud ++ loud') (plain ++ plain')

section Documents
open Written

theorem leaf_strand {leaf : Leaf} (formed : leaf.Formed) : Strand 0 leaf.source leaf.source := by
  have pending : ∀ tag : Tag, tag.Formed → tag.pass ≠ 2 → Strand 0 tag.source tag.source :=
    fun tag formed bare => .pending formed (Nat.zero_le _) bare
  cases leaf with
  | text content => exact .text formed.avoids
  | set form => exact pending (.set form) formed (by simp [Tag.pass])
  | echo name => exact pending (.echo name) formed (by simp [Tag.pass])
  | fragment form => exact pending (.fragment form) formed (by simp [Tag.pass])

theorem leaves_strand {leaves : List Leaf} (formed : ∀ leaf ∈ leaves, leaf.Formed) :
    Strand 0 (leaves.flatMap Leaf.source) (leaves.flatMap Leaf.source) := by
  induction leaves with
  | nil => exact .text trivial
  | cons leaf leaves ih =>
    rw [List.flatMap_cons]
    exact .append (leaf_strand (formed leaf List.mem_cons_self))
      (ih fun other member => formed other (List.mem_cons_of_mem _ member))

theorem item_sheet {item : Item} (formed : item.Formed) : Sheet 0 item.source item.source := by
  cases item with
  | leaf content => exact .strand (leaf_strand formed)
  | block expression yes no =>
    obtain ⟨quotable, yesFormed, noFormed⟩ := formed
    refine .block quotable (leaves_strand yesFormed) ?_
    cases no with
    | none => exact .none
    | some no => exact .some (leaves_strand noFormed)

theorem Orderly.sheet {document : String} (orderly : Orderly document) :
    Sheet 0 document.toList document.toList := by
  obtain ⟨items, formed, written⟩ := orderly
  rw [written]
  clear written
  induction items with
  | nil => exact .strand (.text trivial)
  | cons item items ih =>
    rw [List.flatMap_cons]
    exact .append (item_sheet (formed item List.mem_cons_self))
      (ih fun other member => formed other (List.mem_cons_of_mem _ member))

end Documents

section Strands
variable {pass : Nat} {loud plain : List Char}

theorem Strand.after_ifs (strand : Strand 2 loud plain) : Strand 3 loud plain := by
  induction strand with
  | text plain => exact .text plain
  | kept formed done => exact .kept formed (by omega)
  | twin formed done => exact .twin formed (by omega)
  | pending formed coming bare => exact .pending formed (by omega) bare
  | append _ _ first later => exact .append first later

theorem Strand.clean (strand : Strand 2 loud plain) :
    Clean (marksOf 2) loud ∧ Clean (marksOf 2) plain := by
  induction strand with
  | text plain => exact ⟨clean_of_avoids (by decide) plain, clean_of_avoids (by decide) plain⟩
  | kept formed done => exact ⟨formed.clean (by decide) (by omega), .nil _⟩
  | twin formed done => exact ⟨formed.twin_clean (by decide), .nil _⟩
  | pending formed coming bare =>
    exact ⟨formed.clean (by decide) bare.symm, formed.clean (by decide) bare.symm⟩
  | append _ _ first later => exact ⟨first.1.append later.1, first.2.append later.2⟩

theorem Strand.strip_append (strand : Strand 4 loud plain) (rest : List Char) :
    strip (loud ++ rest) = plain ++ strip rest := by
  induction strand generalizing rest with
  | text plain => exact strip_text plain rest
  | kept formed done => exact strip_tag formed rest
  | twin formed done => exact strip_twin formed rest
  | pending formed coming bare =>
    rename_i tag
    exact absurd tag.pass_lt (by omega)
  | append _ _ first later => rw [List.append_assoc, first, later, List.append_assoc]

theorem Strand.strip_eq (strand : Strand 4 loud plain) : strip loud = plain := by
  have all := strand.strip_append []
  rw [List.append_nil] at all
  rw [all]
  exact List.append_nil plain

end Strands

section Passes
variable {σ μ : Type} {along : Session σ → Session σ → Prop} {pattern : Pattern μ}
  {replace replace' : μ → Evaluation σ (List Char)} {pass : Nat} {loud plain : List Char}

theorem strand_treated (opens : pattern.OpensWith (marksOf pass)) (known : pass < 4)
    (own : ∀ tag : Tag, tag.Formed → tag.pass = pass → pass ≠ 2 →
      Treated along pattern replace replace' (Strand (pass + 1)) tag.source tag.source)
    (strand : Strand pass loud plain) :
    Treated along pattern replace replace' (Strand (pass + 1)) loud plain := by
  have silent : ∀ {text}, Clean (marksOf pass) text → ∀ rest, pattern.Silent text rest :=
    fun clean => Pattern.silent_of_clean opens clean
  induction strand with
  | text plain =>
    have clean := clean_of_avoids known plain
    exact .silent (silent clean) (silent clean) (.text plain)
  | kept formed done =>
    have clean := formed.clean known (by omega)
    exact .silent (silent clean) (fun _ => trivial) (.kept formed (by omega))
  | twin formed done =>
    have clean := formed.twin_clean known
    exact .silent (silent clean) (fun _ => trivial) (.twin formed (by omega))
  | @pending tag formed coming bare =>
    by_cases now : tag.pass = pass
    · exact own tag formed now (by omega)
    · have clean := formed.clean known (Ne.symm now)
      exact .silent (silent clean) (silent clean) (.pending formed (by omega) bare)
  | append _ _ first later => exact first.append later fun _ _ _ _ => .append

theorem sheet_treated (opens : pattern.OpensWith (marksOf pass)) (known : pass < 2)
    (own : ∀ tag : Tag, tag.Formed → tag.pass = pass →
      Treated along pattern replace replace' (Strand (pass + 1)) tag.source tag.source)
    (sheet : Sheet pass loud plain) :
    Treated along pattern replace replace' (Sheet (pass + 1)) loud plain := by
  have inside : ∀ {loud plain}, Strand pass loud plain →
      Treated along pattern replace replace' (Strand (pass + 1)) loud plain :=
    strand_treated opens (by omega) fun tag formed now _ => own tag formed now
  induction sheet with
  | strand strand => exact (inside strand).mono fun _ _ => .strand
  | @block expression yes yes' no no' quotable inYes inNo =>
    have formed : (Tag.header expression).Formed := quotable
    have header : Clean (marksOf pass) (Tag.header expression).source :=
      formed.clean (by omega) (Nat.ne_of_lt known)
    have marks : ∀ pass < 2, Clean (marksOf pass) elseMark ∧ Clean (marksOf pass) endMark := by decide
    have branches : Option.Rel (Treated along pattern replace replace' (Strand (pass + 1))) no no' := by
      cases inNo with
      | none => exact .none
      | some strand => exact .some (inside strand)
    exact (inside inYes).block opens header (marks pass known).1 (marks pass known).2 branches
      fun _ _ _ _ => .block quotable
  | append _ _ first later => exact first.append later fun _ _ _ _ => .append

end Passes

/-- Two sessions that have come to the same point; no value bound opens a directive, and the sources
are in order. -/
structure Alike {σ : Type} (kept : σ → Prop) (session other : Session σ) : Prop where
  same : session = other
  quiet : Quiet [openStart] other
  kept : kept other.shared

section Runs
variable {σ : Type} {kept : σ → Prop} {evaluator : Evaluator σ} {loud plain : List Char}

theorem Alike.bindings {session other : Session σ} (alike : Alike kept session other) :
    session.bindings = other.bindings :=
  congrArg Session.bindings alike.same

theorem bind_relates {name value : String} (avoids : Avoids openStart value.toList) :
    Relates (Alike kept) (fun _ _ => True) (Evaluation.bind name value) (Evaluation.bind name value) := by
  rintro session _ ⟨rfl, quiet, held⟩
  have clean : Clean [openStart] value.toList := by simpa [Clean] using avoids
  obtain ⟨_, still, _⟩ := Agree.bindValue clean session quiet
  exact ⟨.ok trivial, rfl, still, held⟩

theorem lookup_relates (place : String) (name : List Char) :
    Relates (Alike kept) (fun value other => value = other ∧ Avoids openStart other)
      (lookup place name) (lookup place name) := by
  rintro session _ ⟨rfl, quiet, held⟩
  rw [run_lookup]
  split
  · next value known =>
    exact ⟨.ok ⟨rfl, quiet _ _ known _ List.mem_cons_self⟩, rfl, quiet, held⟩
  · exact ⟨.error _, rfl, quiet, held⟩

theorem set_relates {form : SetForm} (formed : (Tag.set form).Formed) :
    Relates (Alike kept) (Strand 1) ((evaluator.setVerbose true).evaluateSet form)
      ((evaluator.setVerbose false).evaluateSet form) := by
  have value : Avoids openStart (String.ofList (Directive.unescapeChars form.value)).toList := by
    rw [String.toList_ofList]
    exact formed.2.2.2.avoids
  exact (bind_relates value).bind fun _ _ _ => .pure (.kept formed Nat.zero_lt_one)

theorem Strand.wrap {pass : Nat} {tag : Tag} (formed : tag.Formed) (done : tag.pass < pass)
    (strand : Strand pass loud plain) :
    Strand pass ((evaluator.setVerbose true).wrap tag.source loud)
      ((evaluator.setVerbose false).wrap tag.source plain) := by
  show Strand pass (tag.source ++ loud ++ Directive.Form.twin tag.source) plain
  rw [formed.twin_source]
  simpa using ((Strand.kept formed done).append strand).append (.twin formed done)

theorem echo_relates {name : List Char} (formed : (Tag.echo name).Formed) :
    Relates (Alike kept) (Strand 2) ((evaluator.setVerbose true).evaluateEcho name)
      ((evaluator.setVerbose false).evaluateEcho name) := by
  refine (lookup_relates "echo" name).bind fun value _ => ?_
  rintro ⟨rfl, avoids⟩
  exact .pure (Strand.wrap formed Nat.one_lt_two (.text avoids))

theorem if_treated {expression yes yes' : List Char} {no no' : Option (List Char)}
    (quotable : Quotable expression) (inYes : Strand 2 yes yes')
    (inNo : Option.Rel (Strand 2) no no') :
    Treated (Alike kept) ifs (evaluator.setVerbose true).evaluateIf
      (evaluator.setVerbose false).evaluateIf (Strand 3) (IfForm.source ⟨expression, yes, no⟩)
      (IfForm.source ⟨expression, yes', no'⟩) := by
  have inElse : Strand 2 (no.getD []) (no'.getD []) := by
    cases inNo with
    | none => exact .text trivial
    | some strand => exact strand
  have formed : (Tag.header expression).Formed := quotable
  obtain ⟨yesClean, yesClean'⟩ := inYes.clean
  obtain ⟨noClean, noClean'⟩ := inElse.clean
  have read : ∀ {yes no}, Clean (marksOf 2) yes → Clean (marksOf 2) (no.getD []) → ∀ rest,
      ifs.read? (IfForm.source ⟨expression, yes, no⟩ ++ rest) = some (⟨expression, yes, no⟩, rest) :=
    fun yesClean noClean rest => IfForm.read?_source quotable.unquoted rest _ _
      (yesClean _ (by simp [marksOf])) (yesClean _ (by simp [marksOf]))
      (noClean _ (by simp [marksOf]))
  refine .read (read yesClean noClean) (read yesClean' noClean') ?_
  refine (Relates.fillIn (fun _ _ => Alike.bindings) _ _).bind fun value _ same => ?_
  subst same
  refine .pure (Strand.wrap formed (Nat.lt_succ_self 2) ?_)
  split
  · exact inElse.after_ifs
  · exact inYes.after_ifs

theorem ifs_treated (sheet : Sheet 2 loud plain) :
    Treated (Alike kept) ifs (evaluator.setVerbose true).evaluateIf
      (evaluator.setVerbose false).evaluateIf (Strand 3) loud plain := by
  have opens : ifs.OpensWith (marksOf 2) := by
    intro text form rest found
    obtain ⟨mark, member, begins⟩ := ifs_opensWith text form rest found
    exact ⟨mark, List.mem_cons.2 (.inl (List.mem_singleton.1 member)), begins⟩
  induction sheet with
  | strand strand =>
    exact strand_treated opens (by decide) (fun _ _ _ differs => absurd rfl differs) strand
  | block quotable inYes inNo => exact if_treated quotable inYes inNo
  | append _ _ first later => exact first.append later fun _ _ _ _ => .append

theorem include_relates {included included' : List Char → Evaluation σ (List Char)}
    (each : ∀ path, Relates (Alike kept) (Strand 4) (included path) (included' path))
    {form : IncludeForm} (formed : (Tag.fragment form).Formed) :
    Relates (Alike kept) (Strand 4) ((evaluator.setVerbose true).evaluateInclude included form)
      ((evaluator.setVerbose false).evaluateInclude included' form) := by
  refine (Relates.fillIn (fun _ _ => Alike.bindings) _ _).bind fun path _ same => ?_
  subst same
  exact (each path).bind fun loud plain strand => .pure (.wrap formed (Nat.lt_succ_self 3) strand)

section Own
variable (tag : Tag) (formed : tag.Formed)
include formed

theorem own_set_treated (own : tag.pass = 0) :
    Treated (Alike kept) sets (evaluator.setVerbose true).evaluateSet
      (evaluator.setVerbose false).evaluateSet (Strand 1) tag.source tag.source := by
  cases tag with
  | set form => exact .read formed.read_set formed.read_set (set_relates formed)
  | echo | header | fragment => cases own

theorem own_echo_treated (own : tag.pass = 1) :
    Treated (Alike kept) echoes (evaluator.setVerbose true).evaluateEcho
      (evaluator.setVerbose false).evaluateEcho (Strand 2) tag.source tag.source := by
  cases tag with
  | echo name => exact .read formed.read_echo formed.read_echo (echo_relates formed)
  | set | header | fragment => cases own

theorem own_fragment_treated {included included' : List Char → Evaluation σ (List Char)}
    (each : ∀ path, Relates (Alike kept) (Strand 4) (included path) (included' path))
    (own : tag.pass = 3) :
    Treated (Alike kept) includes ((evaluator.setVerbose true).evaluateInclude included)
      ((evaluator.setVerbose false).evaluateInclude included') (Strand 4) tag.source tag.source := by
  cases tag with
  | fragment form =>
    exact .read formed.read_fragment formed.read_fragment (include_relates each formed)
  | set | echo | header => cases own

end Own

theorem passes_relate {included included' : List Char → Evaluation σ (List Char)}
    (each : ∀ path, Relates (Alike kept) (Strand 4) (included path) (included' path))
    (sheet : Sheet 0 loud plain) :
    Relates (Alike kept) (Strand 4) ((evaluator.setVerbose true).passes included loud)
      ((evaluator.setVerbose false).passes included' plain) := by
  refine Relates.bind (sheet_treated sets_opensWith (by decide) own_set_treated sheet).whole
    fun loud plain sheet => ?_
  refine Relates.bind (sheet_treated echoes_opensWith (by decide) own_echo_treated sheet).whole
    fun loud plain sheet => ?_
  refine Relates.bind (ifs_treated sheet).whole fun loud plain strand => ?_
  have ownFragments : ∀ tag : Tag, tag.Formed → tag.pass = 3 → 3 ≠ 2 →
      Treated (Alike kept) includes ((evaluator.setVerbose true).evaluateInclude included)
        ((evaluator.setVerbose false).evaluateInclude included') (Strand 4) tag.source tag.source :=
    fun tag formed own _ => own_fragment_treated tag formed each own
  exact (strand_treated includes_opensWith (by decide) ownFragments strand).whole

theorem fetch_relates (serve : evaluator.sources.Serve kept Orderly) (ctx : RequestContext)
    (level : Nat) (path : String) :
    Relates (Alike kept) (fun raw raw' => raw = raw' ∧ Orderly raw')
      (evaluator.fetch ctx level path) (evaluator.fetch ctx level path) := by
  rintro session _ ⟨rfl, quiet, held⟩
  have looked := serve.lookup path session.shared held
  rw [run_fetch]
  generalize evaluator.sources.lookup path session.shared = answer at looked ⊢
  obtain ⟨hit, after⟩ := answer
  cases hit with
  | some cached => exact ⟨.ok ⟨rfl, looked.2 cached rfl⟩, rfl, quiet, looked.1⟩
  | none =>
    have dispatched := serve.dispatch (ctx.atLocation path) after looked.1
    dsimp only
    generalize evaluator.sources.dispatch (ctx.atLocation path) after = answer at dispatched ⊢
    obtain ⟨outcome, last⟩ := answer
    cases outcome with
    | ok raw => exact ⟨.ok ⟨rfl, dispatched.2 raw rfl⟩, rfl, quiet, dispatched.1⟩
    | error failure => exact ⟨.error _, rfl, quiet, dispatched.1⟩

theorem evaluate_relates (serve : evaluator.sources.Serve kept Orderly) (ctx : RequestContext)
    (levels : Nat) {text : String} (orderly : Orderly text) :
    Relates (Alike kept) (Strand 4) ((evaluator.setVerbose true).evaluate ctx levels text.toList)
      ((evaluator.setVerbose false).evaluate ctx levels text.toList) := by
  induction levels generalizing text with
  | zero => exact passes_relate (fun path => .fail _) orderly.sheet
  | succ levels ih =>
    refine passes_relate (fun path => ?_) orderly.sheet
    refine (fetch_relates serve ctx _ _).bind fun raw raw' => ?_
    rintro ⟨rfl, served⟩
    exact ih served

theorem outcome_stripped {outcome outcome' : Except Failure (List Char)}
    (ends : Ends (Strand 4) outcome outcome') :
    (outcome.map String.ofList).map stripped = outcome'.map String.ofList := by
  cases ends with
  | ok strand => simp [Except.map, stripped, strand.strip_eq]
  | error failure => rfl

end Runs

/-- A verbose run and a plain one ask for the same and bind the same, and they end alike: the plain
output is the verbose one without its annotations, and a failure is the same failure. -/
theorem verbose_only_annotates {σ : Type} {evaluator : Evaluator σ} {kept : σ → Prop}
    (serve : evaluator.sources.Serve kept Orderly) (ctx : RequestContext) {document : String}
    (orderly : Orderly document) {shared : σ} (held : kept shared) :
    let loud := (evaluator.setVerbose true).evaluateDocument ctx document shared
    let plain := (evaluator.setVerbose false).evaluateDocument ctx document shared
    loud.2 = plain.2 ∧ loud.1.map stripped = plain.1 := by
  have start : Alike kept ({ shared } : Session σ) { shared } :=
    ⟨rfl, fun _ _ found => (by cases found), held⟩
  obtain ⟨ends, alike⟩ := evaluate_relates serve ctx evaluator.maxDepth orderly _ _ start
  exact ⟨alike.same, outcome_stripped ends⟩

namespace Greeting
open Written

def items : List Item :=
  [.leaf (.set ⟨"user".toList, "O\\'Neil".toList⟩), .leaf (.text "<!-- to ".toList),
    .block "$\x7buser\x7d".toList [.echo "user".toList] (some [.text "nobody".toList]),
    .leaf (.fragment ⟨virtualWord, "/day".toList⟩)]

def fragment : List Item :=
  [.leaf (.set ⟨"day".toList, "Monday".toList⟩), .leaf (.text " on ".toList),
    .leaf (.echo "day".toList)]

def text (items : List Item) : String := String.ofList (items.flatMap Item.source)

def evaluator : Evaluator Unit where
  sources := {
    lookup := fun _ state => (none, state)
    dispatch := fun ctx state =>
      if ctx.path = "/day" then (.ok (text fragment), state) else Sources.none.dispatch ctx state }

theorem text_orderly {items : List Item} (formed : ∀ item ∈ items, item.Formed) :
    Orderly (text items) :=
  ⟨items, formed, String.toList_ofList⟩

theorem serve : evaluator.sources.Serve (fun _ => True) Orderly where
  lookup _ _ _ := ⟨trivial, by simp [evaluator]⟩
  dispatch ctx state _ := by
    refine ⟨trivial, fun served given => ?_⟩
    unfold evaluator at given
    dsimp only at given
    split at given
    · cases given
      exact text_orderly (by decide)
    · cases given

end Greeting

theorem greeting_only_annotated :
    Greeting.evaluator.sources.Serve (fun _ => True) Orderly ∧
      Orderly (Greeting.text Greeting.items) ∧
      let loud := (Greeting.evaluator.setVerbose true).evaluateDocument (.ofLocation "/")
        (Greeting.text Greeting.items) ()
      let plain := (Greeting.evaluator.setVerbose false).evaluateDocument (.ofLocation "/")
        (Greeting.text Greeting.items) ()
      (loud.2 = plain.2 ∧ loud.1.map stripped = plain.1) ∧
        plain.1.toOption = some "<!-- to O'Neil on Monday" := by
  have orderly : Orderly (Greeting.text Greeting.items) := Greeting.text_orderly (by decide)
  have ended : ((Greeting.evaluator.setVerbose false).evaluateDocument (.ofLocation "/")
      (Greeting.text Greeting.items) ()).1.toOption = some "<!-- to O'Neil on Monday" := by
    decide +kernel
  exact ⟨Greeting.serve, orderly,
    verbose_only_annotates Greeting.serve (.ofLocation "/") orderly trivial, ended⟩

/-- A text must not end where an opening begins: what an echo writes behind it would go on, but a
kept echo stands between. -/
example : ([true, false].map fun verbose =>
      ((Greeting.evaluator.setVerbose verbose).evaluateDocument (.ofLocation "/") (Greeting.text
        [.leaf (.set ⟨"a".toList, "#include file=\\'/day\\'-->".toList⟩), .leaf (.text "<!--".toList),
          .leaf (.echo "a".toList)]) ()).2.visits.length) = [0, 2] := by
  decide +kernel

end TwoPhase
