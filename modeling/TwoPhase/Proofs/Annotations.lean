import Mathlib.Data.List.Infix
import TwoPhase.Proofs.DirectiveReading

/-
The annotations of a verbose output, and the text without them. An annotation is a directive
that was kept, the header standing for its if block, or the twin that ends what a directive
gave. All annotations begin with the same opening, so that none can begin in a text that opens
nothing, and an annotation in which nothing else opens is found as what it is and passed over
by any scan for a directive of another kind.
-/
namespace TwoPhase

namespace Avoids
variable {mark short text : List Char}

theorem of_prefix (avoids : Avoids short text) (begins : short <+: mark) : Avoids mark text := by
  induction text with
  | nil => trivial
  | cons c text ih =>
    refine ⟨fun found => avoids.1 (begins.trans found), ?_, ih avoids.2.2⟩
    intro within
    rcases List.prefix_or_prefix_of_prefix within begins with shorter | longer
    · exact avoids.2.1 shorter
    · exact avoids.1 longer

theorem append_quote (absent : ¬ mark <:+: text) (unquoted : '\'' ∉ mark) :
    Avoids mark (text ++ ['\'']) := by
  have whole : ∀ text, ¬ text ++ ['\''] <+: mark := fun text shorter =>
    unquoted (shorter.subset (List.mem_append_right _ (List.mem_singleton_self _)))
  induction text with
  | nil =>
    refine ⟨?_, whole [], trivial⟩
    intro found
    cases mark with
    | nil => exact absent (List.infix_refl _)
    | cons m mark => exact unquoted ((List.cons_prefix_cons.1 found).1 ▸ List.mem_cons_self)
  | cons c text ih =>
    have later : ¬ mark <:+: text := fun inside =>
      absent (inside.trans (List.suffix_cons c text).isInfix)
    rw [List.cons_append]
    refine ⟨fun found => ?_, whole (c :: text), ih later⟩
    rw [← List.cons_append] at found
    rcases List.prefix_concat_iff.1 found with ending | within
    · exact unquoted (ending ▸ List.mem_append_right _ (List.mem_singleton_self _))
    · exact absent within.isInfix

end Avoids

namespace Pattern
variable {μ ν : Type} {pattern : Pattern μ} {f : μ → List Char} {text rest : List Char}

theorem replace_read {piece : μ} (found : pattern.read? text = some (piece, rest)) :
    pattern.replace f text = f piece ++ pattern.replace f rest := by
  unfold replace
  rw [pattern.scan_of_read? found, List.flatMap_cons]

theorem replace_silent (silent : pattern.Silent text rest) :
    pattern.replace f (text ++ rest) = text ++ pattern.replace f rest := by
  induction text with
  | nil => rfl
  | cons c text ih =>
    have skipped : pattern.scan (c :: (text ++ rest)) = .inl c :: pattern.scan (text ++ rest) :=
      pattern.scan_of_none silent.1
    have later := ih silent.2
    unfold replace at later ⊢
    rw [List.cons_append, skipped, List.flatMap_cons, later]
    rfl

def either (first : Pattern μ) (second : Pattern ν) : Pattern (μ ⊕ ν) where
  read? text := ((first.read? text).map (Prod.map .inl id)).or
    ((second.read? text).map (Prod.map .inr id))
  source := Sum.elim first.source second.source
  source_ne_nil
    | .inl piece => first.source_ne_nil piece
    | .inr piece => second.source_ne_nil piece
  eq_of_read? found := by
    rcases Option.or_eq_some_iff.1 found with found | ⟨_, found⟩
    · obtain ⟨_, read, pair⟩ := Option.map_eq_some_iff.1 found
      cases pair
      exact first.eq_of_read? read
    · obtain ⟨_, read, pair⟩ := Option.map_eq_some_iff.1 found
      cases pair
      exact second.eq_of_read? read

end Pattern

namespace Directive.Form

def endStart : List Char := "<!--#end-".toList
def setWord : List Char := "set var='".toList
def echoWord : List Char := "echo var='".toList
def ifWord : List Char := "if expr='".toList
def includeWord : List Char := "include ".toList

theorem setStart_eq : setStart = openStart ++ setWord := by decide
theorem echoStart_eq : echoStart = openStart ++ echoWord := by decide
theorem ifStart_eq : ifStart = openStart ++ ifWord := by decide
theorem includeStart_eq : includeStart = openStart ++ includeWord := by decide

/-- A directive as it is kept; of an if block this is the header. -/
inductive Tag where
  | set (form : SetForm)
  | echo (name : List Char)
  | header (expression : List Char)
  | fragment (form : IncludeForm)

def readHeader? (text : List Char) : Option (List Char × List Char) := do
  let text ← literal? ifStart text
  let (expression, text) := run isNotQuote text
  let text ← literal? directiveEnd text
  some (expression, text)

namespace Tag

def source : Tag → List Char
  | set form => form.source
  | echo name => echoSource name
  | header expression => ifStart ++ expression ++ directiveEnd
  | fragment form => form.source

def read? (text : List Char) : Option (Tag × List Char) :=
  ((SetForm.read? text).map (Prod.map set id)).or <|
    ((readEcho? text).map (Prod.map echo id)).or <|
      ((readHeader? text).map (Prod.map header id)).or <|
        (IncludeForm.read? text).map (Prod.map fragment id)

def pass : Tag → Nat
  | set _ => 0
  | echo _ => 1
  | header _ => 2
  | fragment _ => 3

def word : Tag → List Char
  | set _ => setWord
  | echo _ => echoWord
  | header _ => ifWord
  | fragment form => includeWord ++ form.keyword ++ attributeStart

def body : Tag → List Char
  | set form => form.name ++ setMiddle ++ form.value ++ directiveEnd
  | echo name => name ++ echoEnd
  | header expression => expression ++ directiveEnd
  | fragment form => form.path ++ directiveEnd

theorem source_eq (tag : Tag) : tag.source = openStart ++ (tag.word ++ tag.body) := by
  cases tag with
  | set form => simp only [source, SetForm.source, word, body, setStart_eq, List.append_assoc]
  | echo name => simp only [source, echoSource, word, body, echoStart_eq, List.append_assoc]
  | header expression => simp only [source, word, body, ifStart_eq, List.append_assoc]
  | fragment form =>
    simp only [source, IncludeForm.source, word, body, includeStart_eq, List.append_assoc]

theorem source_ne_nil (tag : Tag) : tag.source ≠ [] := by
  rw [source_eq]
  exact fun empty => openStart_ne_nil (List.append_eq_nil_iff.1 empty).1

theorem eq_of_readHeader? {text expression rest : List Char}
    (found : readHeader? text = some (expression, rest)) :
    text = (header expression).source ++ rest := by
  simp only [readHeader?, Option.bind_eq_bind, Option.bind_eq_some_iff] at found
  obtain ⟨text₁, start, text₂, stop, pair⟩ := found
  cases pair
  have split := eq_of_run isNotQuote text₁
  rw [literal?_eq_some.1 stop] at split
  rw [literal?_eq_some.1 start]
  simpa [source] using split

theorem eq_of_read? {text rest : List Char} {tag : Tag} (found : read? text = some (tag, rest)) :
    text = tag.source ++ rest := by
  simp only [read?, Option.or_eq_some_iff, Option.map_eq_some_iff, Prod.exists] at found
  rcases found with ⟨form, _, read, pair⟩ | ⟨_, ⟨name, _, read, pair⟩ | ⟨_,
    ⟨expression, _, read, pair⟩ | ⟨_, ⟨form, _, read, pair⟩⟩⟩⟩
  · cases pair
    exact form.eq_of_read? read
  · cases pair
    exact eq_of_readEcho? read
  · cases pair
    exact eq_of_readHeader? read
  · cases pair
    exact form.eq_of_read? read

end Tag

def tags : Pattern Tag := ⟨Tag.read?, Tag.source, Tag.source_ne_nil, Tag.eq_of_read?⟩

/-- A twin reads as the directive whose opening it changes. -/
def twins : Pattern Tag where
  read? text := (literal? endStart text).bind fun rest => tags.read? (openStart ++ rest)
  source tag := endStart ++ (tag.word ++ tag.body)
  source_ne_nil tag := fun empty => absurd (List.append_eq_nil_iff.1 empty).1 (by decide)
  eq_of_read? {text piece rest} found := by
    obtain ⟨tail, start, read⟩ := Option.bind_eq_some_iff.1 found
    have split := (tags.eq_of_read? read).trans (congrArg (· ++ rest) piece.source_eq)
    rw [List.append_assoc, List.append_cancel_left_eq] at split
    rw [literal?_eq_some.1 start, split, List.append_assoc endStart]

def annotations : Pattern (Tag ⊕ Tag) := tags.either twins

def strip (text : List Char) : List Char := annotations.replace (fun _ => []) text

/-- No directive opens in the text or at its end. -/
structure OpensNothing (text : List Char) : Prop where
  absent : ¬ openStart <:+: text
  unbegun : ∀ start ∈ ["<", "<!", "<!-", "<!--"], ¬ start.toList <:+ text

structure Quotable (text : List Char) : Prop where
  unquoted : '\'' ∉ text
  absent : ¬ openStart <:+: text

/-- The conditions on the parts of a directive; of a set they are on the value that is set, however
that is escaped. -/
def Tag.Formed : Tag → Prop
  | set form => form.name ≠ [] ∧ Quotable form.name ∧ (escapedRun form.value).2 = [] ∧
      OpensNothing (unescapeChars form.value)
  | echo name => name ≠ [] ∧ Quotable name
  | header expression => Quotable expression
  | fragment form => (form.keyword = virtualWord ∨ form.keyword = fileWord) ∧
      form.path ≠ [] ∧ Quotable form.path

section Deciding

instance : DecidablePred OpensNothing := fun text =>
  decidable_of_iff (¬ openStart <:+: text ∧ ∀ start ∈ ["<", "<!", "<!-", "<!--"], ¬ start.toList <:+ text)
    ⟨fun both => ⟨both.1, both.2⟩, fun plain => ⟨plain.absent, plain.unbegun⟩⟩

instance : DecidablePred Quotable := fun text =>
  decidable_of_iff ('\'' ∉ text ∧ ¬ openStart <:+: text)
    ⟨fun both => ⟨both.1, both.2⟩, fun quotable => ⟨quotable.unquoted, quotable.absent⟩⟩

instance : DecidablePred Tag.Formed
  | .set form => inferInstanceAs (Decidable (form.name ≠ [] ∧ Quotable form.name ∧
      (escapedRun form.value).2 = [] ∧ OpensNothing (unescapeChars form.value)))
  | .echo name => inferInstanceAs (Decidable (name ≠ [] ∧ Quotable name))
  | .header expression => inferInstanceAs (Decidable (Quotable expression))
  | .fragment form => inferInstanceAs (Decidable
      ((form.keyword = virtualWord ∨ form.keyword = fileWord) ∧ form.path ≠ [] ∧ Quotable form.path))

end Deciding

def marksOf : Nat → List (List Char)
  | 0 => [setStart]
  | 1 => [echoStart]
  | 2 => [ifStart, elseMark, endMark]
  | _ => [fileStart, virtualStart]

def wordsOf : Nat → List (List Char)
  | 0 => [setWord]
  | 1 => [echoWord]
  | 2 => [ifWord]
  | _ => [includeWord ++ virtualWord ++ attributeStart, includeWord ++ fileWord ++ attributeStart]

section Openings
variable {text rest : List Char}

theorem opening_unescaped (spelled : openStart <:+: text) : openStart <:+: unescapeChars text := by
  have begun : ∀ {c rest}, openStart <+: c :: rest → openStart <+: c :: unescapeChars rest := by
    rintro c rest ⟨more, split⟩
    obtain ⟨rfl, rfl⟩ := List.cons.inj (show '<' :: ("!--#".toList ++ more) = c :: rest from split)
    exact ⟨unescapeChars more, rfl⟩
  fun_induction unescapeChars text with
  | case1 => exact spelled
  | case2 c rest ih =>
    rcases List.infix_cons_iff.1 spelled with ⟨more, split⟩ | inPair
    · cases split
    · rcases List.infix_cons_iff.1 inPair with first | later
      · exact (begun first).isInfix
      · exact (ih later).trans (List.suffix_cons c _).isInfix
  | case3 c rest _ ih =>
    rcases List.infix_cons_iff.1 spelled with first | later
    · exact (begun first).isInfix
    · exact (ih later).trans (List.suffix_cons c _).isInfix

theorem OpensNothing.avoids (opensNothing : OpensNothing text) : Avoids openStart text := by
  have begun : ∀ start ∈ openStart.inits, start ≠ [] → start ≠ openStart →
      start ∈ ["<", "<!", "<!-", "<!--"].map String.toList := by decide
  induction text with
  | nil => trivial
  | cons c text ih =>
    have absent : ¬ openStart <+: c :: text := fun found => opensNothing.absent found.isInfix
    refine ⟨absent, fun within => ?_, ih ⟨?_, ?_⟩⟩
    · have whole : c :: text ≠ openStart := fun same => absent (same ▸ List.prefix_refl _)
      obtain ⟨start, listed, same⟩ := List.mem_map.1
        (begun _ ((List.mem_inits _ _).2 within) (List.cons_ne_nil _ _) whole)
      exact opensNothing.unbegun start listed (same ▸ List.suffix_refl _)
    · exact fun later => opensNothing.absent (later.trans (List.suffix_cons c text).isInfix)
    · exact fun start listed later =>
        opensNothing.unbegun start listed (later.trans (List.suffix_cons c text))

theorem clean_of_avoids {pass : Nat} (known : pass < 4) (avoids : Avoids openStart text) :
    Clean (marksOf pass) text := by
  have openings : ∀ pass < 4, ∀ mark ∈ marksOf pass, openStart <+: mark := by decide
  exact fun mark member => avoids.of_prefix (openings pass known mark member)

theorem Quotable.avoids (quotable : Quotable text) : Avoids openStart (text ++ ['\'']) :=
  .append_quote quotable.absent (by decide)

namespace Tag
variable {tag : Tag}

theorem pass_lt (tag : Tag) : tag.pass < 4 := by
  unfold pass
  split <;> decide

theorem Formed.body_avoids (formed : tag.Formed) : Avoids openStart tag.body := by
  have closing : directiveEnd = ['\''] ++ "-->".toList := by decide
  have middle : setMiddle = ['\''] ++ " value='".toList := by decide
  have ending : echoEnd = ['\''] ++ " encoding='none'-->".toList := by decide
  cases tag with
  | set form =>
    obtain ⟨_, named, _, valued⟩ := formed
    have value : Avoids openStart (form.value ++ ['\'']) :=
      .append_quote (fun spelled => valued.absent (opening_unescaped spelled)) (by decide)
    have parts : body (set form) = form.name ++ ['\''] ++ " value='".toList ++
        (form.value ++ ['\''] ++ "-->".toList) := by
      simp only [body, middle, closing, List.append_assoc]
    rw [parts]
    exact (named.avoids.append (by decide)).append (value.append (by decide))
  | echo name =>
    rw [body, ending, ← List.append_assoc]
    exact formed.2.avoids.append (by decide)
  | header expression =>
    rw [body, closing, ← List.append_assoc]
    exact Quotable.avoids formed |>.append (by decide)
  | fragment form =>
    rw [body, closing, ← List.append_assoc]
    exact formed.2.2.avoids.append (by decide)

theorem Formed.word_mem (formed : tag.Formed) : tag.word ∈ wordsOf tag.pass := by
  cases tag with
  | set form => exact List.mem_singleton_self _
  | echo name => exact List.mem_singleton_self _
  | header expression => exact List.mem_singleton_self _
  | fragment form =>
    obtain ⟨keyword, path⟩ := form
    obtain ⟨rfl | rfl, _⟩ := formed
    · exact List.mem_cons_self
    · exact List.mem_cons_of_mem _ List.mem_cons_self

theorem Formed.tail_avoids (formed : tag.Formed) : Avoids openStart (tag.word ++ tag.body) := by
  have plain : ∀ pass < 4, ∀ word ∈ wordsOf pass, Avoids openStart word := by decide
  exact (plain _ tag.pass_lt _ formed.word_mem).append formed.body_avoids

theorem Formed.twin_source (formed : tag.Formed) : twin tag.source = twins.source tag := by
  have opened : opens.read? (openStart ++ (tag.word ++ tag.body)) = some ((), tag.word ++ tag.body) :=
    congrArg (Option.map ((), ·)) (literal?_append openStart _)
  have alone : opens.OpensWith [openStart] := by
    intro text piece rest found
    exact ⟨openStart, List.mem_singleton_self _, rest, (opens.eq_of_read? found).symm⟩
  have silent : opens.Silent (tag.word ++ tag.body) [] :=
    Pattern.silent_of_clean alone (by simpa [Clean] using formed.tail_avoids) []
  have kept : opens.replace (fun _ => endStart) (tag.word ++ tag.body) = tag.word ++ tag.body := by
    simpa [Pattern.replace, Pattern.scan, Pattern.scanAfter] using
      Pattern.replace_silent (f := fun _ => endStart) silent
  show opens.replace (fun _ => endStart) tag.source = _
  rw [source_eq, Pattern.replace_read opened, kept]
  rfl

theorem Formed.clean (formed : tag.Formed) {pass : Nat} (known : pass < 4) (other : pass ≠ tag.pass) :
    Clean (marksOf pass) tag.source := by
  have apart : ∀ first < 4, ∀ second < 4, first ≠ second → ∀ word ∈ wordsOf second,
      Clean (marksOf first) (openStart ++ word) := by decide
  rw [source_eq, ← List.append_assoc]
  exact (apart _ known _ tag.pass_lt other _ formed.word_mem).append
    (clean_of_avoids known formed.body_avoids)

theorem Formed.twin_clean (formed : tag.Formed) {pass : Nat} (known : pass < 4) :
    Clean (marksOf pass) (twins.source tag) := by
  have apart : ∀ first < 4, ∀ second < 4, ∀ word ∈ wordsOf second,
      Clean (marksOf first) (endStart ++ word) := by decide
  show Clean (marksOf pass) (endStart ++ (tag.word ++ tag.body))
  rw [← List.append_assoc]
  exact (apart _ known _ tag.pass_lt _ formed.word_mem).append
    (clean_of_avoids known formed.body_avoids)

section Reading
variable {form : SetForm} {name expression : List Char} {included : IncludeForm}

theorem Formed.read_set (formed : (set form).Formed) (rest : List Char) :
    sets.read? ((set form).source ++ rest) = some (form, rest) :=
  SetForm.read?_source formed.1 formed.2.1.unquoted rest formed.2.2.1

theorem Formed.read_echo (formed : (echo name).Formed) (rest : List Char) :
    echoes.read? ((echo name).source ++ rest) = some (name, rest) :=
  readEcho?_source formed.1 formed.2.unquoted rest

theorem Formed.read_header (formed : (header expression).Formed) (rest : List Char) :
    readHeader? ((header expression).source ++ rest) = some (expression, rest) := by
  have named : run isNotQuote (expression ++ (directiveEnd ++ rest)) = (expression, directiveEnd ++ rest) :=
    run_append (isNotQuote_of_unquoted (Quotable.unquoted formed)) rfl
  unfold readHeader? source
  simp only [List.append_assoc, literal?_append, named, Option.bind_eq_bind, Option.bind_some]

theorem Formed.read_fragment (formed : (fragment included).Formed) (rest : List Char) :
    includes.read? ((fragment included).source ++ rest) = some (included, rest) :=
  IncludeForm.read?_source formed.2.1 formed.2.2.unquoted rest formed.1

end Reading

theorem Formed.read?_source (formed : tag.Formed) (rest : List Char) :
    tags.read? (tag.source ++ rest) = some (tag, rest) := by
  show Tag.read? (tag.source ++ rest) = _
  unfold read?
  cases tag with
  | set form =>
    rw [show SetForm.read? _ = _ from formed.read_set rest]
    rfl
  | echo name =>
    have noSet : SetForm.read? ((echo name).source ++ rest) = none := rfl
    rw [noSet, show readEcho? _ = _ from formed.read_echo rest]
    rfl
  | header expression =>
    have noSet : SetForm.read? ((header expression).source ++ rest) = none := rfl
    have noEcho : readEcho? ((header expression).source ++ rest) = none := rfl
    rw [noSet, noEcho, formed.read_header rest]
    rfl
  | fragment form =>
    have noSet : SetForm.read? ((fragment form).source ++ rest) = none := rfl
    have noEcho : readEcho? ((fragment form).source ++ rest) = none := rfl
    have noHeader : readHeader? ((fragment form).source ++ rest) = none := rfl
    rw [noSet, noEcho, noHeader, show IncludeForm.read? _ = _ from formed.read_fragment rest]
    rfl

theorem Formed.read?_twin (formed : tag.Formed) (rest : List Char) :
    annotations.read? (twins.source tag ++ rest) = some (.inr tag, rest) := by
  have noTag : tags.read? (twins.source tag ++ rest) = none := rfl
  have start : literal? endStart (endStart ++ (tag.word ++ tag.body) ++ rest) =
      some (tag.word ++ tag.body ++ rest) := by
    rw [List.append_assoc, literal?_append]
  have read : twins.read? (twins.source tag ++ rest) = some (tag, rest) := by
    unfold twins
    dsimp only
    rw [start, Option.bind_some, ← List.append_assoc, ← source_eq, formed.read?_source]
  unfold annotations Pattern.either
  dsimp only
  rw [noTag, read]
  rfl

end Tag

theorem annotations_opensWith : annotations.OpensWith [openStart] := by
  intro text piece rest found
  refine ⟨openStart, List.mem_singleton_self _, ?_⟩
  rw [annotations.eq_of_read? found]
  cases piece with
  | inl tag =>
    show openStart <+: tag.source ++ rest
    rw [Tag.source_eq, List.append_assoc]
    exact List.prefix_append _ _
  | inr tag =>
    have opening : openStart <+: endStart := by decide
    exact opening.trans ((List.prefix_append _ _).trans (List.prefix_append _ rest))

theorem strip_text (avoids : Avoids openStart text) (rest : List Char) :
    strip (text ++ rest) = text ++ strip rest := by
  have clean : Clean [openStart] text := by simpa [Clean] using avoids
  exact Pattern.replace_silent (Pattern.silent_of_clean annotations_opensWith clean rest)

theorem strip_tag {tag : Tag} (formed : tag.Formed) (rest : List Char) :
    strip (tag.source ++ rest) = strip rest := by
  have read : annotations.read? (tag.source ++ rest) = some (.inl tag, rest) := by
    unfold annotations Pattern.either
    dsimp only
    rw [formed.read?_source]
    rfl
  exact Pattern.replace_read read

theorem strip_twin {tag : Tag} (formed : tag.Formed) (rest : List Char) :
    strip (twins.source tag ++ rest) = strip rest :=
  Pattern.replace_read (formed.read?_twin rest)

end Openings

end Directive.Form
end TwoPhase
