import TwoPhase.Proofs.Marks

/-
Directives read back. Each form, written from its parts, is read as those parts whatever
follows it. A quoted name can at most hide a mark up to its own closing quote, and what
stands behind that quote is then no attribute of the other form.
-/
namespace TwoPhase.Directive.Form

section Runs
variable {kind : Char → Bool} {text rest : List Char} {stop : Char}

theorem run_append (inside : ∀ c ∈ text, kind c = true) (outside : kind stop = false) :
    run kind (text ++ stop :: rest) = (text, stop :: rest) := by
  unfold run
  induction text with
  | nil => simp [outside]
  | cons c text ih =>
    have first := inside c List.mem_cons_self
    have later := ih fun d member => inside d (List.mem_cons_of_mem _ member)
    simp only [Prod.mk.injEq] at later ⊢
    simp [first, later.1, later.2]

theorem someRun?_append (nonempty : text ≠ []) (inside : ∀ c ∈ text, kind c = true)
    (outside : kind stop = false) :
    someRun? kind (text ++ stop :: rest) = some (text, stop :: rest) := by
  have split : run kind (text ++ stop :: rest) = (text, stop :: rest) := run_append inside outside
  have taken : (text ++ stop :: rest).takeWhile kind = text := congrArg Prod.fst split
  unfold someRun?
  rw [taken, split, if_neg]
  simpa using nonempty

end Runs

theorem isNotQuote_of_unquoted {text : List Char} (unquoted : '\'' ∉ text) :
    ∀ c ∈ text, isNotQuote c = true := by
  intro c member
  have differs : c ≠ '\'' := fun same => unquoted (same ▸ member)
  simpa [isNotQuote] using differs

theorem escapedRun_cons {c : Char} (plain : c ≠ '\\') (unquoted : c ≠ '\'') (text : List Char) :
    escapedRun (c :: text) = (c :: (escapedRun text).1, (escapedRun text).2) := by
  rw [escapedRun.eq_def]
  split
  · next impossible => cases impossible
  · next same =>
    cases same
    exact absurd rfl plain
  · next same =>
    cases same
    exact absurd rfl plain
  · next same =>
    cases same
    exact absurd rfl unquoted
  · next same =>
    cases same
    rfl

theorem escapedRun_append {value : List Char} (escaped : (escapedRun value).2 = [])
    (rest : List Char) : escapedRun (value ++ '\'' :: rest) = (value, '\'' :: rest) := by
  fun_induction escapedRun value with
  | case1 => simp [escapedRun]
  | case2 => cases escaped
  | case3 c text inner left taken ih =>
    rw [taken] at ih
    simp [escapedRun, ih escaped]
  | case4 text => cases escaped
  | case5 c text alone paired bare inner left taken ih =>
    rw [taken] at ih
    have noEscape : c ≠ '\\' := by
      rintro rfl
      cases text with
      | nil => exact alone rfl rfl
      | cons d text => exact paired d text rfl rfl
    rw [List.cons_append, escapedRun_cons noEscape bare, ih escaped]

theorem escapedRun_escape (value : List Char) : (escapedRun (escapeChars value)).2 = [] := by
  induction value with
  | nil => simp [escapeChars, escapedRun]
  | cons c value ih =>
    have split : escapeChars (c :: value) = escapeChar c ++ escapeChars value := rfl
    rw [split]
    unfold escapeChar
    split
    · simp [escapedRun, ih]
    · next plain =>
      have noEscape : c ≠ '\\' := fun same => plain (Or.inl same)
      have noQuote : c ≠ '\'' := fun same => plain (Or.inr same)
      rw [List.singleton_append, escapedRun_cons noEscape noQuote, ih]

section Forms
variable {name : List Char} (nonempty : name ≠ []) (unquoted : '\'' ∉ name) (rest : List Char)

theorem literal?_append (word text : List Char) : literal? word (word ++ text) = some text :=
  literal?_eq_some.2 rfl

include nonempty unquoted

theorem SetForm.read?_source {value : List Char} (escaped : (escapedRun value).2 = []) :
    SetForm.read? (SetForm.source ⟨name, value⟩ ++ rest) = some (⟨name, value⟩, rest) := by
  have named : someRun? isNotQuote (name ++ (setMiddle ++ (value ++ (directiveEnd ++ rest)))) =
      some (name, setMiddle ++ (value ++ (directiveEnd ++ rest))) :=
    someRun?_append nonempty (isNotQuote_of_unquoted unquoted) rfl
  have valued : escapedRun (value ++ (directiveEnd ++ rest)) = (value, directiveEnd ++ rest) :=
    escapedRun_append escaped _
  unfold SetForm.read? SetForm.source
  simp only [List.append_assoc, literal?_append, named, valued, Option.bind_eq_bind,
    Option.bind_some]

theorem readEcho?_source : readEcho? (echoSource name ++ rest) = some (name, rest) := by
  have named : someRun? isNotQuote (name ++ (echoEnd ++ rest)) = some (name, echoEnd ++ rest) :=
    someRun?_append nonempty (isNotQuote_of_unquoted unquoted) rfl
  unfold readEcho? echoSource
  simp only [List.append_assoc, literal?_append, named, Option.bind_eq_bind, Option.bind_some]

theorem IncludeForm.read?_source {keyword : List Char}
    (worded : keyword = virtualWord ∨ keyword = fileWord) :
    IncludeForm.read? (IncludeForm.source ⟨keyword, name⟩ ++ rest) =
      some (⟨keyword, name⟩, rest) := by
  have either : ∀ text, keyword? (keyword ++ (attributeStart ++ text)) =
      some (keyword, attributeStart ++ text) := by
    intro text
    rcases worded with rfl | rfl <;> rfl
  have named : someRun? isNotQuote (name ++ (directiveEnd ++ rest)) =
      some (name, directiveEnd ++ rest) :=
    someRun?_append nonempty (isNotQuote_of_unquoted unquoted) rfl
  unfold IncludeForm.read? IncludeForm.source
  simp only [List.append_assoc, literal?_append, either, named, Option.bind_eq_bind,
    Option.bind_some]

omit nonempty in
theorem IfForm.read?_source (yes : List Char) (no : Option (List Char))
    (yesElse : Avoids elseMark yes) (yesEnd : Avoids endMark yes)
    (noEnd : Avoids endMark (no.getD [])) :
    IfForm.read? (IfForm.source ⟨name, yes, no⟩ ++ rest) = some (⟨name, yes, no⟩, rest) := by
  have apart : Avoids endMark elseMark := by decide
  have elseMark_ne_nil : elseMark ≠ [] := by decide
  have endMark_ne_nil : endMark ≠ [] := by decide
  have named : ∀ text, run isNotQuote (name ++ (directiveEnd ++ text)) = (name, directiveEnd ++ text) :=
    fun text => run_append (isNotQuote_of_unquoted unquoted) rfl
  unfold IfForm.read? IfForm.source IfForm.header
  simp only [List.append_assoc, literal?_append, named, Option.bind_eq_bind, Option.bind_some]
  cases no with
  | none =>
    have ended := yesEnd.breakAt?_append endMark_ne_nil rest
    have parted := yesElse.breakAt?_eq_none elseMark_ne_nil
    simp only [Option.elim_none, List.nil_append, ended, parted, Option.bind_some]
  | some no =>
    have ended := (yesEnd.append (apart.append noEnd)).breakAt?_append endMark_ne_nil rest
    have parted := yesElse.breakAt?_append elseMark_ne_nil no
    simp only [List.append_assoc, Option.getD_some] at ended
    simp only [Option.elim_some, List.append_assoc, ended, parted, Option.bind_some]

end Forms

theorem readReference?_source {name : List Char} (nonempty : name ≠ []) (unbraced : '\x7d' ∉ name)
    (rest : List Char) : readReference? (referenceSource name ++ rest) = some (name, rest) := by
  have inside : ∀ c ∈ name, isNotBrace c = true := by
    intro c member
    have differs : c ≠ '\x7d' := fun same => unbraced (same ▸ member)
    simpa [isNotBrace] using differs
  have named : someRun? isNotBrace (name ++ (referenceEnd ++ rest)) = some (name, referenceEnd ++ rest) :=
    someRun?_append nonempty inside rfl
  unfold readReference? referenceSource
  simp only [List.append_assoc, literal?_append, named, Option.bind_eq_bind, Option.bind_some]

theorem quoted_split_unique {word text rest after : List Char} (wordUnquoted : '\'' ∉ word)
    (unquoted : '\'' ∉ text) (same : text ++ '\'' :: rest = word ++ '\'' :: after) :
    text = word ∧ rest = after := by
  induction text generalizing word with
  | nil =>
    cases word with
    | nil => exact ⟨rfl, (List.cons.inj same).2⟩
    | cons w word =>
      rw [List.nil_append, List.cons_append] at same
      exact absurd ((List.cons.inj same).1 ▸ List.mem_cons_self) wordUnquoted
  | cons c text ih =>
    cases word with
    | nil =>
      rw [List.nil_append, List.cons_append] at same
      exact absurd ((List.cons.inj same).1 ▸ List.mem_cons_self) unquoted
    | cons w word =>
      rw [List.cons_append, List.cons_append] at same
      obtain ⟨head, tail⟩ := List.cons.inj same
      obtain ⟨equal, behind⟩ := ih (fun member => wordUnquoted (List.mem_cons_of_mem _ member))
        (fun member => unquoted (List.mem_cons_of_mem _ member)) tail
      exact ⟨by rw [head, equal], behind⟩

/-- A mark that ends in a quote would end at the closing quote of an attribute; so no piece begins
in the attribute if none can go on there. -/
theorem silent_quoted {μ : Type} {pattern : Pattern μ} (word : List Char) {text rest : List Char}
    (opens : pattern.OpensWith [word ++ ['\'']]) (wordUnquoted : '\'' ∉ word)
    (unquoted : '\'' ∉ text) (stops : pattern.read? (word ++ '\'' :: rest) = none) :
    pattern.Silent text ('\'' :: rest) := by
  induction text with
  | nil => trivial
  | cons c text ih =>
    refine ⟨?_, ih fun member => unquoted (List.mem_cons_of_mem _ member)⟩
    cases found : pattern.read? (c :: text ++ '\'' :: rest) with
    | none => rfl
    | some answer =>
      obtain ⟨mark, single, after, split⟩ := opens _ _ _ found
      rw [List.mem_singleton.1 single, List.append_assoc] at split
      have whole := (quoted_split_unique wordUnquoted unquoted split.symm).1
      rw [whole, stops] at found
      cases found

/-- The name in an echo never opens a set, for no set goes on as an echo does. -/
theorem sets_silent_echo {name : List Char} (unquoted : '\'' ∉ name) (rest : List Char) :
    sets.Silent (echoSource name) rest := by
  have opening : Avoids setStart echoStart := by decide
  have closing : Avoids setStart echoEnd := by decide
  have outside : ∀ {text}, Avoids setStart text → ∀ rest, sets.Silent text rest := fun avoids =>
    Pattern.silent_of_clean sets_opensWith (by simpa [Clean] using avoids)
  have inside : sets.Silent name (echoEnd ++ rest) :=
    silent_quoted "<!--#set var=".toList sets_opensWith (by decide) unquoted rfl
  unfold echoSource
  rw [Pattern.silent_append, Pattern.silent_append]
  exact ⟨⟨outside opening _, inside⟩, outside closing _⟩

end TwoPhase.Directive.Form
