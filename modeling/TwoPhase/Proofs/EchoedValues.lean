import Mathlib.Data.List.Infix
import TwoPhase.Proofs.ItemPasses

/-
What becomes of a value once an echo has written it out. The two passes that follow read the
text again, so a value that spells an if block or an include is evaluated in its place; a
value that spells neither stays as it is. A pass that only shortens what it finds cannot give
its text back once it has found anything, which is why the condition is exact.
-/
namespace TwoPhase

namespace Pattern
variable {μ : Type} {pattern : Pattern μ} {text : List Char}

theorem read?_nil (pattern : Pattern μ) : pattern.read? [] = none := by
  cases found : pattern.read? [] with
  | none => rfl
  | some answer =>
    have split := pattern.eq_of_read? found
    exact absurd (List.append_eq_nil_iff.1 split.symm).1 (pattern.source_ne_nil answer.1)

theorem scan_induction {motive : List Char → Prop} (pattern : Pattern μ) (nil : motive [])
    (found : ∀ piece rest, pattern.read? (pattern.source piece ++ rest) = some (piece, rest) →
      motive rest → motive (pattern.source piece ++ rest))
    (missed : ∀ c text, pattern.read? (c :: text) = none → motive text → motive (c :: text))
    (text : List Char) : motive text := by
  induction size : text.length using Nat.strongRecOn generalizing text with
  | ind size ih =>
    subst size
    cases text with
    | nil => exact nil
    | cons c text =>
      cases read : pattern.read? (c :: text) with
      | none => exact missed c text read (ih text.length (by simp) text rfl)
      | some answer =>
        obtain ⟨piece, rest⟩ := answer
        have split := pattern.eq_of_read? read
        have positive : 0 < (pattern.source piece).length :=
          List.length_pos_of_ne_nil (pattern.source_ne_nil piece)
        have shorter : rest.length < (c :: text).length := by
          rw [split, List.length_append]
          omega
        rw [split] at read ⊢
        exact found piece rest read (ih rest.length shorter rest rfl)

theorem silent_iff : pattern.Silent text [] ↔
    ∀ before after, text = before ++ after → pattern.read? after = none := by
  induction text with
  | nil =>
    refine ⟨fun _ before after split => ?_, fun _ => trivial⟩
    rw [(List.append_eq_nil_iff.1 split.symm).2]
    exact pattern.read?_nil
  | cons c text ih =>
    have whole : pattern.Silent (c :: text) [] ↔
        pattern.read? (c :: text) = none ∧ pattern.Silent text [] := by
      simp [Silent]
    rw [whole, ih]
    constructor
    · rintro ⟨first, later⟩ before after split
      cases before with
      | nil =>
        rw [List.nil_append] at split
        rwa [← split]
      | cons b before => exact later before after (List.cons.inj split).2
    · intro all
      exact ⟨all [] _ rfl, fun before after split => all (c :: before) after (by rw [split]; rfl)⟩

/-- Where a pattern reads exactly the texts of valid pieces, it finds nothing in a text that holds
none of them. -/
theorem silent_iff_not_infix {valid : μ → Prop}
    (given : ∀ text piece rest, pattern.read? text = some (piece, rest) → valid piece)
    (readable : ∀ piece, valid piece → ∀ rest, (pattern.read? (pattern.source piece ++ rest)).isSome) :
    pattern.Silent text [] ↔ ¬ ∃ piece, valid piece ∧ pattern.source piece <:+: text := by
  rw [silent_iff]
  constructor
  · rintro silent ⟨piece, proper, before, after, split⟩
    have missed := silent before _ ((List.append_assoc ..).symm.trans split).symm
    have found := readable piece proper after
    rw [missed] at found
    cases found
  · intro plain before after split
    cases found : pattern.read? after with
    | none => rfl
    | some answer =>
      obtain ⟨piece, rest⟩ := answer
      refine absurd ⟨piece, given _ _ _ found, before, rest, ?_⟩ plain
      rw [split, pattern.eq_of_read? found, List.append_assoc]

end Pattern

namespace Directive.Form

def SpellsBlock (text : List Char) : Prop :=
  ∃ expression inside, '\'' ∉ expression ∧
    ifStart ++ expression ++ directiveEnd ++ inside ++ endMark <:+: text

def SpellsInclude (text : List Char) : Prop :=
  ∃ form : IncludeForm, (form.keyword = virtualWord ∨ form.keyword = fileWord) ∧
    form.path ≠ [] ∧ '\'' ∉ form.path ∧ form.source <:+: text

theorem breakAt?_isSome (mark before rest : List Char) :
    (breakAt? mark (before ++ (mark ++ rest))).isSome := by
  induction before with
  | nil =>
    cases text : mark ++ rest with
    | nil =>
      rw [(List.append_eq_nil_iff.1 text).1]
      rfl
    | cons c later =>
      have found : literal? mark (c :: later) = some rest := literal?_eq_some.2 text.symm
      rw [List.nil_append, breakAt?, found]
      rfl
  | cons b before ih =>
    rw [List.cons_append, breakAt?]
    split
    · rfl
    · rw [Option.isSome_map]
      exact ih

theorem unquoted_of_run (text : List Char) : '\'' ∉ (run isNotQuote text).1 := by
  intro member
  have kind : isNotQuote '\'' = true := List.all_eq_true.1 List.all_takeWhile _ member
  cases kind

theorem IfForm.expression_unquoted {text rest : List Char} {form : IfForm}
    (found : read? text = some (form, rest)) : '\'' ∉ form.expression := by
  simp only [read?, Option.bind_eq_bind, Option.bind_eq_some_iff, Prod.exists] at found
  obtain ⟨text₁, _, _, _, _, _, _, found⟩ := found
  split at found <;> cases found <;> exact unquoted_of_run text₁

theorem IfForm.read?_isSome {expression : List Char} (unquoted : '\'' ∉ expression)
    (inside rest : List Char) :
    (read? (ifStart ++ expression ++ directiveEnd ++ inside ++ endMark ++ rest)).isSome := by
  have named : run isNotQuote (expression ++ (directiveEnd ++ (inside ++ (endMark ++ rest)))) =
      (expression, directiveEnd ++ (inside ++ (endMark ++ rest))) :=
    run_append (isNotQuote_of_unquoted unquoted) rfl
  obtain ⟨⟨before, after⟩, ended⟩ :=
    Option.isSome_iff_exists.1 (breakAt?_isSome endMark inside rest)
  unfold read?
  simp only [List.append_assoc, literal?_append, named, ended, Option.bind_eq_bind,
    Option.bind_some]
  split <;> rfl

theorem ifs_silent_iff {text : List Char} : ifs.Silent text [] ↔ ¬ SpellsBlock text := by
  rw [Pattern.silent_iff]
  constructor
  · rintro silent ⟨expression, inside, unquoted, before, after, split⟩
    have missed := silent before _ ((List.append_assoc ..).symm.trans split).symm
    have found := IfForm.read?_isSome unquoted inside after
    rw [show IfForm.read? _ = none from missed] at found
    cases found
  · intro plain before after split
    cases found : ifs.read? after with
    | none => rfl
    | some answer =>
      obtain ⟨form, rest⟩ := answer
      refine absurd ⟨form.expression,
        form.yes ++ (form.no.elim [] fun no => Form.elseMark ++ no), form.expression_unquoted found,
        before, rest, ?_⟩ plain
      rw [split, ifs.eq_of_read? found]
      simp [ifs, IfForm.source, IfForm.header]

theorem IncludeForm.path_of_read? {text rest : List Char} {form : IncludeForm}
    (found : read? text = some (form, rest)) : form.path ≠ [] ∧ '\'' ∉ form.path := by
  simp only [read?, Option.bind_eq_bind, Option.bind_eq_some_iff, Prod.exists] at found
  obtain ⟨_, _, _, _, _, text₃, _, path, _, named, _, _, pair⟩ := found
  cases pair
  simp only [someRun?] at named
  split at named
  · cases named
  · next nonempty =>
    cases named
    exact ⟨by simpa using nonempty, unquoted_of_run text₃⟩

theorem includes_silent_iff {text : List Char} :
    includes.Silent text [] ↔ ¬ SpellsInclude text := by
  have written : includes.Silent text [] ↔ ¬ ∃ form : IncludeForm,
      ((form.keyword = virtualWord ∨ form.keyword = fileWord) ∧ form.path ≠ [] ∧ '\'' ∉ form.path) ∧
        form.source <:+: text := by
    apply Pattern.silent_iff_not_infix
    · exact fun _ _ _ found => ⟨IncludeForm.keyword_of_read? found, IncludeForm.path_of_read? found⟩
    · rintro ⟨keyword, path⟩ ⟨worded, nonempty, unquoted⟩ rest
      exact Option.isSome_iff_exists.2 ⟨_, IncludeForm.read?_source nonempty unquoted rest worded⟩
  rw [written]
  simp only [SpellsInclude, and_assoc]

end Directive.Form

namespace Evaluation
variable {σ μ : Type} {pattern : Pattern μ} {replace : μ → Evaluation σ (List Char)}

theorem replaceAll_shortens (shorter : ∀ piece session content,
      ((replace piece).run.run session).1 = .ok content →
        content.length < (pattern.source piece).length)
    (text : List Char) : ∀ session output,
      ((replaceAll pattern replace text).run.run session).1 = .ok output →
        output.length ≤ text.length ∧ (¬ pattern.Silent text [] → output.length < text.length) := by
  induction text using pattern.scan_induction with
  | nil =>
    intro session output ended
    rw [replaceAll_nil] at ended
    cases ended
    exact ⟨Nat.le_refl _, fun noisy => absurd trivial noisy⟩
  | found piece rest read ih =>
    intro session output ended
    rw [replaceAll_read read] at ended
    obtain ⟨before, middle, replaced, ended⟩ := ok_of_run_bind ended
    obtain ⟨after, last, passed, ended⟩ := ok_of_run_bind ended
    cases ended
    have left := shorter piece session before (congrArg Prod.fst replaced)
    have right := (ih middle after (congrArg Prod.fst passed)).1
    simp only [List.length_append]
    omega
  | missed c text read ih =>
    intro session output ended
    rw [replaceAll_skip read] at ended
    obtain ⟨after, last, passed, ended⟩ := ok_of_run_bind ended
    cases ended
    obtain ⟨most, less⟩ := ih session after (congrArg Prod.fst passed)
    refine ⟨Nat.succ_le_succ most, fun noisy => Nat.succ_lt_succ (less ?_)⟩
    intro silent
    exact noisy ⟨by rwa [List.append_nil], silent⟩

theorem replaceAll_of_silent {text : List Char} (silent : pattern.Silent text []) :
    replaceAll pattern replace text = pure text := by
  have whole : replaceAll pattern replace (text ++ []) = _ := replaceAll_silent silent
  rw [replaceAll_nil, List.append_nil] at whole
  simpa using whole

end Evaluation

namespace Evaluator
open Evaluation Directive.Form
variable {σ : Type} (maxDepth : Nat)

def alone : Evaluator σ := { sources := .none, maxDepth }

def evaluateInclude (evaluator : Evaluator σ) (included : List Char → Evaluation σ (List Char))
    (form : IncludeForm) : Evaluation σ (List Char) := do
  let path ← fillIn "include path" form.path
  return evaluator.wrap form.source (← included path)

def lastPasses (evaluator : Evaluator σ) (included : List Char → Evaluation σ (List Char))
    (text : List Char) : Evaluation σ (List Char) := do
  let text ← replaceAll ifs evaluator.evaluateIf text
  replaceAll includes (evaluator.evaluateInclude included) text

theorem evaluateIf_shorter (form : IfForm) (session : Session σ) (content : List Char)
    (ended : (((alone maxDepth).evaluateIf form).run.run session).1 = .ok content) :
    content.length < form.source.length := by
  obtain ⟨expression, after, _, ended⟩ := ok_of_run_bind ended
  have branch : content = if expression.isEmpty then form.no.getD [] else form.yes := by
    cases ended
    rfl
  have opening : 0 < ifStart.length := by decide
  rw [branch]
  cases no : form.no with
  | none =>
    simp only [IfForm.source, IfForm.header, no, List.length_append, Option.getD_none]
    split
    · rw [List.length_nil]
      omega
    · omega
  | some other =>
    simp only [IfForm.source, IfForm.header, no, List.length_append, Option.getD_some,
      Option.elim_some]
    split <;> omega

variable {included : List Char → Evaluation σ (List Char)}
  (never : ∀ path session output, ((included path).run.run session).1 ≠ .ok output)
include never

theorem evaluateInclude_fails (form : IncludeForm) (session : Session σ) (content : List Char) :
    (((alone maxDepth).evaluateInclude included form).run.run session).1 ≠ .ok content := by
  intro ended
  obtain ⟨path, after, _, ended⟩ := ok_of_run_bind ended
  obtain ⟨output, last, fetched, _⟩ := ok_of_run_bind ended
  exact never path after output (congrArg Prod.fst fetched)

theorem lastPasses_eq_iff (text : List Char) (session : Session σ) :
    (((alone maxDepth).lastPasses included text).run.run session).1 = .ok text ↔
      ifs.Silent text [] ∧ includes.Silent text [] := by
  constructor
  · intro ended
    obtain ⟨chosen, after, passed, ended⟩ := ok_of_run_bind ended
    have first : chosen.length ≤ text.length ∧
        (¬ ifs.Silent text [] → chosen.length < text.length) :=
      replaceAll_shortens (evaluateIf_shorter maxDepth) text session chosen
        (congrArg Prod.fst passed)
    have second : text.length ≤ chosen.length ∧
        (¬ includes.Silent chosen [] → text.length < chosen.length) := by
      refine replaceAll_shortens ?_ chosen after text ended
      intro form session content given
      exact absurd given (evaluateInclude_fails maxDepth never form session content)
    have quiet : ifs.Silent text [] := by
      by_contra noisy
      have := first.2 noisy
      omega
    rw [replaceAll_of_silent quiet] at passed
    cases passed
    refine ⟨quiet, ?_⟩
    by_contra noisy
    have := second.2 noisy
    omega
  · rintro ⟨noBlock, noInclude⟩
    unfold lastPasses
    rw [replaceAll_of_silent noBlock, pure_bind, replaceAll_of_silent noInclude]
    rfl

end Evaluator

namespace Directive.Form
variable {text word : List Char}

theorem infix_bracketed_iff (opening : word.head? = some '<') (ending : word.getLast? = some '>') :
    word <:+: '[' :: (text ++ [']']) ↔ word <:+: text := by
  constructor
  · intro inside
    rcases List.infix_cons_iff.1 inside with ⟨rest, first⟩ | later
    · cases word with
      | nil => cases opening
      | cons w word =>
        cases (List.cons.inj first).1
        cases opening
    · rcases List.infix_concat_iff.1 later with ⟨rest, last⟩ | within
      · have tail := congrArg List.getLast? last
        rw [List.getLast?_append, ending, List.getLast?_append] at tail
        cases tail
      · exact within
  · intro inside
    exact (inside.trans (List.prefix_append text [']']).isInfix).trans
      (List.suffix_cons '[' _).isInfix

theorem spellsBlock_bracketed : SpellsBlock ('[' :: (text ++ [']'])) ↔ SpellsBlock text := by
  have each : ∀ expression inside : List Char,
      ifStart ++ expression ++ directiveEnd ++ inside ++ endMark <:+: '[' :: (text ++ [']']) ↔
        ifStart ++ expression ++ directiveEnd ++ inside ++ endMark <:+: text := by
    intro expression inside
    have ending : endMark.getLast? = some '>' := by decide
    apply infix_bracketed_iff
    · rfl
    · rw [List.getLast?_append, ending, Option.some_or]
  simp only [SpellsBlock, each]

theorem spellsInclude_bracketed : SpellsInclude ('[' :: (text ++ [']'])) ↔ SpellsInclude text := by
  have each : ∀ form : IncludeForm, form.source <:+: '[' :: (text ++ [']']) ↔
      form.source <:+: text := by
    intro form
    have ending : directiveEnd.getLast? = some '>' := by decide
    apply infix_bracketed_iff
    · rfl
    · rw [IncludeForm.source, List.getLast?_append, ending, Option.some_or]
  simp only [SpellsInclude, each]

end Directive.Form

section Shown
open Evaluation Directive.Form Markup
variable {σ : Type} {name : String}

/-- A variable set to a value and then shown between brackets. -/
def shownValue (name : String) (value : Json) : String :=
  Directive.set name value ++ "[" ++ Directive.echo name ++ "]"

theorem shownValue_toList (name : String) (value : Json) : (shownValue name value).toList =
    (Leaf.set name (Directive.valueText value)).source.toList ++
      (['['] ++ (echoSource name.toList ++ [']'])) := by
  have first : Directive.set name value = (Leaf.set name (Directive.valueText value)).source := rfl
  have second : Directive.echo name = (Leaf.echo name).source := rfl
  unfold shownValue
  rw [first, second, String.toList_append, String.toList_append, String.toList_append,
    Leaf.echo_toList]
  simp

variable (formed : NameFormed name)
include formed

theorem shownValue_sets (maxDepth : Nat) (value : Json) :
    replaceAll sets (Evaluator.alone (σ := σ) maxDepth).evaluateSet (shownValue name value).toList =
      (do
        Evaluation.bind name (Directive.valueText value)
        return ['['] ++ (echoSource name.toList ++ [']'])) := by
  have bracket : ∀ c, c = '[' ∨ c = ']' → Handles sets
      (Evaluator.alone (σ := σ) maxDepth).evaluateSet [c] (pure [c]) := by
    rintro c (rfl | rfl) <;> exact Handles.clean _ sets_opensWith (by decide)
  have echo := Handles.silent (Evaluator.alone (σ := σ) maxDepth).evaluateSet
    (sets_silent_echo formed.unquoted)
  have set : Handles sets (Evaluator.alone (σ := σ) maxDepth).evaluateSet _ _ :=
    set_leaf_handled rfl formed (Directive.valueText value)
  have all := set.append ((bracket '[' (.inl rfl)).append (echo.append (bracket ']' (.inr rfl))))
  rw [shownValue_toList, all.whole]
  simp

theorem shownValue_echoes (maxDepth : Nat) :
    replaceAll echoes (Evaluator.alone (σ := σ) maxDepth).evaluateEcho
        (['['] ++ (echoSource name.toList ++ [']'])) =
      (do
        let value ← Evaluation.lookup "echo" name.toList
        return '[' :: (value ++ [']'])) := by
  have bracket : ∀ c, c = '[' ∨ c = ']' → Handles echoes
      (Evaluator.alone (σ := σ) maxDepth).evaluateEcho [c] (pure [c]) := by
    rintro c (rfl | rfl) <;> exact Handles.clean _ echoes_opensWith (by decide)
  have echo : Handles echoes (Evaluator.alone (σ := σ) maxDepth).evaluateEcho _ _ :=
    echo_leaf_handled rfl formed
  have all := (bracket '[' (.inl rfl)).append (echo.append (bracket ']' (.inr rfl)))
  rw [all.whole]
  simp

theorem shownValue_passes (maxDepth : Nat) (value : Json)
    (included : List Char → Evaluation σ (List Char)) (session : Session σ) :
    ((Evaluator.alone maxDepth).passes included (shownValue name value).toList).run.run session =
      ((Evaluator.alone maxDepth).lastPasses included
          ('[' :: ((Directive.valueText value).toList ++ [']']))).run.run
        { session with
          bindings := session.bindings.insert name (Directive.valueText value) } := by
  have bound : (Evaluation.bind name (Directive.valueText value)).run.run session =
      (.ok (), { session with
        bindings := session.bindings.insert name (Directive.valueText value) }) := rfl
  have known : (session.bindings.insert name (Directive.valueText value)).get?
      (String.ofList name.toList) = some (Directive.valueText value) := by
    rw [String.ofList_toList, NameMap.get?_insert, if_pos rfl]
  unfold Evaluator.passes
  rw [shownValue_sets formed]
  simp only [bind_assoc, pure_bind, shownValue_echoes formed]
  rw [run_bind, bound]
  dsimp only
  rw [run_bind, run_lookup]
  simp only [known]
  rfl

omit formed in
theorem alone_passes (maxDepth : Nat) (ctx : RequestContext) (levels : Nat) :
    ∃ included, (∀ path (session : Session σ) output,
        ((included path).run.run session).1 ≠ .ok output) ∧
      (Evaluator.alone maxDepth).evaluate ctx levels =
        (Evaluator.alone maxDepth).passes included := by
  cases levels with
  | zero =>
    refine ⟨_, ?_, rfl⟩
    intro path session output ended
    cases ended
  | succ levels =>
    refine ⟨_, ?_, rfl⟩
    intro path session output ended
    obtain ⟨raw, after, fetched, _⟩ := ok_of_run_bind ended
    have failed := congrArg Prod.fst fetched
    cases failed

end Shown

/-- A value stays as it is exactly if it spells no directive that the last two passes evaluate. -/
theorem echoed_value_inert_iff {σ : Type} (ctx : RequestContext) (maxDepth : Nat) {name : String}
    (formed : Markup.NameFormed name) (value : Json) (shared : σ) :
    ((Evaluator.alone maxDepth).evaluateDocument ctx (shownValue name value) shared).1 =
        .ok ("[" ++ Directive.valueText value ++ "]") ↔
      ¬ Directive.Form.SpellsBlock (Directive.valueText value).toList ∧
        ¬ Directive.Form.SpellsInclude (Directive.valueText value).toList := by
  obtain ⟨included, never, passes⟩ := alone_passes (σ := σ) maxDepth ctx maxDepth
  have brackets : "[" ++ Directive.valueText value ++ "]" =
      String.ofList ('[' :: ((Directive.valueText value).toList ++ [']'])) := by
    apply String.toList_inj.1
    simp
  have silent := Evaluator.lastPasses_eq_iff maxDepth never
    ('[' :: ((Directive.valueText value).toList ++ [']']))
    { bindings := ({} : NameMap String).insert name (Directive.valueText value), shared }
  rw [Directive.Form.ifs_silent_iff, Directive.Form.includes_silent_iff,
    Directive.Form.spellsBlock_bracketed, Directive.Form.spellsInclude_bracketed] at silent
  have ran : ((Evaluator.alone maxDepth).evaluateDocument ctx (shownValue name value) shared).1 =
      (((Evaluator.alone maxDepth).evaluate ctx maxDepth (shownValue name value).toList).run.run
        { shared }).1.map String.ofList := rfl
  rw [← silent, brackets, ran, passes, shownValue_passes formed]
  generalize (((Evaluator.alone maxDepth).lastPasses included _).run.run _).1 = outcome
  cases outcome with
  | error failure => simp [Except.map]
  | ok output => simp only [Except.map, Except.ok.injEq, String.ofList_inj]

theorem quoted_value_inert :
    Markup.NameFormed "user" ∧
      ((Evaluator.alone 16).evaluateDocument (.ofLocation "/")
          (shownValue "user" (.str "O'Neil \\ <!--#else--> & <!--#endif-->")) ()).1 =
        .ok ("[" ++ Directive.valueText (.str "O'Neil \\ <!--#else--> & <!--#endif-->") ++ "]") := by
  have formed : Markup.NameFormed "user" := by decide
  refine ⟨formed, (echoed_value_inert_iff _ _ formed _ ()).2 ⟨?_, ?_⟩⟩
  · exact Directive.Form.ifs_silent_iff.1
      (Pattern.silent_of_clean Directive.Form.ifs_opensWith (by decide) [])
  · exact Directive.Form.includes_silent_iff.1
      (Pattern.silent_of_clean Directive.Form.includes_opensWith (by decide) [])

/-- The block that the value spells is gone: its expression is not empty. -/
theorem echoed_block_evaluated :
    Markup.NameFormed "user" ∧
      ((Evaluator.alone 16).evaluateDocument (.ofLocation "/")
          (shownValue "user" (.str "<!--#if expr='x'-->y<!--#endif-->")) ()).1.toOption = some "[y]" ∧
      ((Evaluator.alone 16).evaluateDocument (.ofLocation "/")
          (shownValue "user" (.str "<!--#if expr='x'-->y<!--#endif-->")) ()).1 ≠
        .ok ("[" ++ Directive.valueText (.str "<!--#if expr='x'-->y<!--#endif-->") ++ "]") := by
  have shown : ((Evaluator.alone 16).evaluateDocument (.ofLocation "/")
      (shownValue "user" (.str "<!--#if expr='x'-->y<!--#endif-->")) ()).1.toOption =
      some "[y]" := by decide +kernel
  refine ⟨by decide, shown, ?_⟩
  intro same
  rw [same] at shown
  exact absurd shown (by decide)

end TwoPhase
