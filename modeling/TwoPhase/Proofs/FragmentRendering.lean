import TwoPhase.Proofs.DeclarationArguments
import TwoPhase.Proofs.ShelfEntries
import TwoPhase.Proofs.VariableSets

/-
What rendering a fragment leaves behind. There are several ways out between the switch to the
language of the fragment and the writing of the caches, and a view in between that may do to its
context what it likes: each way out gives the language back, and only the last one writes.
-/
namespace TwoPhase

namespace Fragment
variable {fragment : Fragment} {languages : List String} {caches : CacheSet}
  {ctx inner : RequestContext} {arguments rest : NameMap String} {backend : Backend}
  {answer : Except Failure String × RequestContext} {output : String}

def KeepsPath (fragment : Fragment) : Prop :=
  ∀ ctx arguments, (fragment.view ctx arguments).2.path = ctx.path

/-- What the view is handed: the language in the address if the fragment is bound to one, and no
variables yet. -/
def viewContext (fragment : Fragment) (ctx : RequestContext) (arguments : NameMap String) :
    RequestContext :=
  let language := if fragment.usesLanguage then arguments.get? languageArgument else ctx.language
  { ctx with language, needed := {} }

def ownArguments (fragment : Fragment) (arguments : NameMap String) : NameMap String :=
  if fragment.usesLanguage then arguments.erase languageArgument else arguments

/-- The variables that the view has registered when it is done. -/
def registered (fragment : Fragment) (ctx : RequestContext) (arguments : NameMap String) :
    VariableSet :=
  (fragment.view (fragment.viewContext ctx arguments) (fragment.ownArguments arguments)).2.needed

theorem bindLanguage_handed
    (found : fragment.bindLanguage languages ctx arguments = .ok (inner, rest)) :
    inner = fragment.viewContext ctx arguments ∧ rest = fragment.ownArguments arguments := by
  unfold viewContext ownArguments
  unfold bindLanguage at found
  by_cases bound : fragment.usesLanguage = true
  · rw [if_pos bound] at found
    rw [if_pos bound, if_pos bound]
    split at found
    · cases found
    · next language given =>
      split at found
      · cases found
        exact ⟨by rw [given], rfl⟩
      · cases found
  · rw [if_neg bound] at found
    rw [if_neg bound, if_neg bound]
    cases found
    exact ⟨rfl, rfl⟩

theorem bindLanguage_unseen (bound : fragment.usesLanguage = true) (language : Option String)
    (needed : VariableSet) : fragment.bindLanguage languages { ctx with language, needed } arguments =
      fragment.bindLanguage languages ctx arguments := by
  unfold bindLanguage
  rw [if_pos bound, if_pos bound]
  rfl

theorem settle_ctx (ctx : RequestContext) (declared : List Variable) :
    ∃ needed, (settle ctx declared).1 = { ctx with needed } := by
  unfold settle
  refine List.foldlRecOn declared _
    (motive := fun progress : RequestContext × List String => ∃ needed, progress.1 = { ctx with needed })
    ⟨ctx.needed, rfl⟩ ?_
  rintro ⟨after, warnings⟩ ⟨needed, rfl⟩ v _
  dsimp only
  split
  · exact ⟨_, rfl⟩
  · exact ⟨needed, rfl⟩

theorem check_ctx (fragment : Fragment) (ctx : RequestContext) (arguments : NameMap String) :
    ∃ needed, (fragment.check ctx arguments).2.1 = { ctx with needed } := by
  unfold check
  split
  · exact ⟨ctx.needed, rfl⟩
  · dsimp only
    split
    · exact settle_ctx ctx _
    · exact settle_ctx ctx _

/-- What every way out leaves of the context: the path, if the view does not change it, and the
language, if the fragment is bound to one of its own. -/
structure Leaves (fragment : Fragment) (ctx after : RequestContext) : Prop where
  path : fragment.KeepsPath → after.path = ctx.path
  language : fragment.usesLanguage = true → after.language = ctx.language

theorem finish_cases (fragment : Fragment) (caches : CacheSet) (ctx : RequestContext)
    (arguments : NameMap String) (backend : Backend)
    (answer : Except Failure String × RequestContext) :
    ∃ after : RequestContext, after.path = answer.2.path ∧
      (fragment.usesLanguage = true → after.language = ctx.language) ∧
      ((∃ failure warnings, fragment.finish caches ctx arguments backend answer =
          ⟨.error failure, after, { backend with warnings }⟩) ∨
        ∃ output warnings, fragment.Covers arguments answer.2.needed ∧
          fragment.finish caches ctx arguments backend answer =
            ⟨.ok output, { after with needed := {} },
              { shelf := caches.put after.path output fragment.timeout backend.shelf, warnings }⟩) := by
  have restored : ∃ back : RequestContext, back = (if fragment.usesLanguage = true then
      { answer.2 with language := ctx.language } else answer.2) ∧ back.path = answer.2.path ∧
      back.needed = answer.2.needed ∧ (fragment.usesLanguage = true → back.language = ctx.language) := by
    by_cases bound : fragment.usesLanguage = true
    · exact ⟨_, rfl, by simp [bound]⟩
    · exact ⟨_, rfl, by simp [bound]⟩
  obtain ⟨back, spelled, path, used, language⟩ := restored
  obtain ⟨needed, checked⟩ := fragment.check_ctx back arguments
  unfold finish
  rw [← spelled]
  cases answer.1 with
  | error failure => exact ⟨back, path, language, Or.inl ⟨failure, backend.warnings, rfl⟩⟩
  | ok output =>
    refine ⟨{ back with needed }, path, language, ?_⟩
    cases outcome : (fragment.check back arguments).1 with
    | error failure =>
      left
      refine ⟨failure, backend.warnings ++ (fragment.check back arguments).2.2, ?_⟩
      simp only [checked]
      rw [outcome]
    | ok done =>
      right
      refine ⟨output, backend.warnings ++ (fragment.check back arguments).2.2, ?_, ?_⟩
      · exact used ▸ check_ok_iff.1 outcome
      · simp only [checked]
        rw [outcome]

theorem render_eq_error {failure : Failure}
    (refused : fragment.bindLanguage languages ctx arguments = .error failure) :
    fragment.render languages caches ctx arguments backend = ⟨.error failure, ctx, backend⟩ := by
  unfold render
  rw [refused]

theorem render_cases (fragment : Fragment) (languages : List String) (caches : CacheSet)
    (ctx : RequestContext) (arguments : NameMap String) (backend : Backend) :
    ∃ after, fragment.Leaves ctx after ∧
      ((∃ failure warnings, fragment.render languages caches ctx arguments backend =
          ⟨.error failure, after, { backend with warnings }⟩) ∨
        ∃ output warnings,
          fragment.Covers (fragment.ownArguments arguments) (fragment.registered ctx arguments) ∧
          fragment.render languages caches ctx arguments backend =
            ⟨.ok output, { after with needed := {} },
              { shelf := caches.put after.path output fragment.timeout backend.shelf, warnings }⟩) := by
  cases found : fragment.bindLanguage languages ctx arguments with
  | error failure =>
    refine ⟨ctx, ⟨fun _ => rfl, fun _ => rfl⟩, Or.inl ⟨failure, backend.warnings, ?_⟩⟩
    exact render_eq_error found
  | ok handed =>
    obtain ⟨inner, rest⟩ := handed
    obtain ⟨rfl, rfl⟩ := bindLanguage_handed found
    obtain ⟨after, path, language, ended⟩ := fragment.finish_cases caches ctx
      (fragment.ownArguments arguments) backend
      (fragment.view (fragment.viewContext ctx arguments) (fragment.ownArguments arguments))
    rw [render_eq_finish found]
    exact ⟨after, ⟨fun keepsPath => path.trans (keepsPath _ _), language⟩, ended⟩

theorem render_leaves (fragment : Fragment) (languages : List String) (caches : CacheSet)
    (ctx : RequestContext) (arguments : NameMap String) (backend : Backend) :
    fragment.Leaves ctx (fragment.render languages caches ctx arguments backend).ctx := by
  obtain ⟨after, leaves, ⟨_, _, failed⟩ | ⟨_, _, _, rendered⟩⟩ :=
    fragment.render_cases languages caches ctx arguments backend
  · rw [failed]
    exact leaves
  · rw [rendered]
    exact ⟨leaves.path, leaves.language⟩

theorem render_writes (fragment : Fragment) (languages : List String) (caches : CacheSet)
    (ctx : RequestContext) (arguments : NameMap String) (backend : Backend) :
    (fragment.render languages caches ctx arguments backend).backend.shelf =
      match (fragment.render languages caches ctx arguments backend).outcome with
      | .ok output => caches.put (fragment.render languages caches ctx arguments backend).ctx.path
          output fragment.timeout backend.shelf
      | .error _ => backend.shelf := by
  obtain ⟨after, _, ⟨_, _, failed⟩ | ⟨_, _, _, rendered⟩⟩ :=
    fragment.render_cases languages caches ctx arguments backend
  · rw [failed]
  · rw [rendered]

theorem render_ok
    (succeeded : (fragment.render languages caches ctx arguments backend).outcome = .ok output) :
    (fragment.render languages caches ctx arguments backend).ctx.needed = {} ∧
      ∃ declared, fragment.declared (literalArguments (fragment.ownArguments arguments)) = .ok declared ∧
        ∀ name ∈ (fragment.registered ctx arguments).order, ∃ v ∈ declared, v.identifier = name := by
  obtain ⟨after, _, ⟨_, _, failed⟩ | ⟨_, _, ⟨declared, known, nothing⟩, rendered⟩⟩ :=
    fragment.render_cases languages caches ctx arguments backend
  · rw [failed] at succeeded
    cases succeeded
  · rw [rendered]
    refine ⟨rfl, declared, known, ?_⟩
    intro name member
    refine Classical.byContradiction fun missing => ?_
    have left := VariableSet.mem_order_foldl_erase member
      fun v listed same => missing ⟨v, listed, same⟩
    rw [List.isEmpty_iff.1 nothing] at left
    cases left

theorem render_unseen (bound : fragment.usesLanguage = true) (language : Option String)
    (needed : VariableSet) :
    (fragment.render languages caches { ctx with language, needed } arguments backend).SameEffect
      (fragment.render languages caches ctx arguments backend) := by
  have same : fragment.bindLanguage languages { ctx with language, needed } arguments =
      fragment.bindLanguage languages ctx arguments := bindLanguage_unseen bound language needed
  cases found : fragment.bindLanguage languages ctx arguments with
  | error failure =>
    rw [render_eq_error found, render_eq_error (same.trans found)]
    exact ⟨rfl, rfl⟩
  | ok handed =>
    obtain ⟨inner, rest⟩ := handed
    rw [render_eq_finish found, render_eq_finish (same.trans found)]
    exact fragment.finish_alike caches _ ctx rest backend rfl ⟨rfl, rfl⟩

end Fragment

/-- A rendering that fails leaves all stores as they were, wherever it fails. One that succeeds has put
its output under the path of the request into every store and touched no other key, and every
variable that was registered is one that the fragment declares for its arguments. A fragment that
is bound to a language leaves that of the request as it was, in any case, and sees neither it nor
the variables collected before. -/
theorem render_all_or_nothing {fragment : Fragment} (keepsPath : fragment.KeepsPath)
    (languages : List String) (caches : CacheSet) (ctx : RequestContext)
    (arguments : NameMap String) (backend : Backend) :
    (∀ failure, (fragment.render languages caches ctx arguments backend).outcome = .error failure →
      (fragment.render languages caches ctx arguments backend).backend.shelf = backend.shelf) ∧
    (∀ output, (fragment.render languages caches ctx arguments backend).outcome = .ok output →
      caches.Published ctx.path output fragment.timeout backend.shelf
          (fragment.render languages caches ctx arguments backend).backend.shelf ∧
        (fragment.render languages caches ctx arguments backend).ctx.needed = {} ∧
        ∃ declared,
          fragment.declared (literalArguments (fragment.ownArguments arguments)) = .ok declared ∧
          ∀ name ∈ (fragment.registered ctx arguments).order,
            ∃ v ∈ declared, v.identifier = name) ∧
    (fragment.usesLanguage = true →
      (fragment.render languages caches ctx arguments backend).ctx.language = ctx.language ∧
        ∀ language needed,
          (fragment.render languages caches { ctx with language, needed } arguments
            backend).SameEffect (fragment.render languages caches ctx arguments backend)) := by
  have written := fragment.render_writes languages caches ctx arguments backend
  refine ⟨?_, ?_, ?_⟩
  · intro failure failed
    rw [failed] at written
    exact written
  · intro output rendered
    rw [rendered, (fragment.render_leaves ..).path keepsPath] at written
    rw [written]
    exact ⟨caches.put_published _ _ _ _, Fragment.render_ok rendered⟩
  · intro bound
    exact ⟨(fragment.render_leaves ..).language bound, Fragment.render_unseen bound⟩

namespace Quotes

def randomQuote : Fragment where
  view := randomQuoteView
  declares := some declareRandomQuote

def abroad : RequestContext where
  path := "/pl/random-quote/4/"
  language := some "en"
  needed := .ofList [count]

def abroadArguments : NameMap String := .ofList [("lang", "pl"), ("limit", "4")]

def oneStore : CacheSet := ⟨[("slow", 0)]⟩

def emptyShelf : Backend := { shelf := { stores := [{}] } }

end Quotes

set_option maxRecDepth 4000 in
theorem quotes_rendered : Quotes.randomQuote.KeepsPath ∧ ∃ output,
    (Quotes.randomQuote.render ["en", "pl"] Quotes.oneStore Quotes.abroad Quotes.abroadArguments
        Quotes.emptyShelf).outcome = .ok output ∧
      Quotes.oneStore.Published "/pl/random-quote/4/" output none Quotes.emptyShelf.shelf
        (Quotes.randomQuote.render ["en", "pl"] Quotes.oneStore Quotes.abroad Quotes.abroadArguments
          Quotes.emptyShelf).backend.shelf ∧
      (Quotes.randomQuote.render ["en", "pl"] Quotes.oneStore Quotes.abroad Quotes.abroadArguments
        Quotes.emptyShelf).ctx.language = some "en" := by
  have keepsPath : Quotes.randomQuote.KeepsPath := (Quotes.randomQuote_addressBound none).keepsPath
  have succeeds : (Quotes.randomQuote.render ["en", "pl"] Quotes.oneStore Quotes.abroad
      Quotes.abroadArguments Quotes.emptyShelf).outcome.toOption.isSome = true := by decide
  obtain ⟨_, published, bound⟩ := render_all_or_nothing keepsPath ["en", "pl"] Quotes.oneStore
    Quotes.abroad Quotes.abroadArguments Quotes.emptyShelf
  cases outcome : (Quotes.randomQuote.render ["en", "pl"] Quotes.oneStore Quotes.abroad
      Quotes.abroadArguments Quotes.emptyShelf).outcome with
  | error failure =>
    rw [outcome] at succeeds
    cases succeeds
  | ok output =>
    exact ⟨keepsPath, output, rfl, (published output outcome).1, (bound rfl).1⟩

end TwoPhase
