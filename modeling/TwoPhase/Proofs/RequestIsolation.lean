import TwoPhase.Proofs.CacheTransparency

/-
How much of the including request an included fragment can see. Its address and the language in
it replace those of the request, and no variables are used yet; the metadata are handed on,
and to a fragment without a language in its address the language of the request as well.
Everything after the view goes by the path and the variables it used.
-/
namespace TwoPhase

structure RequestContext.Alike (ctx other : RequestContext) : Prop where
  path : ctx.path = other.path
  needed : ctx.needed = other.needed

structure Rendering.SameEffect (rendering other : Rendering) : Prop where
  outcome : rendering.outcome = other.outcome
  backend : rendering.backend = other.backend

namespace Fragment
variable {fragment : Fragment} {languages : List String} {caches : CacheSet}
  {ctx other : RequestContext} {arguments : NameMap String} {backend : Backend}

theorem settle_alike (alike : ctx.Alike other) (declared : List Variable) :
    (settle ctx declared).1.Alike (settle other declared).1 ∧
      (settle ctx declared).2 = (settle other declared).2 := by
  unfold settle
  refine List.foldl_rel (r := fun (left right : RequestContext × List String) =>
    left.1.Alike right.1 ∧ left.2 = right.2) ⟨alike, rfl⟩ ?_
  rintro v _ ⟨left, warnings⟩ ⟨right, _⟩ ⟨agree, rfl⟩
  dsimp only at agree ⊢
  have warning : unusedWarning left v = unusedWarning right v := by
    unfold unusedWarning
    rw [agree.path]
  rw [agree.needed, warning]
  split
  · exact ⟨⟨agree.path, rfl⟩, rfl⟩
  · exact ⟨agree, rfl⟩

theorem check_alike (fragment : Fragment) (alike : ctx.Alike other)
    (arguments : NameMap String) :
    (fragment.check ctx arguments).1 = (fragment.check other arguments).1 ∧
      (fragment.check ctx arguments).2.1.Alike (fragment.check other arguments).2.1 ∧
      (fragment.check ctx arguments).2.2 = (fragment.check other arguments).2.2 := by
  unfold check
  split
  · exact ⟨rfl, alike, rfl⟩
  · next declared known =>
    obtain ⟨after, warnings⟩ := settle_alike alike declared
    dsimp only
    rw [after.path, after.needed, warnings]
    split
    · exact ⟨rfl, after, rfl⟩
    · exact ⟨rfl, after, rfl⟩

theorem bindLanguage_alike (fragment : Fragment) (languages : List String)
    (path : ctx.path = other.path) (query : ctx.query = other.query)
    (arguments : NameMap String) :
    (∃ failure, fragment.bindLanguage languages ctx arguments = .error failure ∧
        fragment.bindLanguage languages other arguments = .error failure) ∨
      ∃ inner language rest,
        fragment.bindLanguage languages ctx arguments = .ok (inner, rest) ∧
        fragment.bindLanguage languages other arguments =
          .ok ({ inner with metadata := other.metadata, language }, rest) ∧
        inner.metadata = ctx.metadata ∧
        (fragment.usesLanguage = true → language = inner.language) := by
  have fullPath : ctx.fullPath = other.fullPath := by
    unfold RequestContext.fullPath
    rw [path, query]
  unfold bindLanguage
  split
  · next bound =>
    split
    · exact Or.inl ⟨_, rfl, by rw [path]; rfl⟩
    · next language given =>
      split
      · right
        refine ⟨_, some language, _, rfl, ?_, rfl, fun _ => rfl⟩
        rw [path, query]
      · exact Or.inl ⟨_, rfl, by rw [fullPath]; rfl⟩
  · next free =>
    right
    refine ⟨_, other.language, _, rfl, ?_, rfl, fun bound => absurd bound free⟩
    rw [path, query]

def finish (fragment : Fragment) (caches : CacheSet) (ctx : RequestContext)
    (arguments : NameMap String) (backend : Backend)
    (answer : Except Failure String × RequestContext) : Rendering :=
  let inner := if fragment.usesLanguage then { answer.2 with language := ctx.language } else answer.2
  match answer.1 with
  | .error failure => ⟨.error failure, inner, backend⟩
  | .ok output =>
    let checked := fragment.check inner arguments
    let after := checked.2.1
    let backend := { backend with warnings := backend.warnings ++ checked.2.2 }
    match checked.1 with
    | .error failure => ⟨.error failure, after, backend⟩
    | .ok () =>
      ⟨.ok output, { after with needed := {} },
        { backend with shelf := caches.put after.path output fragment.timeout backend.shelf }⟩

theorem render_eq_finish {inner : RequestContext} {rest : NameMap String}
    (found : fragment.bindLanguage languages ctx arguments = .ok (inner, rest)) :
    fragment.render languages caches ctx arguments backend =
      fragment.finish caches ctx rest backend (fragment.view inner rest) := by
  unfold render
  rw [found]
  rfl

theorem finish_alike (fragment : Fragment) (caches : CacheSet) (ctx other : RequestContext)
    (arguments : NameMap String) (backend : Backend)
    {answer reply : Except Failure String × RequestContext} (same : answer.1 = reply.1)
    (alike : answer.2.Alike reply.2) :
    (fragment.finish caches ctx arguments backend answer).SameEffect
      (fragment.finish caches other arguments backend reply) := by
  have restored : (if fragment.usesLanguage = true then
      { answer.2 with language := ctx.language } else answer.2).Alike
      (if fragment.usesLanguage = true then
        { reply.2 with language := other.language } else reply.2) := by
    split <;> exact ⟨alike.path, alike.needed⟩
  obtain ⟨checked, kept, warnings⟩ := fragment.check_alike restored arguments
  unfold finish
  dsimp only
  rw [same, checked, kept.path, warnings]
  cases reply.1 with
  | error failure => exact ⟨rfl, rfl⟩
  | ok content =>
    dsimp only
    generalize (fragment.check _ arguments).1 = outcome
    cases outcome <;> exact ⟨rfl, rfl⟩

def AnswersAlike (fragment : Fragment) (arguments : NameMap String) (ctx other : RequestContext) :
    Prop :=
  (fragment.view ctx arguments).1 = (fragment.view other arguments).1 ∧
    (fragment.view ctx arguments).2.Alike (fragment.view other arguments).2

/-- The view neither looks at the metadata nor at a language that is not bound. -/
def Secluded (fragment : Fragment) : Prop :=
  ∀ (ctx : RequestContext) metadata language arguments,
    (fragment.usesLanguage = true → language = ctx.language) →
    fragment.AnswersAlike arguments ctx { ctx with metadata, language }

theorem render_alike (caches : CacheSet) (backend : Backend)
    (path : ctx.path = other.path) (query : ctx.query = other.query)
    (answers : ∀ (inner : RequestContext) language rest, inner.metadata = ctx.metadata →
      (fragment.usesLanguage = true → language = inner.language) →
      fragment.AnswersAlike rest inner { inner with metadata := other.metadata, language }) :
    (fragment.render languages caches ctx arguments backend).SameEffect
      (fragment.render languages caches other arguments backend) := by
  rcases fragment.bindLanguage_alike languages path query arguments with
    ⟨failure, left, right⟩ | ⟨inner, language, rest, left, right, metadata, bound⟩
  · unfold render
    rw [left, right]
    exact ⟨rfl, rfl⟩
  · obtain ⟨same, alike⟩ := answers inner language rest metadata bound
    rw [render_eq_finish left, render_eq_finish right]
    exact fragment.finish_alike caches ctx other rest backend same alike

end Fragment

namespace Router
variable {router : Router} {ctx other : RequestContext}

/-- Whatever the two requests include, and whatever the caches hold, it has the same effect. -/
def Indifferent (router : Router) (ctx other : RequestContext) : Prop :=
  ∀ location backend, (router.dispatch (ctx.atLocation location) backend).SameEffect
    (router.dispatch (other.atLocation location) backend)

def LanguageBound (router : Router) : Prop :=
  ∀ route ∈ router.routes, route.fragment.usesLanguage = true

theorem indifferent_of_answers
    (answers : ∀ route ∈ router.routes, ∀ (inner : RequestContext) language arguments,
      inner.metadata = ctx.metadata →
      (route.fragment.usesLanguage = true → language = inner.language) →
      route.fragment.AnswersAlike arguments inner
        { inner with metadata := other.metadata, language }) :
    router.Indifferent ctx other := by
  intro location backend
  have path : (ctx.atLocation location).path = (other.atLocation location).path := rfl
  have query : (ctx.atLocation location).query = (other.atLocation location).query := rfl
  unfold dispatch
  rw [path]
  cases found : router.resolve? (other.atLocation location).path with
  | none => exact ⟨rfl, rfl⟩
  | some served =>
    obtain ⟨fragment, arguments⟩ := served
    obtain ⟨route, member, rfl⟩ := exists_route_of_resolve? found
    exact Fragment.render_alike router.caches backend path query (answers route member)

theorem indifferent_of_secluded (secluded : ∀ route ∈ router.routes, route.fragment.Secluded)
    (ctx other : RequestContext) : router.Indifferent ctx other := by
  apply indifferent_of_answers
  intro route member inner language arguments _ given
  exact secluded route member inner other.metadata language arguments given

def revealing (shown : RequestContext → Option String) : View :=
  fun ctx _ => ((shown ctx).elim (fail (.includeNotFound ctx.path)) .ok, ctx)

def serving (view : View) (usesLanguage : Bool) : Router where
  languages := ["en"]
  routes := [⟨"", [.param Fragment.languageArgument], { view, usesLanguage }⟩]

def handed (ctx : RequestContext) (usesLanguage : Bool) : RequestContext :=
  let language := if usesLanguage then some "en" else ctx.language
  { path := "en", metadata := ctx.metadata, language }

theorem revealing_outcome (shown : RequestContext → Option String) (usesLanguage : Bool)
    (ctx : RequestContext) (backend : Backend) :
    ((serving (revealing shown) usesLanguage).dispatch (ctx.atLocation "en") backend).outcome =
      (shown (handed ctx usesLanguage)).elim (fail (.includeNotFound "en")) .ok := by
  have place : ctx.atLocation "en" = { ctx with path := "en", query := "", needed := {} } := by
    have split : splitLocation "en" = ("en", "") := by decide
    unfold RequestContext.atLocation
    rw [split]
  have parts : segmentsOf "en" = ["en"] := by decide
  have found : (serving (revealing shown) usesLanguage).resolve? "en" =
      some ({ view := revealing shown, usesLanguage }, .insert {} Fragment.languageArgument "en") := by
    simp [resolve?, serving, Route.matches?, Route.matchSegments, parts]
  have bound : ∃ rest, Fragment.bindLanguage { view := revealing shown, usesLanguage }
      (serving (revealing shown) usesLanguage).languages
      { ctx with path := "en", query := "", needed := {} }
      (.insert {} Fragment.languageArgument "en") = .ok (handed ctx usesLanguage, rest) := by
    cases usesLanguage <;> exact ⟨_, rfl⟩
  obtain ⟨rest, bound⟩ := bound
  unfold dispatch
  rw [place]
  dsimp only
  rw [found]
  dsimp only
  rw [Fragment.render_eq_finish bound]
  unfold Fragment.finish
  dsimp only [revealing]
  cases shown (handed ctx usesLanguage) with
  | none => rfl
  | some text => cases usesLanguage <;> rfl

theorem Indifferent.shown {shown : RequestContext → Option String} {usesLanguage : Bool}
    (indifferent : (serving (revealing shown) usesLanguage).Indifferent ctx other) :
    shown (handed ctx usesLanguage) = shown (handed other usesLanguage) := by
  obtain ⟨same, _⟩ := indifferent "en" {}
  rw [revealing_outcome, revealing_outcome] at same
  generalize shown (handed ctx usesLanguage) = left at same ⊢
  generalize shown (handed other usesLanguage) = right at same ⊢
  cases left <;> cases right <;> cases same <;> rfl

theorem serving_languageBound (view : View) : (serving view true).LanguageBound := by
  intro route member
  rw [List.mem_singleton.1 member]

end Router

open Router

/-- Fragments that may look at whatever they are handed are indifferent to the request around them
exactly if it has the same metadata and the same language; with the language in every address
the metadata are still seen. The address itself and the variables used so far make no
difference, and fragments that look at neither metadata nor an unbound language do not
tell any two requests apart. -/
theorem include_indifferent_iff (ctx other : RequestContext) :
    ((∀ router : Router, router.Indifferent ctx other) ↔
      ctx.metadata = other.metadata ∧ ctx.language = other.language) ∧
    ((∀ router : Router, router.LanguageBound → router.Indifferent ctx other) ↔
      ctx.metadata = other.metadata) ∧
    ∀ router : Router, (∀ route ∈ router.routes, route.fragment.Secluded) →
      router.Indifferent ctx other := by
  have metadata_seen : (∀ router : Router, router.LanguageBound → router.Indifferent ctx other) →
      ctx.metadata = other.metadata := by
    intro indifferent
    apply NameMap.ext_get?
    intro name
    exact (indifferent _ (serving_languageBound (revealing (·.metadata.get? name)))).shown
  refine ⟨⟨?_, ?_⟩, ⟨metadata_seen, ?_⟩, ?_⟩
  · intro indifferent
    refine ⟨metadata_seen fun router _ => indifferent router, ?_⟩
    exact (indifferent (serving (revealing (·.language)) false)).shown
  · rintro ⟨metadata, language⟩ router location backend
    have same : ctx.atLocation location = other.atLocation location := by
      unfold RequestContext.atLocation
      rw [metadata, language]
    rw [same]
    exact ⟨rfl, rfl⟩
  · intro metadata router bound
    apply indifferent_of_answers
    intro route member inner language arguments kept given
    rw [given (bound route member), ← metadata, ← kept]
    exact ⟨rfl, rfl, rfl⟩
  · exact fun router secluded => indifferent_of_secluded secluded ctx other

namespace Quotes

def greetingView : View := fun ctx _ =>
  (.ok ("Hello " ++ (ctx.metadata.get? "user").getD "-"), ctx)

def greeter : Router :=
  ({ languages := ["en"], caches := ⟨[("slow", 0)]⟩ } : Router).addRoute "w" "/\x7blang\x7d/w/"
    { view := greetingView }

def stranger : RequestContext := { path := "/" }

def ann : RequestContext := { stranger with metadata := .ofList [("user", "ann")] }

end Quotes

/-- The greeting of one user is kept for all who come later. -/
theorem greeting_reveals_user :
    (Quotes.greeter.dispatch (Quotes.stranger.atLocation "/en/w/") {}).outcome = .ok "Hello -" ∧
      (Quotes.greeter.dispatch (Quotes.ann.atLocation "/en/w/") {}).outcome = .ok "Hello ann" ∧
      (Quotes.greeter.sources.lookup "/en/w/" (Quotes.greeter.dispatch
        (Quotes.ann.atLocation "/en/w/") { shelf := { stores := [{}] } }).backend).1 =
          some "Hello ann" := by
  decide

end TwoPhase
