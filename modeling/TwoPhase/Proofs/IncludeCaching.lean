import Mathlib.Logic.Relation
import TwoPhase.Proofs.FragmentRendering

/-
Which includes are rendered only once. A dispatch writes its output under the path it ends at, which
is without the query; an include is looked up by the whole of what it says. The two keys are the
same for includes without a query, and these are answered from the stores from then on, as long
as nobody flushes, deletes or overwrites the entry.
-/
namespace TwoPhase

theorem Fragment.render_backend (fragment : Fragment) (languages : List String) (caches : CacheSet)
    (ctx : RequestContext) (arguments : NameMap String) (backend other : Backend) :
    (fragment.render languages caches ctx arguments backend).outcome =
        (fragment.render languages caches ctx arguments other).outcome ∧
      (fragment.render languages caches ctx arguments backend).ctx =
        (fragment.render languages caches ctx arguments other).ctx := by
  cases found : fragment.bindLanguage languages ctx arguments with
  | error failure =>
    rw [render_eq_error found, render_eq_error found]
    exact ⟨rfl, rfl⟩
  | ok handed =>
    obtain ⟨inner, rest⟩ := handed
    rw [render_eq_finish found, render_eq_finish found]
    unfold finish
    cases (fragment.view inner rest).1 with
    | error failure => exact ⟨rfl, rfl⟩
    | ok output =>
      dsimp only
      cases (fragment.check _ rest).1 <;> exact ⟨rfl, rfl⟩

namespace Router
variable {router : Router} {ctx : RequestContext} {backend : Backend} {path raw : String}

/-- The key under which a dispatch leaves its output, if it succeeds. -/
def writtenKey? (router : Router) (ctx : RequestContext) : Option String :=
  (router.dispatch ctx {}).outcome.toOption.map fun _ => (router.dispatch ctx {}).ctx.path

theorem dispatch_backend (router : Router) (ctx : RequestContext) (backend other : Backend) :
    (router.dispatch ctx backend).outcome = (router.dispatch ctx other).outcome ∧
      (router.dispatch ctx backend).ctx = (router.dispatch ctx other).ctx := by
  unfold dispatch
  cases router.resolve? ctx.path with
  | none => exact ⟨rfl, rfl⟩
  | some served => exact served.1.render_backend _ _ ctx served.2 backend other

theorem writtenKey?_of_ok (rendered : (router.dispatch ctx backend).outcome = .ok raw) :
    router.writtenKey? ctx = some (router.dispatch ctx backend).ctx.path := by
  obtain ⟨outcome, after⟩ := router.dispatch_backend ctx backend {}
  unfold writtenKey?
  rw [← outcome, ← after, rendered]
  rfl

theorem dispatch_cases (router : Router) (ctx : RequestContext) (backend : Backend) :
    (∃ failure, (router.dispatch ctx backend).outcome = .error failure ∧
        (router.dispatch ctx backend).backend.shelf = backend.shelf) ∨
      ∃ output, ∃ route ∈ router.routes, (router.dispatch ctx backend).outcome = .ok output ∧
        (router.dispatch ctx backend).backend.shelf = router.caches.put
          (router.dispatch ctx backend).ctx.path output route.fragment.timeout backend.shelf := by
  unfold dispatch
  cases found : router.resolve? ctx.path with
  | none => exact Or.inl ⟨_, rfl, rfl⟩
  | some served =>
    obtain ⟨fragment, arguments⟩ := served
    obtain ⟨route, member, rfl⟩ := exists_route_of_resolve? found
    have written := route.fragment.render_writes router.languages router.caches ctx arguments backend
    dsimp only
    cases outcome : (route.fragment.render router.languages router.caches ctx arguments
        backend).outcome with
    | error failure =>
      rw [outcome] at written
      exact Or.inl ⟨failure, rfl, written⟩
    | ok output =>
      rw [outcome] at written
      exact Or.inr ⟨output, route, member, rfl, written⟩

theorem dispatch_path (keepsPath : ∀ route ∈ router.routes, route.fragment.KeepsPath) :
    (router.dispatch ctx backend).ctx.path = ctx.path := by
  unfold dispatch
  cases found : router.resolve? ctx.path with
  | none => rfl
  | some served =>
    obtain ⟨fragment, arguments⟩ := served
    obtain ⟨route, member, rfl⟩ := exists_route_of_resolve? found
    exact (route.fragment.render_leaves ..).path (keepsPath route member)

theorem dispatch_keeps (elsewhere : router.writtenKey? ctx ≠ some path) :
    Shelf.Keeps path backend.shelf (router.dispatch ctx backend).backend.shelf := by
  rcases router.dispatch_cases ctx backend with ⟨_, _, left⟩ | ⟨_, _, _, outcome, written⟩
  · rw [left]
    exact Shelf.Keeps.refl path backend.shelf
  · rw [writtenKey?_of_ok outcome] at elsewhere
    rw [written]
    exact router.caches.put_keeps _ (fun same => elsewhere (congrArg some same)) _ _

def Spares (router : Router) (path : String) : Visit → Prop
  | .lookup _ _ => True
  | .dispatch _ ctx => router.writtenKey? ctx ≠ some path

/-- One thing that may happen while nothing is flushed, deleted or overwritten under a path. -/
inductive Sparing (router : Router) (path : String) : Backend → Backend → Prop where
  | read (backend : Backend) (position : Nat) (key : String) :
      Sparing router path backend { backend with shelf := (backend.shelf.get position key).2 }
  | write (backend : Backend) (position : Nat) {key : String} (differs : key ≠ path)
      (content : String) (timeout : Option Nat) : Sparing router path backend
        { backend with shelf := backend.shelf.put position key content timeout }
  | delete (backend : Backend) (position : Nat) {keys : List String} (absent : path ∉ keys) :
      Sparing router path backend { backend with shelf := backend.shelf.delete position keys }
  | lookup (backend : Backend) (location : String) :
      Sparing router path backend (router.sources.lookup location backend).2
  | dispatch (backend : Backend) {ctx : RequestContext}
      (elsewhere : router.writtenKey? ctx ≠ some path) :
      Sparing router path backend (router.sources.dispatch ctx backend).2
  | document (backend : Backend) (verbose : Bool) (maxDepth : Nat) (ctx : RequestContext)
      (text : String) (spares : ∀ visit ∈ ((router.evaluator verbose maxDepth).evaluateDocument ctx
        text backend).2.visits, router.Spares path visit) : Sparing router path backend
        ((router.evaluator verbose maxDepth).evaluateDocument ctx text backend).2.shared

def Undisturbed (router : Router) (path : String) : Backend → Backend → Prop :=
  Relation.ReflTransGen (router.Sparing path)

end Router

namespace Evaluator
open Evaluation
variable {σ α : Type} {holds : Session σ → Prop}

def Upholds (holds : Session σ → Prop) (session other : Session σ) : Prop :=
  session = other ∧ holds session

theorem relates_of_upholds {step : Evaluation σ α}
    (kept : ∀ session, holds session → holds (step.run.run session).2) :
    Relates (Upholds holds) Eq step step := by
  rintro session other ⟨rfl, held⟩
  exact ⟨ends_eq_iff.2 rfl, rfl, kept session held⟩

section Passes
variable (evaluator : Evaluator σ)
  (binds : ∀ session name value, holds session →
    holds { session with bindings := session.bindings.insert name value })
include binds

theorem passes_uphold {included : List Char → Evaluation σ (List Char)}
    (each : ∀ path, Relates (Upholds holds) Eq (included path) (included path))
    (text : List Char) : Relates (Upholds holds) Eq (evaluator.passes included text)
      (evaluator.passes included text) := by
  have bindings : ∀ session other, Upholds holds session other →
      session.bindings = other.bindings := fun _ _ both => congrArg Session.bindings both.1
  unfold passes
  refine Relates.bind (.replaceAll _ ?_ text) fun text _ same => ?_
  · intro form
    have bound : Relates (Upholds holds) Eq (Evaluation.bind (String.ofList form.name)
        (String.ofList (Directive.unescapeChars form.value))) (Evaluation.bind _ _) :=
      relates_of_upholds fun session => binds session _ _
    exact bound.bind fun _ _ _ => .pure rfl
  subst same
  refine Relates.bind (.replaceAll _ ?_ text) fun text _ same => ?_
  · intro name
    refine (Relates.lookup bindings _ name).bind fun value _ same => ?_
    exact .pure (congrArg _ same)
  subst same
  refine Relates.bind (.replaceAll _ ?_ text) fun text _ same => ?_
  · intro form
    refine (Relates.fillIn bindings _ _).bind fun expression _ same => ?_
    subst same
    exact .pure rfl
  subst same
  refine .replaceAll _ ?_ text
  intro form
  refine (Relates.fillIn bindings _ _).bind fun path _ same => ?_
  subst same
  refine (each path).bind fun content _ same => ?_
  exact .pure (congrArg _ same)

theorem evaluate_upholds (ctx : RequestContext)
    (fetched : ∀ level path session, holds session →
      holds ((evaluator.fetch ctx level path).run.run session).2)
    (levels : Nat) (text : List Char) : Relates (Upholds holds) Eq
      (evaluator.evaluate ctx levels text) (evaluator.evaluate ctx levels text) := by
  induction levels generalizing text with
  | zero => exact evaluator.passes_uphold binds (fun _ => .fail _) text
  | succ levels ih =>
    refine evaluator.passes_uphold binds (fun path => ?_) text
    refine (relates_of_upholds (fetched _ _)).bind fun raw _ same => ?_
    subst same
    exact ih raw.toList

end Passes
end Evaluator

namespace Router
variable {router : Router} {ctx : RequestContext} {before after : Backend} {path raw : String}

/-- If nothing was written under the path so far, the entries are those of the start. -/
def Tracked (router : Router) (path : String) (start : Shelf) (session : Session Backend) : Prop :=
  (∀ visit ∈ session.visits, router.Spares path visit) →
    Shelf.Keeps path start session.shared.shelf

theorem fetch_tracked {start : Shelf} {session : Session Backend} (verbose : Bool)
    (maxDepth level : Nat) (location : String) (tracked : router.Tracked path start session) :
    router.Tracked path start
      (((router.evaluator verbose maxDepth).fetch ctx level location).run.run session).2 := by
  have looked : Shelf.Keeps path session.shared.shelf
      ((router.evaluator verbose maxDepth).sources.lookup location session.shared).2.shelf :=
    CacheSet.getFrom_keeps router.caches.members session.shared.shelf location path
  rw [Evaluation.run_fetch]
  generalize (router.evaluator verbose maxDepth).sources.lookup location session.shared = answer
    at looked ⊢
  obtain ⟨hit, shared⟩ := answer
  cases hit with
  | some cached =>
    intro spares
    have earlier := tracked fun visit member => spares visit (List.mem_append_left _ member)
    exact earlier.trans looked
  | none =>
    intro spares
    dsimp only at spares
    rw [List.append_assoc] at spares
    have earlier := tracked fun visit member => spares visit (List.mem_append_left _ member)
    have elsewhere : router.writtenKey? (ctx.atLocation location) ≠ some path :=
      spares (.dispatch level (ctx.atLocation location)) (List.mem_append_right _ (by simp))
    exact (earlier.trans looked).trans (dispatch_keeps elsewhere)

theorem Sparing.keeps (sparing : router.Sparing path before after) :
    Shelf.Keeps path before.shelf after.shelf := by
  cases sparing with
  | read position key => exact before.shelf.get_keeps position key path
  | write position differs content timeout =>
    exact before.shelf.put_keeps position differs content timeout
  | delete position absent => exact before.shelf.delete_keeps position absent
  | lookup location => exact CacheSet.getFrom_keeps router.caches.members before.shelf location path
  | dispatch elsewhere => exact dispatch_keeps elsewhere
  | document verbose maxDepth ctx text spares =>
    -- Along the run only what was asked so far is known to spare the path, so this is carried.
    have upheld : Evaluation.Relates (Evaluator.Upholds (router.Tracked path before.shelf)) Eq
        ((router.evaluator verbose maxDepth).evaluate ctx maxDepth text.toList)
        ((router.evaluator verbose maxDepth).evaluate ctx maxDepth text.toList) :=
      Evaluator.evaluate_upholds _ (fun _ _ _ tracked => tracked) ctx
        (fun level location _ tracked => fetch_tracked verbose maxDepth level location tracked)
        maxDepth text.toList
    have start : router.Tracked path before.shelf { shared := before } :=
      fun _ => Shelf.Keeps.refl path before.shelf
    obtain ⟨_, _, tracked⟩ := upheld { shared := before } _ ⟨rfl, start⟩
    exact tracked spares

theorem Undisturbed.keeps (undisturbed : router.Undisturbed path before after) :
    Shelf.Keeps path before.shelf after.shelf := by
  induction undisturbed with
  | refl => exact Shelf.Keeps.refl path before.shelf
  | tail _ sparing ih => exact ih.trans sparing.keeps

/-- The stores answer an include with the text, and no view runs. -/
def AnswersFromStores (router : Router) (path raw : String) (backend : Backend) : Prop :=
  ∀ verbose maxDepth ctx level (session : Session Backend), session.shared = backend →
    ∃ shared, ((router.evaluator verbose maxDepth).fetch ctx level path).run.run session =
      (.ok raw, { session with visits := session.visits ++ [.lookup level path], shared })

/-- An include is dispatched. -/
def Rerenders (router : Router) (path : String) (backend : Backend) : Prop :=
  ∀ verbose maxDepth ctx level (session : Session Backend), session.shared = backend →
    (((router.evaluator verbose maxDepth).fetch ctx level path).run.run session).2.visits =
      session.visits ++ [.lookup level path, .dispatch level (ctx.atLocation path)]

theorem lookup_eq (router : Router) (verbose : Bool) (maxDepth : Nat) (path : String)
    (backend : Backend) : (router.evaluator verbose maxDepth).sources.lookup path backend =
      ((router.caches.get path backend.shelf).1,
        { backend with shelf := (router.caches.get path backend.shelf).2 }) :=
  rfl

theorem answersFromStores_iff : router.AnswersFromStores path raw before ↔
    (router.caches.get path before.shelf).1 = some raw := by
  constructor
  · intro answers
    obtain ⟨shared, fetched⟩ := answers false 0 { path } 0 { shared := before } rfl
    rw [Evaluation.run_fetch, lookup_eq] at fetched
    generalize router.caches.get path before.shelf = answer at fetched ⊢
    obtain ⟨hit, shelf⟩ := answer
    cases hit with
    | some content =>
      have same : Except.ok content = .ok raw := congrArg Prod.fst fetched
      cases same
      rfl
    | none =>
      have visits := congrArg (fun run => run.2.visits) fetched
      cases visits
  · rintro hit verbose maxDepth ctx level session rfl
    rw [Evaluation.run_fetch, lookup_eq, hit]
    exact ⟨_, rfl⟩

theorem rerenders_of_absent (absent : (router.caches.get path before.shelf).1 = none) :
    router.Rerenders path before := by
  rintro verbose maxDepth ctx level session rfl
  rw [Evaluation.run_fetch, lookup_eq, absent]
  exact List.append_assoc _ _ _

section Rendered
variable {session last : Session Backend} {verbose : Bool} {maxDepth level : Nat}
  (rendered : ((router.evaluator verbose maxDepth).fetch ctx level path).run.run session =
    (.ok raw, last))
  (dispatched : last.visits =
    session.visits ++ [.lookup level path, .dispatch level (ctx.atLocation path)])
include rendered dispatched

theorem fetch_dispatched : (router.caches.get path session.shared.shelf).1 = none ∧
    ∃ missed : Backend, missed.shelf = (router.caches.get path session.shared.shelf).2 ∧
      (router.dispatch (ctx.atLocation path) missed).outcome = .ok raw ∧
      last.shared = (router.dispatch (ctx.atLocation path) missed).backend := by
  rw [Evaluation.run_fetch, lookup_eq] at rendered
  generalize router.caches.get path session.shared.shelf = answer at rendered ⊢
  obtain ⟨hit, shelf⟩ := answer
  cases hit with
  | some content =>
    have left := congrArg (fun run => run.2.visits) rendered
    simp [dispatched] at left
  | none =>
    have served : ∀ missed, (router.evaluator verbose maxDepth).sources.dispatch
        (ctx.atLocation path) missed = ((router.dispatch (ctx.atLocation path) missed).outcome,
          (router.dispatch (ctx.atLocation path) missed).backend) := fun _ => rfl
    refine ⟨rfl, { session.shared with shelf }, rfl, ?_⟩
    simp only [served] at rendered
    obtain ⟨outcome, rfl⟩ := Prod.mk.inj rendered
    generalize router.dispatch (ctx.atLocation path) { session.shared with shelf } = rendering
      at outcome ⊢
    cases found : rendering.outcome with
    | error failure =>
      rw [found] at outcome
      cases outcome
    | ok content =>
      rw [found] at outcome
      exact ⟨outcome, rfl⟩

theorem entries_of_own_key (endless : ∀ route ∈ router.routes, route.fragment.timeout = none)
    (unlimited : ∀ store ∈ session.shared.shelf.stores, store.defaultTimeout = none)
    (own : router.writtenKey? (ctx.atLocation path) = some path) :
    ∀ member ∈ router.caches.members,
      last.shared.shelf.kept? member.2 path =
        session.shared.shelf.stores[member.2]?.map fun _ => ⟨raw, none⟩ := by
  obtain ⟨_, missed, shelf, outcome, shared⟩ := fetch_dispatched rendered dispatched
  rcases router.dispatch_cases (ctx.atLocation path) missed with
    ⟨_, failed, _⟩ | ⟨output, route, member, rendered, written⟩
  · rw [outcome] at failed
    cases failed
  rw [outcome] at rendered
  cases rendered
  rw [writtenKey?_of_ok outcome] at own
  rw [Option.some.inj own, endless route member, ← shared] at written
  obtain ⟨held, _, _, timeouts⟩ := router.caches.put_published path raw none missed.shelf
  rw [← written, shelf] at held timeouts
  intro member listed
  have read : (router.caches.get path session.shared.shelf).2.stores[member.2]?.map
      Store.defaultTimeout = session.shared.shelf.stores[member.2]?.map Store.defaultTimeout :=
    CacheSet.getFrom_defaultTimeout router.caches.members session.shared.shelf path member.2
  cases there : session.shared.shelf.stores[member.2]? with
  | none =>
    rw [there] at read
    have gone := (timeouts member.2).trans read
    unfold Shelf.kept?
    rw [Option.map_eq_none_iff.1 gone]
    rfl
  | some store =>
    rw [there] at read
    obtain ⟨kept, found, same⟩ := Option.map_eq_some_iff.1 read
    obtain ⟨_, entry⟩ := held member listed kept found
    rw [entry, same, unlimited store (List.mem_of_getElem? there)]
    rfl

theorem entries_of_other_key (other : router.writtenKey? (ctx.atLocation path) ≠ some path) :
    ∀ member ∈ router.caches.members, last.shared.shelf.kept? member.2 path = none := by
  obtain ⟨absent, missed, shelf, _, shared⟩ := fetch_dispatched rendered dispatched
  intro member listed
  have nothing : missed.shelf.kept? member.2 path = none := by
    rw [shelf]
    exact CacheSet.getFrom_missed absent member listed
  rw [shared]
  exact (dispatch_keeps other).absent nothing

theorem found_of_own_key (endless : ∀ route ∈ router.routes, route.fragment.timeout = none)
    (unlimited : ∀ store ∈ session.shared.shelf.stores, store.defaultTimeout = none)
    (stocked : ∃ member ∈ router.caches.members, member.2 < session.shared.shelf.stores.length)
    (own : router.writtenKey? (ctx.atLocation path) = some path)
    (undisturbed : router.Undisturbed path last.shared after) :
    (router.caches.get path after.shelf).1 = some raw := by
  have entries := entries_of_own_key rendered dispatched endless unlimited own
  have kept : ∀ member ∈ router.caches.members, after.shelf.kept? member.2 path =
      session.shared.shelf.stores[member.2]?.map fun _ => ⟨raw, none⟩ := by
    intro member listed
    refine (undisturbed.keeps member.2 ?_).trans (entries member listed)
    intro entry found
    rw [entries member listed] at found
    obtain ⟨_, _, rfl⟩ := Option.map_eq_some_iff.1 found
    rfl
  apply CacheSet.getFrom_found
  · intro member listed entry found
    rw [kept member listed] at found
    obtain ⟨_, _, rfl⟩ := Option.map_eq_some_iff.1 found
    rfl
  · obtain ⟨member, listed, there⟩ := stocked
    refine ⟨member, listed, ?_⟩
    rw [kept member listed, List.getElem?_eq_getElem there]
    simp

theorem missed_of_other_key (other : router.writtenKey? (ctx.atLocation path) ≠ some path)
    (undisturbed : router.Undisturbed path last.shared after) :
    (router.caches.get path after.shelf).1 = none := by
  apply CacheSet.getFrom_absent
  intro member listed
  exact undisturbed.keeps.absent (entries_of_other_key rendered dispatched other member listed)

end Rendered

end Router

/-- Once an include has been dispatched and rendered, with no timeouts anywhere and at least one store
behind the caches, and as long as nothing under its path is flushed, deleted or overwritten, later
includes of the path are all answered from the stores with the same text exactly if the dispatch
wrote under the very path of the include. If it did not, they are all dispatched again. Where no
view changes the path, the dispatch writes there exactly if the include has no query. -/
theorem include_rendered_once_iff {router : Router} {verbose : Bool} {maxDepth : Nat}
    {ctx : RequestContext} {level : Nat} {path raw : String} {session after : Session Backend}
    (endless : ∀ route ∈ router.routes, route.fragment.timeout = none)
    (unlimited : ∀ store ∈ session.shared.shelf.stores, store.defaultTimeout = none)
    (stocked : ∃ member ∈ router.caches.members, member.2 < session.shared.shelf.stores.length)
    (rendered : ((router.evaluator verbose maxDepth).fetch ctx level path).run.run session =
      (.ok raw, after))
    (dispatched : after.visits =
      session.visits ++ [.lookup level path, .dispatch level (ctx.atLocation path)]) :
    ((∀ later, router.Undisturbed path after.shared later →
        router.AnswersFromStores path raw later) ↔
      router.writtenKey? (ctx.atLocation path) = some path) ∧
    (router.writtenKey? (ctx.atLocation path) ≠ some path →
      ∀ later, router.Undisturbed path after.shared later → router.Rerenders path later) ∧
    ((∀ route ∈ router.routes, route.fragment.KeepsPath) →
      (router.writtenKey? (ctx.atLocation path) = some path ↔ '?' ∉ path.toList)) := by
  refine ⟨⟨?_, ?_⟩, ?_, ?_⟩
  · intro answers
    -- The history in which nothing happens is one of those that are promised an answer.
    refine Classical.byContradiction fun other => ?_
    have found := Router.answersFromStores_iff.1 (answers after.shared .refl)
    rw [Router.missed_of_other_key rendered dispatched other .refl] at found
    cases found
  · intro own later undisturbed
    exact Router.answersFromStores_iff.2
      (Router.found_of_own_key rendered dispatched endless unlimited stocked own undisturbed)
  · intro other later undisturbed
    exact Router.rerenders_of_absent
      (Router.missed_of_other_key rendered dispatched other undisturbed)
  · intro keepsPath
    obtain ⟨_, missed, _, outcome, _⟩ := Router.fetch_dispatched rendered dispatched
    rw [Router.writtenKey?_of_ok outcome, Router.dispatch_path keepsPath, Option.some.injEq]
    constructor
    · intro same
      exact same ▸ ctx.atLocation_path_plain path
    · exact ctx.atLocation_path_of_plain

namespace Quotes

def storingRouter : Router := router oneStore

def included (path : String) : Except Failure String × Session Backend :=
  ((storingRouter.evaluator false 16).fetch { path := "/" } 0 path).run.run { shared := emptyShelf }

def firstQuote : String :=
  "<blockquote lang='en'>Simplicity is prerequisite for reliability.</blockquote>"

theorem storingRouter_endless :
    ∀ route ∈ storingRouter.routes, route.fragment.timeout = none := by
  decide

end Quotes

set_option maxRecDepth 4000 in
theorem quote_rendered_once :
    ∃ last, Quotes.included "/en/quote/0/" = (.ok Quotes.firstQuote, last) ∧
      last.visits = [.lookup 0 "/en/quote/0/",
        .dispatch 0 (({ path := "/" } : RequestContext).atLocation "/en/quote/0/")] ∧
      Quotes.storingRouter.AnswersFromStores "/en/quote/0/" Quotes.firstQuote last.shared := by
  have rendered : Quotes.included "/en/quote/0/" =
      (.ok Quotes.firstQuote, (Quotes.included "/en/quote/0/").2) := by
    refine Prod.ext ?_ rfl
    rfl
  have own : Quotes.storingRouter.writtenKey?
      (({ path := "/" } : RequestContext).atLocation "/en/quote/0/") = some "/en/quote/0/" := by
    decide
  obtain ⟨answered, _, _⟩ := include_rendered_once_iff Quotes.storingRouter_endless (by decide)
    ⟨("slow", 0), by decide, by decide⟩ rendered rfl
  exact ⟨_, rendered, rfl, answered.2 own _ .refl⟩

set_option maxRecDepth 4000 in
theorem queried_quote_rendered_again :
    (∀ route ∈ Quotes.storingRouter.routes, route.fragment.timeout = none) ∧
    ∃ last, Quotes.included "/en/quote/0/?page=1" = (.ok Quotes.firstQuote, last) ∧
      last.visits = [.lookup 0 "/en/quote/0/?page=1",
        .dispatch 0 (({ path := "/" } : RequestContext).atLocation "/en/quote/0/?page=1")] ∧
      ¬ Quotes.storingRouter.AnswersFromStores "/en/quote/0/?page=1" Quotes.firstQuote
        last.shared := by
  refine ⟨Quotes.storingRouter_endless, (Quotes.included "/en/quote/0/?page=1").2, ?_, rfl, ?_⟩
  · refine Prod.ext ?_ rfl
    rfl
  · intro answers
    have missed : (Quotes.storingRouter.caches.get "/en/quote/0/?page=1"
        (Quotes.included "/en/quote/0/?page=1").2.shared.shelf).1 = none := by decide
    have found := Router.answersFromStores_iff.1 answers
    rw [missed] at found
    cases found

end TwoPhase
