import Mathlib.Data.List.TakeDrop
import Mathlib.Data.List.TakeWhile
import TwoPhase.Proofs.PairedRuns
import TwoPhase.Quotes

/-
The fragment cache changes no output. Every text that a store keeps, expired or not, is what
dispatching its key gives in any context, because a fragment is determined by its address; and
keys are paths without a query, so that looking up a location with one finds nothing. A run with
caches and a run without are compared step by step: they bind the same values, and where the
first reads a store the second renders.
-/
namespace TwoPhase

section Contents
variable {holds : String → String → Prop}

/-- Every text kept has the property with its key, also one that has expired. -/
def Store.Holds (holds : String → String → Prop) (store : Store) : Prop :=
  ∀ key entry, store.entries.get? key = some entry → holds key entry.content

def Shelf.Holds (holds : String → String → Prop) (shelf : Shelf) : Prop :=
  ∀ store ∈ shelf.stores, store.Holds holds

theorem Store.get_holds {store : Store} (held : store.Holds holds) (now : Nat) (key : String) :
    (store.get now key).2.Holds holds ∧
      ∀ content, (store.get now key).1 = some content → holds key content := by
  unfold get
  split
  · exact ⟨held, by simp⟩
  · next entry found =>
    split
    · refine ⟨?_, by simp⟩
      intro other kept remains
      change (store.entries.erase key).get? other = some kept at remains
      rw [NameMap.get?_erase] at remains
      split at remains
      · cases remains
      · exact held other kept remains
    · refine ⟨held, ?_⟩
      intro content same
      cases same
      exact held key entry found

theorem Store.put_holds {store : Store} (held : store.Holds holds) (now : Nat)
    {key content : String} (new : holds key content) (timeout : Option Nat) :
    (store.put now key content timeout).Holds holds := by
  intro other kept found
  unfold put at found
  rw [NameMap.get?_insert] at found
  split at found
  · next same =>
    cases found
    exact same ▸ new
  · exact held other kept found

namespace Shelf
variable {shelf : Shelf}

theorem update_holds (held : shelf.Holds holds) {store : Store} (new : store.Holds holds)
    (position : Nat) : (shelf.update position store).Holds holds := by
  intro other member
  rcases List.mem_or_eq_of_mem_set member with old | rfl
  · exact held other old
  · exact new

theorem get_holds (held : shelf.Holds holds) (position : Nat) (key : String) :
    (shelf.get position key).2.Holds holds ∧
      ∀ content, (shelf.get position key).1 = some content → holds key content := by
  unfold get
  split
  · exact ⟨held, by simp⟩
  · next store found =>
    have kept := Store.get_holds (held store (List.mem_of_getElem? found)) shelf.now key
    exact ⟨update_holds held kept.1 position, kept.2⟩

theorem put_holds (held : shelf.Holds holds) (position : Nat) {key content : String}
    (new : holds key content) (timeout : Option Nat) :
    (shelf.put position key content timeout).Holds holds := by
  unfold put
  split
  · exact held
  · next store found =>
    exact update_holds held
      (Store.put_holds (held store (List.mem_of_getElem? found)) shelf.now new timeout) position

theorem holds_of_empty (empty : ∀ store ∈ shelf.stores, store.size = 0) : shelf.Holds holds := by
  intro store member key entry found
  have nothing : store.entries.entries = [] := List.length_eq_zero_iff.1 (empty store member)
  unfold NameMap.get? at found
  rw [nothing] at found
  cases found

end Shelf

namespace CacheSet

theorem getFrom_holds (key : String) (members : List (String × Nat)) {shelf : Shelf}
    (held : shelf.Holds holds) : (getFrom key members shelf).2.Holds holds ∧
      ∀ content, (getFrom key members shelf).1 = some content → holds key content := by
  induction members generalizing shelf with
  | nil => exact ⟨held, by simp [getFrom]⟩
  | cons member members ih =>
    obtain ⟨_, position⟩ := member
    have first := Shelf.get_holds held position key
    unfold getFrom
    generalize shelf.get position key = answer at first ⊢
    obtain ⟨hit, after⟩ := answer
    cases hit with
    | none => exact ih first.1
    | some content => exact first

theorem get_holds (caches : CacheSet) (key : String) {shelf : Shelf} (held : shelf.Holds holds) :
    (caches.get key shelf).2.Holds holds ∧
      ∀ content, (caches.get key shelf).1 = some content → holds key content :=
  getFrom_holds key caches.members held

theorem put_holds (caches : CacheSet) {shelf : Shelf} (held : shelf.Holds holds)
    {key content : String} (new : holds key content) (timeout : Option Nat) :
    (caches.put key content timeout shelf).Holds holds := by
  unfold put
  induction caches.members generalizing shelf with
  | nil => exact held
  | cons member members ih => exact ih (Shelf.put_holds held member.2 new timeout)

end CacheSet
end Contents

section Fragments

/-- What a view gives and which variables it uses follow from the arguments in its address and, if
it is bound to a language, from that. -/
structure Fragment.AddressBound (fragment : Fragment) : Prop where
  keepsPath : ∀ ctx arguments, (fragment.view ctx arguments).2.path = ctx.path
  determined : ∀ (ctx other : RequestContext) arguments, ctx.needed = other.needed →
    (fragment.usesLanguage = true → ctx.language = other.language) →
    (fragment.view ctx arguments).1 = (fragment.view other arguments).1 ∧
      (fragment.view ctx arguments).2.needed = (fragment.view other arguments).2.needed

namespace Fragment
variable {fragment : Fragment} {languages : List String} {ctx other : RequestContext}
  {arguments rest : NameMap String} {caches : CacheSet} {backend : Backend} {content : String}

theorem settle_needed (ctx : RequestContext) (declared : List Variable) :
    (settle ctx declared).1.needed =
      declared.foldl (fun needed v => needed.erase v.identifier) ctx.needed := by
  refine (List.foldl_hom (fun progress : RequestContext × List String => progress.1.needed) ?_).symm
  intro progress v
  obtain ⟨ctx, warnings⟩ := progress
  dsimp only
  unfold VariableSet.erase
  split <;> rfl

theorem settle_path (ctx : RequestContext) (declared : List Variable) :
    (settle ctx declared).1.path = ctx.path := by
  unfold settle
  refine List.foldlRecOn declared _
    (motive := fun progress : RequestContext × List String => progress.1.path = ctx.path) rfl ?_
  intro progress kept v _
  obtain ⟨after, warnings⟩ := progress
  dsimp only
  split <;> exact kept

theorem check_path (fragment : Fragment) (ctx : RequestContext) (arguments : NameMap String) :
    (fragment.check ctx arguments).2.1.path = ctx.path := by
  unfold check
  split
  · rfl
  · dsimp only
    split <;> exact settle_path ctx _

def Covers (fragment : Fragment) (arguments : NameMap String) (needed : VariableSet) : Prop :=
  ∃ declared, fragment.declared (arguments.map fun _ text => Arg.str text) = .ok declared ∧
    (declared.foldl (fun needed v => needed.erase v.identifier) needed).isEmpty = true

theorem check_ok_iff :
    (fragment.check ctx arguments).1 = .ok () ↔ fragment.Covers arguments ctx.needed := by
  unfold check Covers
  cases known : fragment.declared (arguments.map fun _ text => Arg.str text) with
  | error failure => simp
  | ok declared =>
    simp only [Except.ok.injEq, exists_eq_left', ← settle_needed]
    cases (settle ctx declared).1.needed.isEmpty <;> simp [fail]

theorem bindLanguage_path {inner : RequestContext}
    (found : fragment.bindLanguage languages ctx arguments = .ok (inner, rest)) :
    inner.path = ctx.path := by
  unfold bindLanguage at found
  split at found
  · split at found
    · cases found
    · split at found
      · cases found
        rfl
      · cases found
  · cases found
    rfl

theorem bindLanguage_other {inner : RequestContext}
    (found : fragment.bindLanguage languages ctx arguments = .ok (inner, rest))
    (other : RequestContext) :
    ∃ outer, fragment.bindLanguage languages other arguments = .ok (outer, rest) ∧
      outer.needed = inner.needed ∧
      (fragment.usesLanguage = true → outer.language = inner.language) := by
  unfold bindLanguage at found ⊢
  split at found
  · next bound =>
    rw [if_pos bound]
    split at found
    · cases found
    · next language given =>
      split at found
      · next known =>
        cases found
        simp [known]
      · cases found
  · next free =>
    cases found
    rw [if_neg free]
    exact ⟨_, rfl, rfl, fun bound => absurd bound free⟩

def output (fragment : Fragment) (languages : List String) (ctx : RequestContext)
    (arguments : NameMap String) : Except Failure String :=
  (fragment.render languages {} ctx arguments {}).outcome

theorem render_outcome : (fragment.render languages caches ctx arguments backend).outcome =
    fragment.output languages ctx arguments := by
  unfold output render
  cases fragment.bindLanguage languages ctx arguments with
  | error failure => rfl
  | ok answer =>
    obtain ⟨inner, rest⟩ := answer
    dsimp only
    cases (fragment.view inner rest).1 with
    | error failure => rfl
    | ok content =>
      dsimp only
      generalize fragment.check _ rest = checked
      obtain ⟨outcome, after, warnings⟩ := checked
      cases outcome <;> rfl

theorem output_ok_iff : fragment.output languages ctx arguments = .ok content ↔
    ∃ inner rest, fragment.bindLanguage languages ctx arguments = .ok (inner, rest) ∧
      (fragment.view inner rest).1 = .ok content ∧
      fragment.Covers rest (fragment.view inner rest).2.needed := by
  unfold output render
  cases bound : fragment.bindLanguage languages ctx arguments with
  | error failure => simp
  | ok answer =>
    obtain ⟨inner, rest⟩ := answer
    simp only [Except.ok.injEq, Prod.mk.injEq, exists_and_left, exists_eq_left', and_assoc]
    cases viewed : (fragment.view inner rest).1 with
    | error failure => simp
    | ok held =>
      have covers : ∀ after : RequestContext, after.needed = (fragment.view inner rest).2.needed →
          ((fragment.check after rest).1 = .ok () ↔
            fragment.Covers rest (fragment.view inner rest).2.needed) := by
        intro after same
        rw [check_ok_iff, same]
      dsimp only
      rw [← covers (if fragment.usesLanguage = true then
        { (fragment.view inner rest).2 with language := ctx.language }
        else (fragment.view inner rest).2) (by split <;> rfl)]
      generalize fragment.check _ rest = checked
      obtain ⟨outcome, after, warnings⟩ := checked
      cases outcome <;> simp

theorem render_shelf (bound : fragment.AddressBound) :
    (fragment.render languages caches ctx arguments backend).backend.shelf =
      match fragment.output languages ctx arguments with
      | .ok content => caches.put ctx.path content fragment.timeout backend.shelf
      | .error _ => backend.shelf := by
  unfold output render
  cases found : fragment.bindLanguage languages ctx arguments with
  | error failure => rfl
  | ok answer =>
    obtain ⟨inner, rest⟩ := answer
    have viewedAt : (fragment.view inner rest).2.path = ctx.path :=
      (bound.keepsPath inner rest).trans (bindLanguage_path found)
    dsimp only
    cases (fragment.view inner rest).1 with
    | error failure => rfl
    | ok content =>
      have checkedAt : ∀ after : RequestContext, after.path = (fragment.view inner rest).2.path →
          (fragment.check after rest).2.1.path = ctx.path := by
        intro after same
        rw [check_path, same, viewedAt]
      have kept := checkedAt (if fragment.usesLanguage = true then
        { (fragment.view inner rest).2 with language := ctx.language }
        else (fragment.view inner rest).2) (by split <;> rfl)
      dsimp only
      generalize fragment.check _ rest = checked at kept ⊢
      obtain ⟨outcome, after, warnings⟩ := checked
      cases outcome with
      | error failure => rfl
      | ok _ => exact congrArg (caches.put · content fragment.timeout backend.shelf) kept

theorem output_ok_of_path (bound : fragment.AddressBound)
    (rendered : fragment.output languages ctx arguments = .ok content) :
    fragment.output languages other arguments = .ok content := by
  obtain ⟨inner, rest, found, viewed, covers⟩ := output_ok_iff.1 rendered
  obtain ⟨outer, found', needed, language⟩ := bindLanguage_other found other
  have same := bound.determined outer inner rest needed language
  refine output_ok_iff.2 ⟨outer, rest, found', same.1.trans viewed, ?_⟩
  rw [same.2]
  exact covers

end Fragment
end Fragments

theorem RequestContext.atLocation_path (ctx : RequestContext) (location : String) :
    (ctx.atLocation location).path = String.ofList (location.toList.takeWhile (· ≠ '?')) := by
  unfold atLocation splitLocation
  rw [List.span_eq_takeWhile_dropWhile]

theorem RequestContext.atLocation_path_plain (ctx : RequestContext) (location : String) :
    '?' ∉ (ctx.atLocation location).path.toList := by
  rw [atLocation_path, String.toList_ofList]
  intro member
  exact absurd (List.mem_takeWhile_imp member) (by decide)

theorem RequestContext.atLocation_path_of_plain (ctx : RequestContext) {location : String}
    (plain : '?' ∉ location.toList) : (ctx.atLocation location).path = location := by
  have all : location.toList.takeWhile (· ≠ '?') = location.toList := by
    rw [List.takeWhile_eq_self_iff]
    intro c member
    have differs : c ≠ '?' := fun same => plain (same ▸ member)
    simpa using differs
  rw [atLocation_path, all, String.ofList_toList]

namespace Router
variable {router : Router} {ctx other : RequestContext} {backend : Backend} {content : String}

def uncached (router : Router) : Router := { router with caches := {} }

def AddressBound (router : Router) : Prop := ∀ route ∈ router.routes, route.fragment.AddressBound

theorem exists_route_of_resolve? {path : String} {fragment : Fragment} {arguments : NameMap String}
    (found : router.resolve? path = some (fragment, arguments)) :
    ∃ route ∈ router.routes, route.fragment = fragment := by
  obtain ⟨route, member, matched⟩ := List.exists_of_findSome?_eq_some found
  obtain ⟨_, _, pair⟩ := Option.map_eq_some_iff.1 matched
  cases pair
  exact ⟨route, member, rfl⟩

theorem AddressBound.resolve (bound : router.AddressBound) {path : String} {fragment : Fragment}
    {arguments : NameMap String} (found : router.resolve? path = some (fragment, arguments)) :
    fragment.AddressBound := by
  obtain ⟨route, member, rfl⟩ := exists_route_of_resolve? found
  exact bound route member

theorem dispatch_uncached (router : Router) (ctx : RequestContext) (backend other : Backend) :
    (router.dispatch ctx backend).outcome = (router.uncached.dispatch ctx other).outcome := by
  have same : router.uncached.resolve? ctx.path = router.resolve? ctx.path := rfl
  unfold dispatch
  rw [same]
  cases router.resolve? ctx.path with
  | none => rfl
  | some found => exact Fragment.render_outcome.trans Fragment.render_outcome.symm

theorem dispatch_ok_of_path (bound : router.AddressBound) (other : RequestContext)
    (path : other.path = ctx.path) (backend' : Backend)
    (rendered : (router.dispatch ctx backend).outcome = .ok content) :
    (router.dispatch other backend').outcome = .ok content := by
  unfold dispatch at rendered ⊢
  rw [path]
  cases found : router.resolve? ctx.path with
  | none =>
    rw [found] at rendered
    cases rendered
  | some answer =>
    obtain ⟨fragment, arguments⟩ := answer
    rw [found] at rendered
    have output := Fragment.render_outcome.symm.trans rendered
    exact Fragment.render_outcome.trans (Fragment.output_ok_of_path (bound.resolve found) output)

/-- What the text kept under a key must be. -/
def Serves (router : Router) (key content : String) : Prop :=
  '?' ∉ key.toList ∧ ∀ ctx backend, ctx.path = key →
    (router.dispatch ctx backend).outcome = .ok content

theorem dispatch_holds (bound : router.AddressBound) (held : backend.shelf.Holds router.Serves)
    (plain : '?' ∉ ctx.path.toList) :
    (router.dispatch ctx backend).backend.shelf.Holds router.Serves := by
  cases found : router.resolve? ctx.path with
  | none =>
    unfold dispatch
    rw [found]
    exact held
  | some answer =>
    obtain ⟨fragment, arguments⟩ := answer
    have dispatched : router.dispatch ctx backend =
        fragment.render router.languages router.caches ctx arguments backend := by
      unfold dispatch
      rw [found]
    rw [dispatched, Fragment.render_shelf (bound.resolve found)]
    split
    · next content output =>
      apply CacheSet.put_holds _ held
      refine ⟨plain, fun other backend' path => ?_⟩
      have rendered : (router.dispatch ctx backend).outcome = .ok content := by
        rw [dispatched, Fragment.render_outcome, output]
      exact dispatch_ok_of_path bound other path backend' rendered
    · exact held

end Router

section Shadowing
open Evaluation
variable {α β : Type} {router : Router}

/-- A session with caches and one without that have come to the same point. -/
structure Shadows (router : Router) (session other : Session Backend) : Prop where
  bindings : session.bindings = other.bindings
  served : session.shared.shelf.Holds router.Serves

def Matches (router : Router) (step other : Evaluation Backend α) : Prop :=
  ∀ left right : Session Backend, Shadows router left right →
    (step.run.run left).1 = (other.run.run right).1 ∧
      Shadows router (step.run.run left).2 (other.run.run right).2

theorem matches_iff {step other : Evaluation Backend α} :
    Matches router step other ↔ Relates (Shadows router) Eq step other := by
  unfold Matches Relates
  simp only [ends_eq_iff]

namespace Matches
variable {step other : Evaluation Backend α}

theorem bind {next after : α → Evaluation Backend β} (first : Matches router step other)
    (later : ∀ value, Matches router (next value) (after value)) :
    Matches router (step >>= next) (other >>= after) := by
  refine matches_iff.2 ((matches_iff.1 first).bind fun value _ same => ?_)
  subst same
  exact matches_iff.1 (later value)

theorem pure (value : α) : Matches router (pure value) (pure value) :=
  matches_iff.2 (.pure rfl)

theorem fail (failure : Failure) : Matches (α := α) router (throw failure) (throw failure) :=
  matches_iff.2 (.fail failure)

theorem bindValue (name value : String) :
    Matches router (Evaluation.bind name value) (Evaluation.bind name value) := by
  intro left right shadows
  exact ⟨rfl, congrArg (NameMap.insert · name value) shadows.bindings, shadows.served⟩

theorem lookup (place : String) (name : List Char) :
    Matches router (Evaluation.lookup place name) (Evaluation.lookup place name) :=
  matches_iff.2 (.lookup (fun _ _ => Shadows.bindings) place name)

theorem replaceAll {μ : Type} (pattern : Pattern μ)
    {replace other : μ → Evaluation Backend (List Char)}
    (each : ∀ piece, Matches router (replace piece) (other piece)) (text : List Char) :
    Matches router (Evaluation.replaceAll pattern replace text)
      (Evaluation.replaceAll pattern other text) :=
  matches_iff.2 (.replaceAll pattern (fun piece => matches_iff.1 (each piece)) text)

theorem fillIn (place : String) (text : List Char) :
    Matches router (Evaluation.fillIn place text) (Evaluation.fillIn place text) :=
  matches_iff.2 (.fillIn (fun _ _ => Shadows.bindings) place text)

end Matches

def Router.evaluator (router : Router) (verbose : Bool) (maxDepth : Nat) : Evaluator Backend where
  sources := router.sources
  verbose := verbose
  maxDepth := maxDepth

variable (verbose : Bool) (maxDepth : Nat) (ctx : RequestContext)

theorem passes_match {included other : List Char → Evaluation Backend (List Char)}
    (each : ∀ path, Matches router (included path) (other path)) (text : List Char) :
    Matches router ((router.evaluator verbose maxDepth).passes included text)
      ((router.uncached.evaluator verbose maxDepth).passes other text) := by
  unfold Evaluator.passes
  refine Matches.bind (.replaceAll _ ?_ text) fun text => .bind (.replaceAll _ ?_ text) fun text =>
    .bind (.replaceAll _ ?_ text) fun text => .replaceAll _ ?_ text
  · intro form
    exact (Matches.bindValue _ _).bind fun _ => .pure _
  · intro name
    exact (Matches.lookup _ name).bind fun _ => .pure _
  · intro form
    exact (Matches.fillIn _ _).bind fun _ => .pure _
  · intro form
    exact (Matches.fillIn _ _).bind fun path => (each path).bind fun _ => .pure _

theorem fetch_match (bound : router.AddressBound) (level : Nat) (path : String) :
    Matches router ((router.evaluator verbose maxDepth).fetch ctx level path)
      ((router.uncached.evaluator verbose maxDepth).fetch ctx level path) := by
  intro left right shadows
  have cached := run_fetch (router.evaluator verbose maxDepth) ctx level path left
  have fresh := run_fetch (router.uncached.evaluator verbose maxDepth) ctx level path right
  have missed : (router.uncached.evaluator verbose maxDepth).sources.lookup path right.shared =
      (none, right.shared) := rfl
  have looked : (router.evaluator verbose maxDepth).sources.lookup path left.shared =
      ((router.caches.get path left.shared.shelf).1,
        { left.shared with shelf := (router.caches.get path left.shared.shelf).2 }) := rfl
  have kept := router.caches.get_holds path shadows.served
  rw [cached, fresh, missed, looked]
  generalize router.caches.get path left.shared.shelf = answer at kept ⊢
  obtain ⟨hit, shelf⟩ := answer
  cases hit with
  | some content =>
    -- What the store holds is what the other run renders.
    obtain ⟨plain, rendered⟩ := kept.2 content rfl
    have path_eq := ctx.atLocation_path_of_plain plain
    have dispatched : (router.uncached.dispatch (ctx.atLocation path) right.shared).outcome =
        .ok content := by
      rw [← router.dispatch_uncached _ right.shared]
      exact rendered _ _ path_eq
    have outcome : Except.ok content = inFrame ("Failed to include " ++ path)
        (router.uncached.dispatch (ctx.atLocation path) right.shared).outcome := by
      rw [dispatched]
      rfl
    exact ⟨outcome, shadows.bindings, kept.1⟩
  | none =>
    have plain := ctx.atLocation_path_plain path
    have outcome := router.dispatch_uncached (ctx.atLocation path) { left.shared with shelf }
      right.shared
    have served : ({ left.shared with shelf } : Backend).shelf.Holds router.Serves := kept.1
    exact ⟨congrArg (inFrame ("Failed to include " ++ path)) outcome, shadows.bindings,
      Router.dispatch_holds bound served plain⟩

theorem evaluate_match (bound : router.AddressBound) (levels : Nat) (text : List Char) :
    Matches router ((router.evaluator verbose maxDepth).evaluate ctx levels text)
      ((router.uncached.evaluator verbose maxDepth).evaluate ctx levels text) := by
  induction levels generalizing text with
  | zero => exact passes_match verbose maxDepth (fun _ => .fail _) text
  | succ levels ih =>
    refine passes_match verbose maxDepth (fun path => ?_) text
    exact (fetch_match verbose maxDepth ctx bound _ _).bind fun raw => ih raw.toList

end Shadowing

/-- Whatever was asked before and whenever entries expire, a document comes to what it comes to without
caches, and what the stores keep stays right. -/
theorem evaluateDocument_match {router : Router} (bound : router.AddressBound) (verbose : Bool)
    (maxDepth : Nat) (ctx : RequestContext) (document : String) {backend : Backend}
    (held : backend.shelf.Holds router.Serves) (other : Backend) :
    ((router.evaluator verbose maxDepth).evaluateDocument ctx document backend).1 =
        ((router.uncached.evaluator verbose maxDepth).evaluateDocument ctx document other).1 ∧
      ((router.evaluator verbose maxDepth).evaluateDocument ctx document
        backend).2.shared.shelf.Holds router.Serves := by
  obtain ⟨same, kept⟩ := evaluate_match verbose maxDepth ctx bound maxDepth document.toList
    { shared := backend } { shared := other } ⟨rfl, held⟩
  exact ⟨congrArg (Except.map String.ofList) same, kept.served⟩

namespace Quotes

theorem quote_addressBound (timeout : Option Nat) :
    ({ view := quoteView, timeout } : Fragment).AddressBound where
  keepsPath ctx arguments := by
    unfold quoteView
    dsimp only
    split <;> rfl
  determined ctx other arguments needed language := by
    unfold quoteView
    dsimp only
    rw [language rfl]
    split <;> exact ⟨rfl, needed⟩

theorem randomQuote_addressBound (timeout : Option Nat) :
    ({ view := randomQuoteView, declares := some declareRandomQuote, timeout } :
      Fragment).AddressBound where
  keepsPath ctx arguments := by
    unfold randomQuoteView
    dsimp only
    split <;> rfl
  determined ctx other arguments needed language := by
    unfold randomQuoteView
    dsimp only
    split
    · exact ⟨rfl, needed⟩
    · exact ⟨rfl, congrArg (VariableSet.insert · _) needed⟩

theorem form_addressBound (declares : Option Declaration) (timeout : Option Nat) :
    ({ view := formView, declares, usesLanguage := false, timeout } : Fragment).AddressBound where
  keepsPath _ _ := rfl
  determined _ _ _ needed _ := ⟨rfl, congrArg (VariableSet.insert · token) needed⟩

theorem router_addressBound (caches : CacheSet) : (router caches).AddressBound := by
  intro route member
  simp only [router, Router.addRoute, List.nil_append, List.cons_append, List.mem_cons,
    List.not_mem_nil, or_false] at member
  rcases member with rfl | rfl | rfl
  · exact quote_addressBound _
  · exact randomQuote_addressBound _
  · exact form_addressBound _ _

end Quotes

end TwoPhase
