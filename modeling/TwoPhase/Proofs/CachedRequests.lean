import TwoPhase.Proofs.CacheReadings
import TwoPhase.Proofs.IncludeCaching

/-
Documents processed one after another with shared caches. A call comes back unless the program ends
in the middle of it, at a text that would expire past the last instant of the clock; where no
timeout reaches that far, every call comes back. And what comes back is what the document comes
to without caches.
-/
namespace TwoPhase

namespace Shelf
variable {shelf after last : Shelf} {position : Nat} {timeout : Option Nat}

/-- A text written into the store with the timeout can expire past the last instant. -/
def Overruns (shelf : Shelf) (position : Nat) (timeout : Option Nat) : Prop :=
  ∃ usual, shelf.usual? position = some usual ∧
    ∃ span, timeout.or usual = some span ∧ ∃ reading, shelf.latest < shelf.clock reading + span

theorem Overruns.before (overruns : after.Overruns position timeout) (follows : Follows shelf after) :
    shelf.Overruns position timeout := by
  obtain ⟨usual, known, span, given, reading, past⟩ := overruns
  rw [follows.usual] at known
  rw [follows.latest, follows.clock] at past
  exact ⟨usual, known, span, given, reading, past⟩

structure Continues (shelf after : Shelf) : Prop extends Follows shelf after where
  overflowed : after.overflowed = shelf.overflowed

theorem Continues.refl (shelf : Shelf) : Continues shelf shelf := ⟨.refl shelf, rfl⟩

theorem Continues.trans (first : Continues shelf after) (second : Continues after last) :
    Continues shelf last :=
  ⟨first.toFollows.trans second.toFollows, second.overflowed.trans first.overflowed⟩

theorem get_continues (shelf : Shelf) (position : Nat) (key : String) :
    Continues shelf (shelf.get position key).2 where
  toFollows := shelf.get_follows position key
  overflowed := by
    unfold get
    split <;> rfl

theorem put_continues (fits : ¬ shelf.Overruns position timeout) (key content : String) :
    Continues shelf (shelf.put position key content timeout) where
  toFollows := shelf.put_follows position key content timeout
  overflowed := by
    unfold put
    split
    · rfl
    · next store found =>
      have usual : shelf.usual? position = some store.defaultTimeout := by
        rw [usual?, found]
        rfl
      have timely : (store.expiry? shelf.now timeout).any (shelf.latest < ·) = false := by
        unfold Store.expiry?
        cases given : timeout.or store.defaultTimeout with
        | none => rfl
        | some span =>
          refine decide_eq_false fun past => fits ?_
          exact ⟨store.defaultTimeout, usual, span, given, shelf.readings, past⟩
      dsimp only
      rw [timely, Bool.or_false]

end Shelf

namespace CacheSet
open TwoPhase.Shelf

theorem get_continues (caches : CacheSet) (key : String) (shelf : Shelf) :
    Continues shelf (caches.get key shelf).2 :=
  getFrom_holding (Continues shelf)
    (fun after position kept => kept.trans (after.get_continues position key)) caches.members (.refl shelf)

theorem put_continues {caches : CacheSet} {shelf : Shelf} {timeout : Option Nat}
    (fits : ∀ member ∈ caches.members, ¬ shelf.Overruns member.2 timeout) (key content : String) :
    Continues shelf (caches.put key content timeout shelf) := by
  refine List.foldlRecOn caches.members _ (motive := Continues shelf) (.refl shelf) ?_
  intro after kept member listed
  have fitting : ¬ after.Overruns member.2 timeout :=
    fun overruns => fits member listed (overruns.before kept.toFollows)
  exact kept.trans (Shelf.put_continues fitting key content)

end CacheSet

namespace Router
variable {router : Router} {ctx : RequestContext} {backend : Backend}

def Overruns (router : Router) (shelf : Shelf) : Prop :=
  ∃ route ∈ router.routes, ∃ member ∈ router.caches.members,
    shelf.Overruns member.2 route.fragment.timeout

theorem not_overruns_uncached (router : Router) (shelf : Shelf) : ¬ router.uncached.Overruns shelf := by
  rintro ⟨_, _, _, listed, _⟩
  cases listed

theorem Overruns.before {shelf after : Shelf} (overruns : router.Overruns after)
    (follows : Shelf.Follows shelf after) : router.Overruns shelf := by
  obtain ⟨route, routed, member, listed, past⟩ := overruns
  exact ⟨route, routed, member, listed, past.before follows⟩

theorem dispatch_continues (fits : ¬ router.Overruns backend.shelf) (ctx : RequestContext) :
    Shelf.Continues backend.shelf (router.dispatch ctx backend).backend.shelf := by
  rcases router.dispatch_cases ctx backend with ⟨_, _, left⟩ | ⟨_, route, routed, _, written⟩
  · rw [left]
    exact .refl backend.shelf
  · rw [written]
    exact CacheSet.put_continues
      (fun member listed past => fits ⟨route, routed, member, listed, past⟩) _ _

section Run
variable (verbose : Bool) (maxDepth : Nat)

theorem fetch_continues (level : Nat) (path : String) {session : Session Backend}
    (fits : ¬ router.Overruns session.shared.shelf) :
    Shelf.Continues session.shared.shelf
      (((router.evaluator verbose maxDepth).fetch ctx level path).run.run session).2.shared.shelf := by
  have looked : Shelf.Continues session.shared.shelf
      ((router.evaluator verbose maxDepth).sources.lookup path session.shared).2.shelf :=
    router.caches.get_continues path session.shared.shelf
  rw [Evaluation.run_fetch]
  generalize (router.evaluator verbose maxDepth).sources.lookup path session.shared = answer at looked ⊢
  obtain ⟨hit, shared⟩ := answer
  cases hit with
  | some cached => exact looked
  | none =>
    have fitting : ¬ router.Overruns shared.shelf :=
      fun overruns => fits (overruns.before looked.toFollows)
    exact looked.trans (dispatch_continues fitting _)

theorem evaluateDocument_continues (fits : ¬ router.Overruns backend.shelf) (ctx : RequestContext)
    (document : String) : Shelf.Continues backend.shelf
      ((router.evaluator verbose maxDepth).evaluateDocument ctx document backend).2.shared.shelf := by
  have upheld := Evaluator.evaluate_upholds (router.evaluator verbose maxDepth)
    (fun (session : Session Backend) _ _ (kept : Shelf.Continues backend.shelf session.shared.shelf) =>
      kept) ctx (fun level path session kept => kept.trans (fetch_continues verbose maxDepth level path
        fun overruns => fits (overruns.before kept.toFollows))) maxDepth document.toList
  exact (upheld { shared := backend } _ ⟨rfl, .refl backend.shelf⟩).2.2

/-- What a document comes to and the caches after it, unless the program ends on the way. -/
def process? (router : Router) (verbose : Bool) (maxDepth : Nat)
    (request : RequestContext × String) (backend : Backend) :
    Option (Except Failure String × Backend) :=
  let answer := (router.evaluator verbose maxDepth).evaluateDocument request.1 request.2 backend
  if answer.2.shared.shelf.overflowed then none else some (answer.1, answer.2.shared)

/-- The results of processing documents one after another, up to a call that does not come back. -/
def serve (router : Router) (verbose : Bool) (maxDepth : Nat) :
    List (RequestContext × String) → Backend → List (Except Failure String)
  | [], _ => []
  | request :: later, backend =>
    match router.process? verbose maxDepth request backend with
    | none => []
    | some (outcome, after) => outcome :: router.serve verbose maxDepth later after

variable {request : RequestContext × String} {requests : List (RequestContext × String)}

theorem process?_of_fits (fits : ¬ router.Overruns backend.shelf)
    (running : backend.shelf.overflowed = false) (request : RequestContext × String) :
    ∃ after, router.process? verbose maxDepth request backend =
        some (((router.evaluator verbose maxDepth).evaluateDocument request.1 request.2
          backend).1, after) ∧
      Shelf.Continues backend.shelf after.shelf := by
  have continues := evaluateDocument_continues verbose maxDepth fits request.1 request.2
  refine ⟨_, ?_, continues⟩
  unfold process?
  dsimp only
  rw [continues.overflowed, running]
  rfl

variable {verbose maxDepth}

theorem process?_uncached (bound : router.AddressBound) (held : backend.shelf.Holds router.Serves)
    (other : Backend) {outcome : Except Failure String} {after : Backend}
    (processed : router.process? verbose maxDepth request backend = some (outcome, after)) :
    outcome = ((router.uncached.evaluator verbose maxDepth).evaluateDocument request.1 request.2
      other).1 ∧ after.shelf.Holds router.Serves := by
  obtain ⟨same, kept⟩ := evaluateDocument_match bound verbose maxDepth request.1 request.2 held other
  unfold process? at processed
  dsimp only at processed
  split at processed
  · cases processed
  · cases processed
    exact ⟨same, kept⟩

theorem serve_isPrefix (bound : router.AddressBound) (held : backend.shelf.Holds router.Serves)
    (other : Backend) : router.serve verbose maxDepth requests backend <+: requests.map fun request =>
      ((router.uncached.evaluator verbose maxDepth).evaluateDocument request.1 request.2 other).1 := by
  induction requests generalizing backend with
  | nil => exact List.prefix_rfl
  | cons request later ih =>
    unfold serve
    cases processed : router.process? verbose maxDepth request backend with
    | none => exact List.nil_prefix
    | some answer =>
      obtain ⟨same, kept⟩ := process?_uncached bound held other processed
      rw [List.map_cons, ← same]
      exact (List.prefix_cons_inj _).2 (ih kept)

theorem serve_length (fits : ¬ router.Overruns backend.shelf)
    (running : backend.shelf.overflowed = false) :
    (router.serve verbose maxDepth requests backend).length = requests.length := by
  induction requests generalizing backend with
  | nil => rfl
  | cons request later ih =>
    obtain ⟨after, processed, continues⟩ := process?_of_fits verbose maxDepth fits running request
    unfold serve
    rw [processed]
    have rest := ih (fun overruns => fits (overruns.before continues.toFollows))
      (continues.overflowed.trans running)
    exact congrArg Nat.succ rest

end Run
end Router

namespace Quotes

def backend : Backend where
  shelf := { stores := [{ defaultTimeout := some 1 }, {}], clock := (min · 60) }

def cachedRouter : Router := router ⟨[("fast", 0), ("slow", 1)]⟩

def visits : List (RequestContext × String) := [
  ({ path := "/" }, "<!--#include file='/en/quote/0/'-->"),
  ({ path := "/about", language := some "pl" }, "<p><!--#include file='/en/quote/0/'--></p>"),
  ({ path := "/" }, "<!--#include file='/de/quote/0/'-->")]

def lastingBackend : Backend where
  shelf := { stores := [{ defaultTimeout := some (Nat.pow 2 64 - 1) }, {}], clock := fun _ => 1 }

theorem cachedRouter_fits : ¬ cachedRouter.Overruns backend.shelf := by
  rintro ⟨route, routed, member, listed, usual, known, span, given, reading, past⟩
  have endless : ∀ route ∈ cachedRouter.routes, route.fragment.timeout = none := by decide
  have listed : member = ("fast", 0) ∨ member = ("slow", 1) := by
    simpa [cachedRouter, router, Router.addRoute] using listed
  rw [endless route routed, Option.none_or] at given
  rcases listed with rfl | rfl
  · have forgets : some 1 = usual := Option.some.inj known
    rw [← forgets] at given
    cases given
    have late : Nat.pow 2 63 - 1 < 60 + 1 :=
      Nat.lt_of_lt_of_le past (Nat.add_le_add_right (Nat.min_le_right reading 60) 1)
    exact absurd late (by decide)
  · have keeps : none = usual := Option.some.inj known
    rw [← keeps] at given
    cases given

end Quotes

/-- Here the first text that is kept ends the program. -/
example : (Quotes.cachedRouter.serve false 16 Quotes.visits Quotes.lastingBackend).length = 0 := by
  decide +kernel

end TwoPhase
