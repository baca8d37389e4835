import Mathlib.Order.Monotone.Basic
import TwoPhase.Proofs.ShelfEntries

/-
What readings see. If every text either expires at once or never while the clock runs, then time does
not matter: a reading sees the text written last under its key, in the first store of the set
where that one lasts. Readings take expired entries away, but none that a later reading
would have seen, and what is done about other keys never shows.
-/
namespace TwoPhase

inductive CacheAction where
  | read (key : String)
  | write (key content : String) (timeout : Option Nat)
  | flush (keys : Option (List String))
  | readAt (position : Nat) (key : String)
  | writeAt (position : Nat) (key content : String) (timeout : Option Nat)
  | deleteAt (position : Nat) (keys : List String)
  | clearAt (position : Nat)

/-- A text as it was written, and whether it lasts or has expired at once. -/
structure Written where
  content : String
  lasts : Bool

def Written.text? (written : Written) : Option String :=
  if written.lasts then some written.content else none

namespace CacheAction

def apply (caches : CacheSet) (shelf : Shelf) : CacheAction → Shelf
  | read key => (caches.get key shelf).2
  | write key content timeout => caches.put key content timeout shelf
  | flush keys => caches.flush keys shelf
  | readAt position key => (shelf.get position key).2
  | writeAt position key content timeout => shelf.put position key content timeout
  | deleteAt position keys => shelf.delete position keys
  | clearAt position => shelf.clear position

def written? (usual : Option (Option Nat)) (content : String) (timeout : Option Nat) :
    Option Written :=
  usual.map fun usual => ⟨content, timeout.or usual ≠ some 0⟩

/-- What was last written under a key of a store and not taken away since, after one more action. -/
def leaves (caches : CacheSet) (usual : Nat → Option (Option Nat)) (position : Nat) (key : String)
    (before : Option Written) : CacheAction → Option Written
  | read _ | readAt _ _ => before
  | write name content timeout =>
    if position ∈ caches.members.map Prod.snd ∧ name = key then
      written? (usual position) content timeout
    else before
  | flush keys =>
    if position ∈ caches.members.map Prod.snd ∧ keys.all (·.contains key) = true then none
    else before
  | writeAt place name content timeout =>
    if place = position ∧ name = key then written? (usual position) content timeout else before
  | deleteAt place keys => if place = position ∧ key ∈ keys then none else before
  | clearAt place => if place = position then none else before

def spares (key : String) : CacheAction → Bool
  | read _ | readAt _ _ => true
  | write name _ _ | writeAt _ name _ _ => name ≠ key
  | flush keys => !keys.all (·.contains key)
  | deleteAt _ keys => key ∉ keys
  | clearAt _ => false

theorem leaves_of_spares {caches : CacheSet} {usual : Nat → Option (Option Nat)} {position : Nat}
    {key : String} {action : CacheAction} (spares : action.spares key = true)
    (before : Option Written) : action.leaves caches usual position key before = before := by
  cases action with
  | read _ | readAt _ _ => rfl
  | write name _ _ | writeAt _ name _ _ =>
    have differs : name ≠ key := by simpa [CacheAction.spares] using spares
    exact if_neg fun both => differs both.2
  | flush keys =>
    have other : keys.all (·.contains key) = false := by simpa [CacheAction.spares] using spares
    exact if_neg fun both => Bool.false_ne_true (other.symm.trans both.2)
  | deleteAt _ keys =>
    have other : key ∉ keys := by simpa [CacheAction.spares] using spares
    exact if_neg fun both => other both.2
  | clearAt _ => cases spares

end CacheAction

namespace Shelf
variable {shelf after last : Shelf} {position place : Nat} {key name : String}

def usual? (shelf : Shelf) (position : Nat) : Option (Option Nat) :=
  shelf.stores[position]?.map Store.defaultTimeout

def textAt (shelf : Shelf) (reading position : Nat) (key : String) : Option String :=
  ((shelf.kept? position key).filter fun entry => !entry.isExpired (shelf.clock reading)).map
    CacheEntry.content

/-- From now on, a reading sees the text that was written, if it lasts, and else nothing. -/
def Shows (shelf : Shelf) (position : Nat) (key : String) (written : Option Written) : Prop :=
  ∀ reading, shelf.readings ≤ reading →
    shelf.textAt reading position key = written.bind Written.text?

def written? (shelf : Shelf) (position : Nat) (key : String) : Option Written :=
  (shelf.kept? position key).map fun entry => ⟨entry.content, !entry.isExpired shelf.now⟩

/-- A text with that timeout expires at once or never. -/
def Decided (clock : Nat → Nat) : Option Nat → Prop
  | none => True
  | some timeout => timeout = 0 ∨ ∀ earlier later, clock later < clock earlier + timeout

/-- Time does not go back, and no entry will expire that has not expired already. -/
structure Settled (shelf : Shelf) : Prop where
  monotone : Monotone shelf.clock
  shows : ∀ position key, shelf.Shows position key (shelf.written? position key)

theorem shows_of_absent (absent : shelf.kept? position key = none) :
    shelf.Shows position key none := by
  intro reading _
  rw [textAt, absent]
  rfl

theorem settled_of_empty (monotone : Monotone shelf.clock)
    (empty : ∀ store ∈ shelf.stores, store.entries = {}) : shelf.Settled where
  monotone := monotone
  shows position key := by
    have absent : shelf.kept? position key = none := by
      unfold kept?
      cases found : shelf.stores[position]? with
      | none => rfl
      | some store =>
        rw [Option.bind_some, empty store (List.mem_of_getElem? found)]
        rfl
    rw [written?, absent]
    exact shows_of_absent absent

/-- Nothing but entries has changed, and time may have gone on. -/
structure Follows (shelf after : Shelf) : Prop where
  clock : after.clock = shelf.clock
  latest : after.latest = shelf.latest
  readings : shelf.readings ≤ after.readings
  usual : ∀ position, after.usual? position = shelf.usual? position

namespace Follows

theorem refl (shelf : Shelf) : Follows shelf shelf := ⟨rfl, rfl, Nat.le_refl _, fun _ => rfl⟩

theorem trans (first : Follows shelf after) (second : Follows after last) : Follows shelf last where
  clock := second.clock.trans first.clock
  latest := second.latest.trans first.latest
  readings := Nat.le_trans first.readings second.readings
  usual position := (second.usual position).trans (first.usual position)

end Follows

theorem get_follows (shelf : Shelf) (position : Nat) (key : String) :
    Follows shelf (shelf.get position key).2 where
  clock := by
    unfold get
    split <;> rfl
  latest := by
    unfold get
    split <;> rfl
  readings := by
    unfold get
    split
    · exact Nat.le_refl _
    · exact Nat.le_succ _
  usual := (shelf.get_changes position key).defaultTimeout_eq fun store =>
    store.get_defaultTimeout shelf.now key

theorem put_follows (shelf : Shelf) (position : Nat) (key content : String) (timeout : Option Nat) :
    Follows shelf (shelf.put position key content timeout) where
  clock := shelf.put_clock position key content timeout
  latest := by
    unfold put
    split <;> rfl
  readings := by
    unfold put
    split
    · exact Nat.le_refl _
    · exact Nat.le_succ _
  usual := (shelf.put_changes position key content timeout).defaultTimeout_eq fun _ => rfl

theorem modify_follows (shelf : Shelf) (position : Nat) {change : Store → Store}
    (kept : ∀ store, (change store).defaultTimeout = store.defaultTimeout) :
    Follows shelf { shelf with stores := shelf.stores.modify position change } where
  clock := rfl
  latest := rfl
  readings := Nat.le_refl _
  usual := (shelf.modify_changes position change).defaultTimeout_eq kept

theorem textAt_congr {reading : Nat} (follows : Follows shelf after)
    (same : after.kept? place name = shelf.kept? place name) :
    after.textAt reading place name = shelf.textAt reading place name := by
  rw [textAt, textAt, same, follows.clock]

theorem isExpired_of_decided {clock : Nat → Nat} {earlier later : Nat} {timeout : Option Nat}
    (decided : Decided clock timeout) (past : clock earlier ≤ clock later) (content : String) :
    CacheEntry.isExpired ⟨content, timeout.map (clock earlier + ·)⟩ (clock later) = true ↔
      timeout = some 0 := by
  cases timeout with
  | none => simp [CacheEntry.isExpired]
  | some timeout =>
    have decided : timeout = 0 ∨ ∀ earlier later, clock later < clock earlier + timeout := decided
    simp only [CacheEntry.isExpired, Option.map_some, Option.elim_some, decide_eq_true_eq,
      Option.some.injEq]
    constructor
    · intro reached
      rcases decided with atOnce | never
      · exact atOnce
      · exact absurd (never earlier later) (Nat.not_lt.2 reached)
    · rintro rfl
      exact past

theorem textAt_written {clock : Nat → Nat} {earlier later : Nat} {timeout : Option Nat}
    (decided : Decided clock timeout) (past : clock earlier ≤ clock later) (content : String) :
    ((some ⟨content, timeout.map (clock earlier + ·)⟩ : Option CacheEntry).filter fun entry =>
        !entry.isExpired (clock later)).map CacheEntry.content =
      Written.text? ⟨content, timeout ≠ some 0⟩ := by
  have expires := isExpired_of_decided decided past content
  rw [Option.filter_some, Written.text?]
  by_cases atOnce : timeout = some 0
  · rw [expires.2 atOnce]
    simp [atOnce]
  · simp [mt expires.1 atOnce, atOnce]

theorem filter_cases {α : Type} (p : α → Bool) (option : Option α) :
    option.filter p = option ∨ option.filter p = none := by
  cases option with
  | none => exact Or.inl rfl
  | some a =>
    rw [Option.filter_some]
    split
    · exact Or.inl rfl
    · exact Or.inr rfl

section Step
variable {written : Option Written} (shows : shelf.Shows place name written)
include shows

theorem Shows.of_kept (follows : Follows shelf after)
    (same : after.kept? place name = shelf.kept? place name) : after.Shows place name written := by
  intro reading later
  rw [textAt_congr follows same]
  exact shows reading (Nat.le_trans follows.readings later)

theorem Shows.of_taken {taken : Prop} [Decidable taken] (follows : Follows shelf after)
    (kept : after.kept? place name = if taken then none else shelf.kept? place name) :
    after.Shows place name (if taken then none else written) := by
  by_cases gone : taken
  · rw [if_pos gone] at kept ⊢
    exact shows_of_absent kept
  · rw [if_neg gone] at kept ⊢
    exact shows.of_kept follows kept

theorem Shows.get (position : Nat) (key : String) :
    (shelf.get position key).2.Shows place name written := by
  have follows := shelf.get_follows position key
  have seenNow : shelf.textAt shelf.readings place name = _ := shows shelf.readings (Nat.le_refl _)
  intro reading later
  have seen := shows reading (Nat.le_trans follows.readings later)
  rw [textAt] at seen seenNow
  rw [textAt, kept?_get, follows.clock]
  split
  · rcases filter_cases (fun entry => !entry.isExpired shelf.now) (shelf.kept? place name) with
      left | gone
    · rw [left]
      exact seen
    · rw [← now, gone] at seenNow
      rw [gone]
      exact seenNow
  · exact seen

theorem Shows.put (monotone : Monotone shelf.clock) (position : Nat) (key content : String)
    {timeout : Option Nat}
    (decided : ∀ usual, shelf.usual? position = some usual → Decided shelf.clock (timeout.or usual)) :
    (shelf.put position key content timeout).Shows place name
      (if position = place ∧ key = name then
        CacheAction.written? (shelf.usual? place) content timeout
      else written) := by
  have follows := shelf.put_follows position key content timeout
  have kept := shelf.kept?_put position key place name content timeout
  split
  · next own =>
    obtain ⟨rfl, rfl⟩ := own
    rw [if_pos ⟨rfl, rfl⟩] at kept
    intro reading later
    rw [textAt, kept, follows.clock]
    unfold usual? at decided ⊢
    cases found : shelf.stores[position]? with
    | none => rfl
    | some store =>
      have past : shelf.clock shelf.readings ≤ shelf.clock reading :=
        monotone (Nat.le_trans follows.readings later)
      rw [found] at decided
      exact textAt_written (decided store.defaultTimeout rfl) past content
  · next other =>
    rw [if_neg other] at kept
    exact shows.of_kept follows kept

theorem Shows.delete (position : Nat) (keys : List String) :
    (shelf.delete position keys).Shows place name
      (if position = place ∧ name ∈ keys then none else written) :=
  shows.of_taken (shelf.modify_follows position fun _ => rfl)
    (shelf.kept?_delete position place name keys)

theorem Shows.clear (position : Nat) :
    (shelf.clear position).Shows place name (if position = place then none else written) :=
  shows.of_taken (shelf.modify_follows position fun _ => rfl)
    (shelf.kept?_clear position place name)

end Step

end Shelf

namespace CacheSet
open TwoPhase.Shelf
variable {shelf : Shelf} {place : Nat} {name : String} {written : Option Written}

theorem getFrom_follows (members : List (String × Nat)) (key : String) (shelf : Shelf) :
    Follows shelf (getFrom key members shelf).2 :=
  getFrom_holding (Follows shelf)
    (fun after position follows => follows.trans (after.get_follows position key)) members (.refl shelf)

theorem getFrom_shows (members : List (String × Nat)) (key : String)
    (shows : shelf.Shows place name written) :
    (getFrom key members shelf).2.Shows place name written :=
  getFrom_holding (fun after => after.Shows place name written)
    (fun _ position still => still.get position key) members shows

theorem getFrom_answer (members : List (String × Nat)) {key : String} {written : Nat → Option Written}
    (shows : ∀ position, shelf.Shows position key (written position)) :
    (getFrom key members shelf).1 =
      members.findSome? fun member => (written member.2).bind Written.text? := by
  induction members generalizing shelf with
  | nil => rfl
  | cons member members ih =>
    obtain ⟨_, position⟩ := member
    have seen : (shelf.get position key).1 = (written position).bind Written.text? :=
      (shelf.get_answer position key).trans (shows position shelf.readings (Nat.le_refl _))
    have later := fun other => (shows other).get position key
    unfold getFrom
    rw [List.findSome?_cons, ← seen]
    generalize shelf.get position key = answer at later ⊢
    obtain ⟨hit, after⟩ := answer
    cases hit with
    | some content => rfl
    | none => exact ih later

theorem foldl_shows (act : Shelf → Nat → Shelf) (touches : Prop) [Decidable touches]
    {left : Option Written} (members : List (String × Nat))
    (each : ∀ after, Follows shelf after → ∀ member ∈ members, ∀ written,
      after.Shows place name written → Follows after (act after member.2) ∧
        (act after member.2).Shows place name
          (if member.2 = place ∧ touches then left else written))
    (shows : shelf.Shows place name written) :
    Follows shelf (members.foldl (fun shelf member => act shelf member.2) shelf) ∧
      (members.foldl (fun shelf member => act shelf member.2) shelf).Shows place name
        (if place ∈ members.map Prod.snd ∧ touches then left else written) := by
  induction members generalizing shelf written with
  | nil => exact ⟨.refl shelf, by simpa using shows⟩
  | cons member members ih =>
    obtain ⟨follows, first⟩ := each shelf (.refl shelf) member List.mem_cons_self written shows
    obtain ⟨rest, shown⟩ := ih (fun after later other listed =>
      each after (follows.trans later) other (List.mem_cons_of_mem _ listed)) first
    refine ⟨follows.trans rest, ?_⟩
    rw [List.foldl_cons, List.map_cons]
    by_cases inRest : place ∈ members.map Prod.snd ∧ touches
    · rw [if_pos inRest] at shown
      rwa [if_pos ⟨List.mem_cons_of_mem _ inRest.1, inRest.2⟩]
    · rw [if_neg inRest] at shown
      by_cases own : member.2 = place ∧ touches
      · rw [if_pos own] at shown
        rwa [if_pos ⟨own.1 ▸ List.mem_cons_self, own.2⟩]
      · rw [if_neg own] at shown
        rwa [if_neg]
        rintro ⟨listed, touched⟩
        rcases List.mem_cons.1 listed with same | later
        · exact own ⟨same.symm, touched⟩
        · exact inRest ⟨later, touched⟩

theorem put_shows (caches : CacheSet) (key content : String) {timeout : Option Nat}
    (monotone : Monotone shelf.clock)
    (decided : ∀ member ∈ caches.members, ∀ usual, shelf.usual? member.2 = some usual →
      Decided shelf.clock (timeout.or usual)) (shows : shelf.Shows place name written) :
    Follows shelf (caches.put key content timeout shelf) ∧
      (caches.put key content timeout shelf).Shows place name
        (if place ∈ caches.members.map Prod.snd ∧ key = name then
          CacheAction.written? (shelf.usual? place) content timeout
        else written) := by
  refine foldl_shows (fun shelf position => shelf.put position key content timeout) (key = name)
    caches.members ?_ shows
  intro after follows member listed written shows
  refine ⟨after.put_follows member.2 key content timeout, ?_⟩
  rw [← follows.usual]
  apply shows.put (follows.clock ▸ monotone)
  rw [follows.usual, follows.clock]
  exact decided member listed

theorem flush_shows (caches : CacheSet) (keys : Option (List String))
    (shows : shelf.Shows place name written) :
    Follows shelf (caches.flush keys shelf) ∧
      (caches.flush keys shelf).Shows place name
        (if place ∈ caches.members.map Prod.snd ∧ keys.all (·.contains name) = true then none
        else written) := by
  cases keys with
  | none =>
    refine foldl_shows Shelf.clear _ caches.members ?_ shows
    intro after _ member _ written shows
    refine ⟨after.modify_follows member.2 fun _ => rfl, ?_⟩
    simpa using shows.clear member.2
  | some keys =>
    refine foldl_shows (fun shelf position => shelf.delete position keys) _ caches.members ?_ shows
    intro after _ member _ written shows
    refine ⟨after.modify_follows member.2 fun _ => rfl, ?_⟩
    simpa using shows.delete member.2 keys

end CacheSet

namespace CacheAction
open TwoPhase.Shelf
variable {caches : CacheSet} {shelf : Shelf} {position : Nat} {key : String}

def Decisive (caches : CacheSet) (shelf : Shelf) : CacheAction → Prop
  | write _ _ timeout => ∀ member ∈ caches.members, ∀ usual, shelf.usual? member.2 = some usual →
      Decided shelf.clock (timeout.or usual)
  | writeAt position _ _ timeout => ∀ usual, shelf.usual? position = some usual →
      Decided shelf.clock (timeout.or usual)
  | read _ | flush _ | readAt _ _ | deleteAt _ _ | clearAt _ => True

theorem Decisive.follows {action : CacheAction} {after : Shelf} (decisive : action.Decisive caches shelf)
    (follows : Follows shelf after) : action.Decisive caches after := by
  cases action with
  | write key content timeout =>
    intro member listed
    rw [follows.usual, follows.clock]
    exact decisive member listed
  | writeAt place key content timeout =>
    intro usual found
    rw [follows.clock]
    exact decisive usual (follows.usual place ▸ found)
  | read _ | flush _ | readAt _ _ | deleteAt _ _ | clearAt _ => trivial

theorem apply_shows {action : CacheAction} {written : Option Written}
    (monotone : Monotone shelf.clock) (decisive : action.Decisive caches shelf)
    (shows : shelf.Shows position key written) :
    Follows shelf (action.apply caches shelf) ∧ (action.apply caches shelf).Shows position key
      (action.leaves caches shelf.usual? position key written) := by
  cases action with
  | read name =>
    exact ⟨CacheSet.getFrom_follows caches.members name shelf,
      CacheSet.getFrom_shows caches.members name shows⟩
  | write name content timeout => exact caches.put_shows name content monotone decisive shows
  | flush keys => exact caches.flush_shows keys shows
  | readAt place name => exact ⟨shelf.get_follows place name, shows.get place name⟩
  | writeAt place name content timeout =>
    exact ⟨shelf.put_follows place name content timeout, shows.put monotone place name content decisive⟩
  | deleteAt place keys =>
    exact ⟨shelf.modify_follows place fun _ => rfl, shows.delete place keys⟩
  | clearAt place => exact ⟨shelf.modify_follows place fun _ => rfl, shows.clear place⟩

/-- What was last written under a key of a store and not taken away since, after some actions. -/
def leftBy (caches : CacheSet) (shelf : Shelf) (actions : List CacheAction) (position : Nat)
    (key : String) : Option Written :=
  actions.foldl (fun written action => action.leaves caches shelf.usual? position key written)
    (shelf.written? position key)

theorem foldl_apply_shows {actions : List CacheAction} {written : Option Written}
    (monotone : Monotone shelf.clock) (decisive : ∀ action ∈ actions, action.Decisive caches shelf)
    (shows : shelf.Shows position key written) :
    (actions.foldl (apply caches) shelf).Shows position key
      (actions.foldl (fun written action => action.leaves caches shelf.usual? position key written)
        written) := by
  induction actions generalizing shelf written with
  | nil => exact shows
  | cons action actions ih =>
    obtain ⟨follows, shown⟩ := apply_shows monotone (decisive action List.mem_cons_self) shows
    have later := ih (follows.clock ▸ monotone) (fun other listed =>
      (decisive other (List.mem_cons_of_mem _ listed)).follows follows) shown
    rw [funext follows.usual] at later
    exact later

theorem leftBy_filter (actions : List CacheAction) :
    leftBy caches shelf (actions.filter fun action => !action.spares key) position key =
      leftBy caches shelf actions position key := by
  unfold leftBy
  generalize shelf.written? position key = written
  induction actions generalizing written with
  | nil => rfl
  | cons action actions ih =>
    cases spared : action.spares key with
    | true =>
      rw [List.filter_cons_of_neg (by simp [spared]), ih, List.foldl_cons, leaves_of_spares spared]
    | false => rw [List.filter_cons_of_pos (by simp [spared]), List.foldl_cons, List.foldl_cons, ih]

end CacheAction

open CacheAction in
/-- Readings see the last writes. After any actions on new or settled stores, a store answers with the
text last written under the key and not taken away since, if it lasts, and the set with the first
such text; an entry that has expired is gone once it is read. So what other actions did not
touch the key, readings among them, makes no difference. -/
theorem readings_see_last_writes {caches : CacheSet} {shelf : Shelf} (settled : shelf.Settled)
    {actions : List CacheAction} (decisive : ∀ action ∈ actions, action.Decisive caches shelf) :
    let after := actions.foldl (apply caches) shelf
    (∀ position key, (after.get position key).1 =
      (leftBy caches shelf actions position key).bind Written.text?) ∧
    (∀ key, (caches.get key after).1 = caches.members.findSome? fun member =>
      (leftBy caches shelf actions member.2 key).bind Written.text?) ∧
    (∀ position key entry, after.kept? position key = some entry →
      entry.isExpired after.now = true → (after.get position key).2.kept? position key = none) ∧
    ∀ (key : String) (others : List CacheAction),
      (∀ action ∈ others, action.Decisive caches shelf) →
      (others.filter fun action => !action.spares key) =
        (actions.filter fun action => !action.spares key) →
      let instead := others.foldl (apply caches) shelf
      (caches.get key instead).1 = (caches.get key after).1 ∧
        ∀ position, (instead.get position key).1 = (after.get position key).1 := by
  have shown : ∀ {actions : List CacheAction}, (∀ action ∈ actions, action.Decisive caches shelf) →
      ∀ position key, (actions.foldl (apply caches) shelf).Shows position key
        (leftBy caches shelf actions position key) :=
    fun decisive position key =>
      foldl_apply_shows settled.monotone decisive (settled.shows position key)
  have single : ∀ {actions : List CacheAction}, (∀ action ∈ actions, action.Decisive caches shelf) →
      ∀ position key, ((actions.foldl (apply caches) shelf).get position key).1 =
        (leftBy caches shelf actions position key).bind Written.text? :=
    fun decisive position key => (Shelf.get_answer _ position key).trans
      (shown decisive position key _ (Nat.le_refl _))
  have first : ∀ {actions : List CacheAction}, (∀ action ∈ actions, action.Decisive caches shelf) →
      ∀ key, (caches.get key (actions.foldl (apply caches) shelf)).1 =
        caches.members.findSome? fun member =>
          (leftBy caches shelf actions member.2 key).bind Written.text? :=
    fun decisive key => CacheSet.getFrom_answer caches.members fun position =>
      shown decisive position key
  refine ⟨single decisive, first decisive, ?_, ?_⟩
  · intro position key entry kept expired
    rw [Shelf.kept?_get, if_pos ⟨rfl, rfl⟩, kept, Option.filter_some, expired]
    rfl
  · intro key others decisive' same
    have equal : ∀ position, leftBy caches shelf others position key =
        leftBy caches shelf actions position key := by
      intro position
      rw [← leftBy_filter others, same, leftBy_filter]
    constructor
    · rw [first decisive', first decisive]
      simp only [equal]
    · intro position
      rw [single decisive', single decisive, equal]

def pairedShelf : Shelf where
  stores := [{}, { defaultTimeout := some 0 }]
  clock := id

def pairedCaches : CacheSet := ⟨[("brief", 1), ("slow", 0), ("brief", 1)]⟩

def pairedActions : List CacheAction :=
  [.write "/a/" "first" none, .writeAt 1 "/b/" "other" none, .readAt 1 "/a/", .deleteAt 0 ["/b/"]]

theorem pairedShelf_settled : pairedShelf.Settled := by
  apply Shelf.settled_of_empty monotone_id
  intro store member
  simp only [pairedShelf, List.mem_cons, List.not_mem_nil, or_false] at member
  rcases member with rfl | rfl <;> rfl

theorem pairedActions_decisive :
    ∀ action ∈ pairedActions, action.Decisive pairedCaches pairedShelf := by
  have usual : ∀ position timeout, pairedShelf.usual? position = some timeout →
      Shelf.Decided pairedShelf.clock timeout := by
    intro position timeout found
    rcases position with _ | _ | _
    · cases found
      trivial
    · cases found
      exact Or.inl rfl
    · cases found
  intro action member
  simp only [pairedActions, List.mem_cons, List.not_mem_nil, or_false] at member
  rcases member with rfl | rfl | rfl | rfl
  · exact fun member _ => usual member.2
  · exact usual 1
  · trivial
  · trivial

theorem paired_readings : pairedShelf.Settled ∧
    (∀ action ∈ pairedActions, action.Decisive pairedCaches pairedShelf) ∧
    (pairedCaches.get "/a/" (pairedActions.foldl (CacheAction.apply pairedCaches) pairedShelf)).1 =
      some "first" := by
  refine ⟨pairedShelf_settled, pairedActions_decisive, ?_⟩
  obtain ⟨_, first, _⟩ := readings_see_last_writes pairedShelf_settled pairedActions_decisive
  rw [first]
  decide

end TwoPhase
