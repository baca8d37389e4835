import TwoPhase.Cache

/-
The shelf as a map from positions and keys to entries. A reading takes away at most an entry that
has expired, a write sets one entry, and what is written through a set of stores stands in each
of them afterwards, under its key and no other. So an entry that never expires stays until its
key is written or deleted, and a reading finds it.
-/
namespace TwoPhase

namespace Store
variable (store : Store) (now : Nat) (key name : String)

theorem get_spec : (store.get now key).1 =
      ((store.entries.get? key).filter fun entry => !entry.isExpired now).map CacheEntry.content ∧
    ∀ name, (store.get now key).2.entries.get? name =
      if key = name then (store.entries.get? name).filter fun entry => !entry.isExpired now
      else store.entries.get? name := by
  unfold get
  cases found : store.entries.get? key with
  | none =>
    refine ⟨rfl, fun name => ?_⟩
    by_cases named : key = name
    · rw [if_pos named, ← named, found]
      rfl
    · rw [if_neg named]
  | some entry =>
    dsimp only
    by_cases expired : entry.isExpired now = true
    · rw [if_pos expired]
      refine ⟨by simp [Option.filter, expired], fun name => ?_⟩
      refine (NameMap.get?_erase _ _ _).trans ?_
      by_cases named : key = name
      · rw [if_pos named, if_pos named, ← named, found]
        simp [Option.filter, expired]
      · rw [if_neg named, if_neg named]
    · rw [if_neg expired]
      refine ⟨by simp [Option.filter, expired], fun name => ?_⟩
      by_cases named : key = name
      · rw [if_pos named, ← named, found]
        simp [Option.filter, expired]
      · rw [if_neg named]

theorem get_defaultTimeout : (store.get now key).2.defaultTimeout = store.defaultTimeout := by
  unfold get
  split
  · rfl
  · split <;> rfl

theorem delete_spec (keys : List String) : (store.delete keys).entries.get? name =
    if name ∈ keys then none else store.entries.get? name := by
  unfold delete
  dsimp only
  generalize store.entries = entries
  induction keys generalizing entries with
  | nil => simp
  | cons key keys ih =>
    rw [List.foldl_cons, ih, NameMap.get?_erase]
    by_cases named : key = name
    · simp [named]
    · simp [named, Ne.symm named]

end Store

namespace Shelf
variable {shelf after : Shelf} {position : Nat}

/-- The entry that a store keeps under a key, expired or not. -/
def kept? (shelf : Shelf) (position : Nat) (key : String) : Option CacheEntry :=
  shelf.stores[position]?.bind (·.entries.get? key)

def Changes (shelf : Shelf) (position : Nat) (change : Store → Store) (after : Shelf) : Prop :=
  ∀ place, after.stores[place]? =
    if position = place then shelf.stores[place]?.map change else shelf.stores[place]?

theorem update_changes {store : Store} {change : Store → Store}
    (found : shelf.stores[position]? = some store) :
    shelf.Changes position change (shelf.update position (change store)) := by
  intro place
  unfold update
  dsimp only
  rw [List.getElem?_set']
  by_cases same : position = place
  · subst same
    rw [if_pos rfl, if_pos rfl, found]
    rfl
  · rw [if_neg same, if_neg same]

theorem changes_nothing {change : Store → Store} (absent : shelf.stores[position]? = none) :
    shelf.Changes position change shelf := by
  intro place
  by_cases same : position = place
  · subst same
    rw [if_pos rfl, absent]
    rfl
  · rw [if_neg same]

theorem get_changes (shelf : Shelf) (position : Nat) (key : String) :
    shelf.Changes position (fun store => (store.get shelf.now key).2) (shelf.get position key).2 := by
  unfold get
  cases found : shelf.stores[position]? with
  | none => exact changes_nothing found
  | some store => exact update_changes found

theorem put_changes (shelf : Shelf) (position : Nat) (key content : String) (timeout : Option Nat) :
    shelf.Changes position (·.put shelf.now key content timeout)
      (shelf.put position key content timeout) := by
  unfold put
  cases found : shelf.stores[position]? with
  | none => exact changes_nothing found
  | some store =>
    have written : shelf.Changes position (·.put shelf.now key content timeout)
        (shelf.update position (store.put shelf.now key content timeout)) := update_changes found
    exact written

theorem modify_changes (shelf : Shelf) (position : Nat) (change : Store → Store) :
    shelf.Changes position change { shelf with stores := shelf.stores.modify position change } := by
  intro place
  rw [List.getElem?_modify]
  by_cases same : position = place
  · simp only [if_pos same]
    rfl
  · simp only [if_neg same, id_map']

namespace Changes
variable {change : Store → Store} (changes : shelf.Changes position change after)
include changes

theorem kept?_eq (place : Nat) (key : String) :
    after.kept? place key =
      if position = place then
        shelf.stores[place]?.bind fun store => (change store).entries.get? key
      else shelf.kept? place key := by
  unfold kept?
  rw [changes place]
  by_cases same : position = place
  · rw [if_pos same, if_pos same, Option.bind_map]
    rfl
  · rw [if_neg same, if_neg same]

theorem defaultTimeout_eq (kept : ∀ store, (change store).defaultTimeout = store.defaultTimeout)
    (place : Nat) : after.stores[place]?.map Store.defaultTimeout =
      shelf.stores[place]?.map Store.defaultTimeout := by
  rw [changes place]
  split
  · rw [Option.map_map]
    exact congrArg (Option.map · shelf.stores[place]?) (funext kept)
  · rfl

end Changes

section Entries
variable (shelf : Shelf) (position : Nat) (key : String) (place : Nat) (name : String)

theorem get_answer : (shelf.get position key).1 =
    ((shelf.kept? position key).filter fun entry => !entry.isExpired shelf.now).map
      CacheEntry.content := by
  unfold get kept?
  cases shelf.stores[position]? with
  | none => rfl
  | some store => exact (store.get_spec shelf.now key).1

theorem kept?_get : (shelf.get position key).2.kept? place name =
    if position = place ∧ key = name then
      (shelf.kept? place name).filter fun entry => !entry.isExpired shelf.now
    else shelf.kept? place name := by
  rw [(get_changes shelf position key).kept?_eq, kept?]
  by_cases same : position = place
  · rw [if_pos same]
    cases shelf.stores[place]? with
    | none => simp
    | some store =>
      refine ((store.get_spec shelf.now key).2 name).trans ?_
      simp [same]
  · simp [same]

theorem kept?_put (content : String) (timeout : Option Nat) :
    (shelf.put position key content timeout).kept? place name =
      if position = place ∧ key = name then
        shelf.stores[place]?.map fun store =>
          ⟨content, (timeout.or store.defaultTimeout).map (shelf.now + ·)⟩
      else shelf.kept? place name := by
  rw [(put_changes shelf position key content timeout).kept?_eq, kept?]
  by_cases same : position = place
  · rw [if_pos same]
    cases shelf.stores[place]? with
    | none => simp
    | some store =>
      refine (NameMap.get?_insert _ _ _ _).trans ?_
      by_cases named : key = name
      · simp [same, named, Store.expiry?]
      · simp [named]
  · simp [same]

theorem kept?_delete (keys : List String) : (shelf.delete position keys).kept? place name =
    if position = place ∧ name ∈ keys then none else shelf.kept? place name := by
  refine ((modify_changes shelf position (·.delete keys)).kept?_eq place name).trans ?_
  rw [kept?]
  by_cases same : position = place
  · rw [if_pos same]
    cases shelf.stores[place]? with
    | none => simp
    | some store =>
      refine (store.delete_spec name keys).trans ?_
      simp [same]
  · simp [same]

theorem kept?_clear : (shelf.clear position).kept? place name =
    if position = place then none else shelf.kept? place name := by
  refine ((modify_changes shelf position Store.clear).kept?_eq place name).trans ?_
  by_cases same : position = place
  · rw [if_pos same, if_pos same]
    cases shelf.stores[place]? <;> rfl
  · rw [if_neg same, if_neg same]

end Entries

theorem put_clock (shelf : Shelf) (position : Nat) (key content : String) (timeout : Option Nat) :
    (shelf.put position key content timeout).clock = shelf.clock := by
  unfold put
  split <;> rfl

section Keeping
variable {last : Shelf} {key : String}

def Lasts (shelf : Shelf) (position : Nat) (key : String) : Prop :=
  ∀ entry, shelf.kept? position key = some entry → entry.expiresAt = none

/-- Entries under the key that never expire are still there, and no others have come. -/
def Keeps (key : String) (shelf after : Shelf) : Prop :=
  ∀ position, shelf.Lasts position key → after.kept? position key = shelf.kept? position key

theorem Keeps.refl (key : String) (shelf : Shelf) : Keeps key shelf shelf := fun _ _ => rfl

theorem Keeps.trans (first : Keeps key shelf after) (second : Keeps key after last) :
    Keeps key shelf last := by
  intro position lasts
  have same := first position lasts
  have lasting : after.Lasts position key := by
    intro entry found
    exact lasts entry (same ▸ found)
  exact (second position lasting).trans same

theorem lasts_of_absent (absent : shelf.kept? position key = none) : shelf.Lasts position key := by
  intro entry found
  rw [absent] at found
  cases found

theorem Keeps.absent (keeps : Keeps key shelf after) (absent : shelf.kept? position key = none) :
    after.kept? position key = none :=
  (keeps position (lasts_of_absent absent)).trans absent

theorem Lasts.filter_live (lasts : shelf.Lasts position key) (now : Nat) :
    ((shelf.kept? position key).filter fun entry => !entry.isExpired now) =
      shelf.kept? position key := by
  cases found : shelf.kept? position key with
  | none => rfl
  | some entry =>
    have endless := lasts entry found
    simp [Option.filter, CacheEntry.isExpired, endless]

theorem get_keeps (shelf : Shelf) (position : Nat) (name key : String) :
    Keeps key shelf (shelf.get position name).2 := by
  intro place lasts
  rw [kept?_get, lasts.filter_live]
  exact ite_self _

theorem put_keeps (shelf : Shelf) (position : Nat) {name : String} (differs : name ≠ key)
    (content : String) (timeout : Option Nat) :
    Keeps key shelf (shelf.put position name content timeout) := by
  intro place _
  rw [kept?_put, if_neg fun both => differs both.2]

theorem delete_keeps (shelf : Shelf) (position : Nat) {keys : List String} (absent : key ∉ keys) :
    Keeps key shelf (shelf.delete position keys) := by
  intro place _
  rw [kept?_delete, if_neg fun both => absent both.2]

end Keeping

end Shelf

/-- Every store of the set keeps the text under the key, for as long as the timeout says, and nothing
else has changed. -/
structure CacheSet.Published (caches : CacheSet) (key content : String) (timeout : Option Nat)
    (before after : Shelf) : Prop where
  held : ∀ member ∈ caches.members, ∀ store, before.stores[member.2]? = some store →
    ∃ reading, after.kept? member.2 key =
      some ⟨content, (timeout.or store.defaultTimeout).map (before.clock reading + ·)⟩
  others : ∀ position name, name ≠ key → after.kept? position name = before.kept? position name
  outside : ∀ position, (∀ member ∈ caches.members, member.2 ≠ position) →
    after.stores[position]? = before.stores[position]?
  timeouts : ∀ position : Nat, after.stores[position]?.map Store.defaultTimeout =
    before.stores[position]?.map Store.defaultTimeout

namespace CacheSet

theorem Published.cons {members : List (String × Nat)} {cacheAlias key content : String}
    {position : Nat} {timeout : Option Nat} {before after : Shelf}
    (published : Published ⟨members⟩ key content timeout
      (before.put position key content timeout) after) :
    Published ⟨(cacheAlias, position) :: members⟩ key content timeout before after := by
  obtain ⟨held, others, outside, timeouts⟩ := published
  have changes := before.put_changes position key content timeout
  have defaults := changes.defaultTimeout_eq fun _ => rfl
  rw [Shelf.put_clock] at held
  constructor
  · intro member listed store found
    -- A store that occurs again later is written once more, and that text is the one it keeps.
    by_cases later : ∃ other ∈ members, other.2 = member.2
    · obtain ⟨other, inRest, same⟩ := later
      have kept := defaults member.2
      rw [found, Option.map_some] at kept
      obtain ⟨store', found', timeout'⟩ := Option.map_eq_some_iff.1 kept
      rw [← timeout', ← same]
      exact held other inRest store' (same ▸ found')
    · have here : position = member.2 := by
        rcases List.mem_cons.1 listed with rfl | inRest
        · rfl
        · exact absurd ⟨member, inRest, rfl⟩ later
      have kept := outside member.2 fun other inRest same => later ⟨other, inRest, same⟩
      have written := before.kept?_put position key member.2 key content timeout
      rw [if_pos ⟨here, rfl⟩, found, Option.map_some] at written
      refine ⟨before.readings, ?_⟩
      rw [← Shelf.now, ← written, Shelf.kept?, kept, Shelf.kept?]
  · intro place name differs
    refine (others place name differs).trans ?_
    rw [Shelf.kept?_put, if_neg fun both => differs both.2.symm]
  · intro place apart
    refine (outside place fun member inRest => apart member (List.mem_cons_of_mem _ inRest)).trans ?_
    rw [changes place, if_neg (apart _ List.mem_cons_self)]
  · intro place
    exact (timeouts place).trans (defaults place)

theorem put_published (caches : CacheSet) (key content : String) (timeout : Option Nat)
    (shelf : Shelf) :
    caches.Published key content timeout shelf (caches.put key content timeout shelf) := by
  obtain ⟨members⟩ := caches
  unfold put
  induction members generalizing shelf with
  | nil =>
    constructor
    · intro member listed
      cases listed
    · intros
      rfl
    · intros
      rfl
    · intros
      rfl
  | cons first rest ih => exact (ih (shelf.put first.2 key content timeout)).cons

section Reading
variable {caches : CacheSet} {shelf : Shelf} {key content : String}

theorem getFrom_holding (holds : Shelf → Prop)
    (each : ∀ shelf position, holds shelf → holds (shelf.get position key).2)
    (members : List (String × Nat)) {shelf : Shelf} (start : holds shelf) :
    holds (getFrom key members shelf).2 := by
  induction members generalizing shelf with
  | nil => exact start
  | cons member members ih =>
    obtain ⟨_, position⟩ := member
    have first := each shelf position start
    unfold getFrom
    generalize shelf.get position key = answer at first ⊢
    obtain ⟨hit, after⟩ := answer
    cases hit with
    | none => exact ih first
    | some content => exact first

theorem getFrom_keeps (members : List (String × Nat)) (shelf : Shelf) (name key : String) :
    Shelf.Keeps key shelf (getFrom name members shelf).2 :=
  getFrom_holding (Shelf.Keeps key shelf)
    (fun after position kept => kept.trans (after.get_keeps position name key)) members (.refl key shelf)

/-- Where a reading finds nothing, no store has an entry left, not even an expired one. -/
theorem getFrom_missed {members : List (String × Nat)} {shelf : Shelf}
    (missed : (getFrom key members shelf).1 = none) :
    ∀ member ∈ members, (getFrom key members shelf).2.kept? member.2 key = none := by
  induction members generalizing shelf with
  | nil => simp
  | cons first members ih =>
    obtain ⟨cacheAlias, position⟩ := first
    have answer := shelf.get_answer position key
    have entry := shelf.kept?_get position key position key
    rw [if_pos ⟨rfl, rfl⟩] at entry
    unfold getFrom at missed ⊢
    generalize shelf.get position key = got at answer entry missed ⊢
    obtain ⟨hit, after⟩ := got
    cases hit with
    | some content => cases missed
    | none =>
      have gone : after.kept? position key = none := by
        rw [entry]
        exact Option.map_eq_none_iff.1 answer.symm
      intro member listed
      by_cases later : member ∈ members
      · exact ih missed member later
      · have here : member = (cacheAlias, position) := (List.mem_cons.1 listed).resolve_right later
        rw [here]
        exact (getFrom_keeps members after key key).absent gone

theorem getFrom_absent {members : List (String × Nat)} {shelf : Shelf}
    (absent : ∀ member ∈ members, shelf.kept? member.2 key = none) :
    (getFrom key members shelf).1 = none := by
  induction members generalizing shelf with
  | nil => rfl
  | cons first members ih =>
    obtain ⟨_, position⟩ := first
    have answer := shelf.get_answer position key
    have kept := shelf.get_keeps position key key
    rw [absent _ List.mem_cons_self] at answer
    unfold getFrom
    generalize shelf.get position key = got at answer kept ⊢
    obtain ⟨hit, after⟩ := got
    cases answer
    apply ih
    intro member later
    exact kept.absent (absent member (List.mem_cons_of_mem _ later))

theorem getFrom_found {members : List (String × Nat)} {shelf : Shelf}
    (same : ∀ member ∈ members, ∀ entry, shelf.kept? member.2 key = some entry →
      entry = ⟨content, none⟩)
    (held : ∃ member ∈ members, shelf.kept? member.2 key ≠ none) :
    (getFrom key members shelf).1 = some content := by
  induction members generalizing shelf with
  | nil => simp at held
  | cons first members ih =>
    obtain ⟨cacheAlias, position⟩ := first
    have lasts : ∀ member ∈ (cacheAlias, position) :: members, shelf.Lasts member.2 key := by
      intro member listed entry found
      rw [same member listed entry found]
    have answer := shelf.get_answer position key
    have kept := shelf.get_keeps position key key
    rw [(lasts _ List.mem_cons_self).filter_live] at answer
    unfold getFrom
    generalize shelf.get position key = got at answer kept ⊢
    obtain ⟨hit, after⟩ := got
    cases found : shelf.kept? position key with
    | some entry =>
      rw [found, same _ List.mem_cons_self entry found] at answer
      cases answer
      rfl
    | none =>
      rw [found] at answer
      cases answer
      have entries : ∀ member ∈ members, after.kept? member.2 key = shelf.kept? member.2 key :=
        fun member later => kept member.2 (lasts member (List.mem_cons_of_mem _ later))
      apply ih
      · intro member later entry left
        rw [entries member later] at left
        exact same member (List.mem_cons_of_mem _ later) entry left
      · obtain ⟨member, listed, entry⟩ := held
        rcases List.mem_cons.1 listed with rfl | later
        · exact absurd found entry
        · exact ⟨member, later, by rwa [entries member later]⟩

theorem put_keeps (caches : CacheSet) (shelf : Shelf) {name : String} (differs : name ≠ key)
    (content : String) (timeout : Option Nat) :
    Shelf.Keeps key shelf (caches.put name content timeout shelf) := by
  intro position _
  exact (caches.put_published name content timeout shelf).others position key (Ne.symm differs)

theorem getFrom_defaultTimeout (members : List (String × Nat)) (shelf : Shelf) (key : String)
    (place : Nat) : (getFrom key members shelf).2.stores[place]?.map Store.defaultTimeout =
      shelf.stores[place]?.map Store.defaultTimeout :=
  getFrom_holding (fun after => after.stores[place]?.map Store.defaultTimeout =
      shelf.stores[place]?.map Store.defaultTimeout)
    (fun after position kept => ((after.get_changes position key).defaultTimeout_eq
      (fun store => store.get_defaultTimeout after.now key) place).trans kept) members rfl

end Reading
end CacheSet
end TwoPhase
