/-
Finite maps from names to values, kept in ascending order of the names; names compare by
code point. `Entries` works on bare lists, since recursive types can hold only those.
`NameMap` carries the order with the list, so equal look-ups make equal maps.
-/
namespace TwoPhase

namespace Entries
variable {α β : Type}

def get? (name : String) : List (String × α) → Option α
  | [] => none
  | (key, value) :: rest => if key = name then some value else get? name rest

/-- A name already present keeps its place and gets the new value. -/
def insert (name : String) (value : α) : List (String × α) → List (String × α)
  | [] => [(name, value)]
  | (key, old) :: rest =>
    if name = key then (name, value) :: rest
    else if name < key then (name, value) :: (key, old) :: rest
    else (key, old) :: insert name value rest

def erase (name : String) : List (String × α) → List (String × α)
  | [] => []
  | (key, value) :: rest => if key = name then erase name rest else (key, value) :: erase name rest

/-- Of several entries with one name the last wins. -/
def ofList (entries : List (String × α)) : List (String × α) :=
  entries.foldl (fun sorted entry => insert entry.1 entry.2 sorted) []

def Ordered (entries : List (String × α)) : Prop :=
  entries.Pairwise fun a b => a.1 < b.1

@[simp] theorem get?_nil (name : String) : get? name ([] : List (String × α)) = none := rfl

theorem get?_insert (name other : String) (value : α) (entries : List (String × α)) :
    get? other (insert name value entries)
      = if name = other then some value else get? other entries := by
  induction entries with
  | nil => simp [insert, get?]
  | cons entry rest ih =>
    obtain ⟨key, old⟩ := entry
    by_cases same : name = key
    · subst same
      by_cases hit : name = other <;> simp [insert, get?, hit]
    · by_cases before : name < key
      · simp only [insert, if_neg same, if_pos before, get?]
      · simp only [insert, if_neg same, if_neg before, get?, ih]
        by_cases hit : key = other
        · have miss : ¬ name = other := fun eq => same (eq.trans hit.symm)
          simp only [if_pos hit, if_neg miss]
        · simp [hit]

theorem get?_erase (name other : String) (entries : List (String × α)) :
    get? other (erase name entries)
      = if name = other then none else get? other entries := by
  induction entries with
  | nil => simp [erase]
  | cons entry rest ih =>
    obtain ⟨key, value⟩ := entry
    by_cases same : key = name
    · subst same
      rw [erase, if_pos rfl, ih]
      by_cases hit : key = other <;> simp [get?, hit]
    · by_cases hit : key = other
      · subst hit
        simp [erase, get?, same, Ne.symm same]
      · simp [erase, get?, same, hit, ih]

theorem mem_of_mem_erase {name : String} {entries : List (String × α)} {entry : String × α}
    (member : entry ∈ erase name entries) : entry ∈ entries ∧ entry.1 ≠ name := by
  induction entries with
  | nil => simp [erase] at member
  | cons first rest ih =>
    obtain ⟨key, value⟩ := first
    simp only [erase] at member
    split at member
    · exact (ih member).imp (List.mem_cons_of_mem _) id
    · next differs =>
      rcases List.mem_cons.1 member with rfl | tail
      · exact ⟨List.mem_cons_self, differs⟩
      · exact (ih tail).imp (List.mem_cons_of_mem _) id

theorem mem_insert {name : String} {value : α} {entries : List (String × α)}
    {entry : String × α} (member : entry ∈ insert name value entries) :
    entry = (name, value) ∨ entry ∈ entries := by
  induction entries with
  | nil => exact Or.inl (by simpa [insert] using member)
  | cons first rest ih =>
    obtain ⟨key, old⟩ := first
    simp only [insert] at member
    split at member
    · rcases List.mem_cons.1 member with rfl | tail
      · exact Or.inl rfl
      · exact Or.inr (List.mem_cons_of_mem _ tail)
    · split at member
      · rcases List.mem_cons.1 member with rfl | tail
        · exact Or.inl rfl
        · exact Or.inr tail
      · rcases List.mem_cons.1 member with rfl | tail
        · exact Or.inr List.mem_cons_self
        · exact (ih tail).imp id (List.mem_cons_of_mem _)

theorem name_lt_of_not_le {name key : String} (differs : ¬ name = key) (after : ¬ name < key) :
    key < name :=
  Classical.byContradiction fun notAbove =>
    differs (String.le_antisymm (String.not_lt.1 notAbove) (String.not_lt.1 after))

theorem insert_ordered (name : String) (value : α) (entries : List (String × α))
    (ordered : Ordered entries) : Ordered (insert name value entries) := by
  induction entries with
  | nil => simp [insert, Ordered]
  | cons entry rest ih =>
    obtain ⟨key, old⟩ := entry
    obtain ⟨above, tail⟩ := List.pairwise_cons.1 ordered
    simp only [insert]
    split
    · next same =>
      subst same
      exact List.pairwise_cons.2 ⟨above, tail⟩
    · next differs =>
      split
      · next before =>
        refine List.pairwise_cons.2 ⟨?_, ordered⟩
        intro later member
        rcases List.mem_cons.1 member with rfl | inRest
        · exact before
        · exact String.lt_trans before (above later inRest)
      · next after =>
        refine List.pairwise_cons.2 ⟨?_, ih tail⟩
        intro later member
        rcases mem_insert member with rfl | inRest
        · exact name_lt_of_not_le differs after
        · exact above later inRest

theorem erase_ordered (name : String) (entries : List (String × α)) (ordered : Ordered entries) :
    Ordered (erase name entries) := by
  induction entries with
  | nil => exact ordered
  | cons entry rest ih =>
    obtain ⟨key, value⟩ := entry
    obtain ⟨above, tail⟩ := List.pairwise_cons.1 ordered
    simp only [erase]
    split
    · exact ih tail
    · exact List.pairwise_cons.2 ⟨fun later member => above later (mem_of_mem_erase member).1, ih tail⟩

theorem foldl_insert_ordered (more entries : List (String × α)) (ordered : Ordered entries) :
    Ordered (more.foldl (fun sorted entry => insert entry.1 entry.2 sorted) entries) := by
  induction more generalizing entries with
  | nil => exact ordered
  | cons entry more ih => exact ih _ (insert_ordered _ _ _ ordered)

theorem ofList_ordered (entries : List (String × α)) : Ordered (ofList entries) :=
  foldl_insert_ordered entries [] List.Pairwise.nil

theorem map_ordered (f : String → α → β) (entries : List (String × α)) (ordered : Ordered entries) :
    Ordered (entries.map fun entry => (entry.1, f entry.1 entry.2)) := by
  rw [Ordered, List.pairwise_map]
  exact ordered

theorem get?_map (f : String → α → β) (name : String) (entries : List (String × α)) :
    get? name (entries.map fun entry => (entry.1, f entry.1 entry.2)) =
      (get? name entries).map (f name) := by
  induction entries with
  | nil => rfl
  | cons entry rest ih =>
    obtain ⟨key, value⟩ := entry
    by_cases same : key = name
    · subst same
      simp [get?]
    · simp [get?, same, ih]

theorem get?_eq_none_of_lt {name : String} {entries : List (String × α)}
    (above : ∀ entry ∈ entries, name < entry.1) : get? name entries = none := by
  induction entries with
  | nil => rfl
  | cons entry rest ih =>
    obtain ⟨key, value⟩ := entry
    have differs : ¬ key = name := by
      intro same
      exact String.lt_irrefl name (same ▸ above (key, value) List.mem_cons_self)
    rw [get?, if_neg differs]
    exact ih fun later member => above later (List.mem_cons_of_mem _ member)

theorem mem_of_get? {entries : List (String × α)} {name : String} {value : α}
    (found : get? name entries = some value) : (name, value) ∈ entries := by
  induction entries with
  | nil => cases found
  | cons entry rest ih =>
    obtain ⟨key, old⟩ := entry
    rw [get?] at found
    split at found
    · next same =>
      cases found
      exact same ▸ List.mem_cons_self
    · exact List.mem_cons_of_mem _ (ih found)

theorem get?_isSome_of_mem {entries : List (String × α)} {entry : String × α}
    (member : entry ∈ entries) : (get? entry.1 entries).isSome = true := by
  induction entries with
  | nil => cases member
  | cons first rest ih =>
    rw [get?]
    split
    · rfl
    · next differs =>
      rcases List.mem_cons.1 member with rfl | later
      · exact absurd rfl differs
      · exact ih later

theorem get?_of_mem {entries : List (String × α)} (ordered : Ordered entries) {name : String}
    {value : α} (member : (name, value) ∈ entries) : get? name entries = some value := by
  induction entries with
  | nil => cases member
  | cons first rest ih =>
    obtain ⟨before, later⟩ := List.pairwise_cons.1 ordered
    rcases List.mem_cons.1 member with rfl | inRest
    · exact if_pos rfl
    · have above : first.1 < name := before _ inRest
      have differs : first.1 ≠ name := fun same => String.lt_irrefl name (same ▸ above)
      rw [get?, if_neg differs, ih later inRest]

theorem eq_of_get?_eq {a b : List (String × α)} (left : Ordered a) (right : Ordered b)
    (same : ∀ name, get? name a = get? name b) : a = b := by
  induction a generalizing b with
  | nil =>
    cases b with
    | nil => rfl
    | cons entry rest => simpa [get?] using same entry.1
  | cons entry a ih =>
    cases b with
    | nil => simpa [get?] using same entry.1
    | cons other b =>
      obtain ⟨key, value⟩ := entry
      obtain ⟨name, held⟩ := other
      obtain ⟨aboveKey, tailA⟩ := List.pairwise_cons.1 left
      obtain ⟨aboveName, tailB⟩ := List.pairwise_cons.1 right
      have keyHeld : (key, value) ∈ (name, held) :: b :=
        mem_of_get? ((same key).symm.trans (by simp [get?]))
      have nameHeld : (name, held) ∈ (key, value) :: a :=
        mem_of_get? ((same name).trans (by simp [get?]))
      have head : (key, value) = (name, held) := by
        rcases List.mem_cons.1 keyHeld with equal | later
        · exact equal
        · rcases List.mem_cons.1 nameHeld with equal | further
          · exact equal.symm
          · exact absurd (String.lt_trans (aboveName _ later) (aboveKey _ further))
              (String.lt_irrefl name)
      cases head
      congr 1
      apply ih tailA tailB
      intro wanted
      have known := same wanted
      by_cases hit : key = wanted
      · subst hit
        rw [get?_eq_none_of_lt aboveKey, get?_eq_none_of_lt aboveName]
      · simpa [get?, hit] using known

theorem mem_insert_self (name : String) (value : α) (entries : List (String × α)) :
    (name, value) ∈ insert name value entries := by
  apply mem_of_get?
  rw [get?_insert, if_pos rfl]

theorem mem_insert_of_mem {name : String} {value : α} {entries : List (String × α)}
    {entry : String × α} (member : entry ∈ entries) (differs : entry.1 ≠ name) :
    entry ∈ insert name value entries := by
  induction entries with
  | nil => cases member
  | cons first rest ih =>
    obtain ⟨key, old⟩ := first
    simp only [insert]
    split
    · next same =>
      rcases List.mem_cons.1 member with rfl | later
      · exact absurd same.symm differs
      · exact List.mem_cons_of_mem _ later
    · split
      · exact List.mem_cons_of_mem _ member
      · rcases List.mem_cons.1 member with rfl | later
        · exact List.mem_cons_self
        · exact List.mem_cons_of_mem _ (ih later)

theorem map_insert (f : α → β) (name : String) (value : α) (entries : List (String × α)) :
    (insert name value entries).map (fun entry => (entry.1, f entry.2)) =
      insert name (f value) (entries.map fun entry => (entry.1, f entry.2)) := by
  induction entries with
  | nil => rfl
  | cons first rest ih =>
    obtain ⟨key, old⟩ := first
    by_cases same : name = key
    · simp [insert, same]
    · by_cases before : name < key
      · simp [insert, same, before]
      · simp [insert, same, before, ih]

theorem map_foldl_insert (f : α → β) (more sorted : List (String × α)) :
    (more.foldl (fun sorted entry => insert entry.1 entry.2 sorted) sorted).map
        (fun entry => (entry.1, f entry.2)) =
      (more.map fun entry => (entry.1, f entry.2)).foldl
        (fun sorted entry => insert entry.1 entry.2 sorted)
        (sorted.map fun entry => (entry.1, f entry.2)) := by
  induction more generalizing sorted with
  | nil => rfl
  | cons entry more ih =>
    rw [List.foldl_cons, ih, map_insert]
    rfl

theorem map_ofList (f : α → β) (entries : List (String × α)) :
    (ofList entries).map (fun entry => (entry.1, f entry.2)) =
      ofList (entries.map fun entry => (entry.1, f entry.2)) :=
  map_foldl_insert f entries []

theorem mem_of_mem_foldl_insert {more sorted : List (String × α)} {entry : String × α}
    (member : entry ∈ more.foldl (fun sorted entry => insert entry.1 entry.2 sorted) sorted) :
    entry ∈ sorted ∨ entry ∈ more := by
  induction more generalizing sorted with
  | nil => exact Or.inl member
  | cons first more ih =>
    rcases ih member with inserted | later
    · rcases mem_insert inserted with new | old
      · exact Or.inr (new ▸ List.mem_cons_self)
      · exact Or.inl old
    · exact Or.inr (List.mem_cons_of_mem _ later)

theorem mem_of_mem_ofList {entries : List (String × α)} {entry : String × α}
    (member : entry ∈ ofList entries) : entry ∈ entries := by
  rcases mem_of_mem_foldl_insert member with impossible | listed
  · cases impossible
  · exact listed

theorem mem_foldl_insert {more sorted : List (String × α)} {entry : String × α}
    (single : ∀ a, a ∈ sorted ∨ a ∈ more → ∀ b, b ∈ sorted ∨ b ∈ more → a.1 = b.1 → a = b) :
    entry ∈ more.foldl (fun sorted entry => insert entry.1 entry.2 sorted) sorted ↔
      entry ∈ sorted ∨ entry ∈ more := by
  induction more generalizing sorted with
  | nil => simp
  | cons first more ih =>
    have inserted : ∀ other, other ∈ insert first.1 first.2 sorted ↔ other = first ∨ other ∈ sorted := by
      intro other
      constructor
      · exact mem_insert
      · intro member
        by_cases same : other.1 = first.1
        · have equal : other = first := by
            rcases member with equal | old
            · exact equal
            · exact single other (Or.inl old) first (Or.inr List.mem_cons_self) same
          rw [equal]
          exact mem_insert_self _ _ _
        · rcases member with equal | old
          · exact absurd (congrArg Prod.fst equal) same
          · exact mem_insert_of_mem old same
    have among : ∀ other, (other ∈ insert first.1 first.2 sorted ∨ other ∈ more) ↔
        (other ∈ sorted ∨ other ∈ first :: more) := by
      intro other
      rw [inserted, List.mem_cons, or_comm (a := other = first), or_assoc]
    rw [List.foldl_cons, ih, among]
    intro a left b right
    exact single a ((among a).1 left) b ((among b).1 right)

theorem mem_ofList {entries : List (String × α)} {entry : String × α}
    (single : ∀ a ∈ entries, ∀ b ∈ entries, a.1 = b.1 → a = b) :
    entry ∈ ofList entries ↔ entry ∈ entries := by
  unfold ofList
  rw [mem_foldl_insert]
  · simp
  · intro a left b right
    exact single a (by simpa using left) b (by simpa using right)

theorem insert_last {name : String} (value : α) {entries : List (String × α)}
    (below : ∀ entry ∈ entries, entry.1 < name) :
    insert name value entries = entries ++ [(name, value)] := by
  induction entries with
  | nil => rfl
  | cons entry rest ih =>
    obtain ⟨key, old⟩ := entry
    have before : key < name := below (key, old) List.mem_cons_self
    have differs : ¬ name = key := fun same => String.lt_irrefl name (same ▸ before)
    have after : ¬ name < key := fun above => String.lt_irrefl name (String.lt_trans above before)
    have later := ih fun entry member => below entry (List.mem_cons_of_mem _ member)
    rw [insert, if_neg differs, if_neg after, later]
    rfl

theorem foldl_insert_of_ordered {more sorted : List (String × α)}
    (ordered : Ordered (sorted ++ more)) :
    more.foldl (fun sorted entry => insert entry.1 entry.2 sorted) sorted = sorted ++ more := by
  induction more generalizing sorted with
  | nil => simp
  | cons entry more ih =>
    have below : ∀ other ∈ sorted, other.1 < entry.1 := fun other member =>
      (List.pairwise_append.1 ordered).2.2 other member entry List.mem_cons_self
    rw [List.foldl_cons, insert_last entry.2 below, ih (by simpa using ordered)]
    simp

theorem ofList_of_ordered {entries : List (String × α)} (ordered : Ordered entries) :
    ofList entries = entries :=
  foldl_insert_of_ordered ordered

theorem find?_insert {p : String × α → Bool} {name : String} {value : α}
    {entries : List (String × α)} (others : ∀ entry ∈ entries, p entry = false)
    (hit : p (name, value) = true) : (insert name value entries).find? p = some (name, value) := by
  induction entries with
  | nil => simp [insert, hit]
  | cons first rest ih =>
    obtain ⟨key, old⟩ := first
    have miss : p (key, old) = false := others _ List.mem_cons_self
    have later := ih fun entry member => others entry (List.mem_cons_of_mem _ member)
    simp only [insert]
    split
    · exact List.find?_cons_of_pos hit
    · split
      · exact List.find?_cons_of_pos hit
      · rw [List.find?_cons_of_neg (by simp [miss]), later]

theorem names_nodup {entries : List (String × α)} (ordered : Ordered entries) :
    (entries.map Prod.fst).Nodup := by
  rw [List.nodup_iff_pairwise_ne, List.pairwise_map]
  refine ordered.imp ?_
  intro a b before same
  exact String.lt_irrefl _ (same ▸ before)

theorem filter_ordered (keep : String → Bool) {entries : List (String × α)} (ordered : Ordered entries) :
    Ordered (entries.filter fun entry => keep entry.1) :=
  List.Pairwise.filter _ ordered

theorem get?_filter (keep : String → Bool) (name : String) (entries : List (String × α)) :
    get? name (entries.filter fun entry => keep entry.1) =
      if keep name = true then get? name entries else none := by
  induction entries with
  | nil => simp
  | cons entry rest ih =>
    obtain ⟨key, value⟩ := entry
    by_cases same : key = name
    · subst same
      by_cases kept : keep key = true
      · simp [get?, kept]
      · simp [kept, ih]
    · by_cases kept : keep key = true
      · simp [get?, kept, same, ih]
      · simp [get?, kept, same, ih]

theorem filter_insert (keep : String → Bool) (name : String) (value : α)
    {entries : List (String × α)} (ordered : Ordered entries) :
    (insert name value entries).filter (fun entry => keep entry.1) =
      if keep name = true then insert name value (entries.filter fun entry => keep entry.1)
      else entries.filter fun entry => keep entry.1 := by
  have left := filter_ordered keep (insert_ordered name value entries ordered)
  by_cases kept : keep name = true
  · rw [if_pos kept]
    apply eq_of_get?_eq left (insert_ordered _ _ _ (filter_ordered keep ordered))
    intro other
    rw [get?_filter, get?_insert, get?_insert, get?_filter]
    by_cases same : name = other
    · subst same
      simp [kept]
    · simp [same]
  · rw [if_neg kept]
    apply eq_of_get?_eq left (filter_ordered keep ordered)
    intro other
    rw [get?_filter, get?_insert, get?_filter]
    by_cases same : name = other
    · subst same
      simp [kept]
    · simp [same]

theorem filter_erase (keep : String → Bool) (name : String) {entries : List (String × α)}
    (ordered : Ordered entries) : (erase name entries).filter (fun entry => keep entry.1) =
      erase name (entries.filter fun entry => keep entry.1) := by
  apply eq_of_get?_eq (filter_ordered keep (erase_ordered name entries ordered))
    (erase_ordered name _ (filter_ordered keep ordered))
  intro other
  rw [get?_filter, get?_erase, get?_erase, get?_filter]
  by_cases same : name = other
  · simp [same]
  · simp [same]

theorem erase_of_absent {name : String} {entries : List (String × α)}
    (absent : get? name entries = none) : erase name entries = entries := by
  induction entries with
  | nil => rfl
  | cons entry rest ih =>
    obtain ⟨key, value⟩ := entry
    by_cases same : key = name
    · simp [get?, same] at absent
    · rw [get?, if_neg same] at absent
      rw [erase, if_neg same, ih absent]

theorem erase_first {name : String} {value : α} {rest : List (String × α)}
    (ordered : Ordered ((name, value) :: rest)) : erase name ((name, value) :: rest) = rest := by
  have above := (List.pairwise_cons.1 ordered).1
  rw [erase, if_pos rfl, erase_of_absent (get?_eq_none_of_lt above)]

end Entries

structure NameMap (α : Type) where
  entries : List (String × α)
  ordered : Entries.Ordered entries

namespace NameMap
variable {α β : Type}

def empty : NameMap α := ⟨[], List.Pairwise.nil⟩

instance : EmptyCollection (NameMap α) := ⟨empty⟩
instance : Inhabited (NameMap α) := ⟨empty⟩

def get? (map : NameMap α) (name : String) : Option α := Entries.get? name map.entries

def contains (map : NameMap α) (name : String) : Bool := (map.get? name).isSome

def insert (map : NameMap α) (name : String) (value : α) : NameMap α :=
  ⟨Entries.insert name value map.entries, Entries.insert_ordered _ _ _ map.ordered⟩

def erase (map : NameMap α) (name : String) : NameMap α :=
  ⟨Entries.erase name map.entries, Entries.erase_ordered _ _ map.ordered⟩

def ofList (entries : List (String × α)) : NameMap α :=
  ⟨Entries.ofList entries, Entries.ofList_ordered entries⟩

def names (map : NameMap α) : List String := map.entries.map Prod.fst

def values (map : NameMap α) : List α := map.entries.map Prod.snd

def size (map : NameMap α) : Nat := map.entries.length

def isEmpty (map : NameMap α) : Bool := map.entries.isEmpty

def map (f : String → α → β) (source : NameMap α) : NameMap β :=
  ⟨source.entries.map fun entry => (entry.1, f entry.1 entry.2),
    Entries.map_ordered f _ source.ordered⟩

theorem ext_entries {a b : NameMap α} (same : a.entries = b.entries) : a = b := by
  cases a; cases b; cases same; rfl

theorem ext_get? {a b : NameMap α} (same : ∀ name, a.get? name = b.get? name) : a = b :=
  ext_entries (Entries.eq_of_get?_eq a.ordered b.ordered same)

@[simp] theorem get?_empty (name : String) : (empty : NameMap α).get? name = none := rfl

theorem get?_insert (map : NameMap α) (name other : String) (value : α) :
    (map.insert name value).get? other = if name = other then some value else map.get? other :=
  Entries.get?_insert name other value map.entries

theorem get?_erase (map : NameMap α) (name other : String) :
    (map.erase name).get? other = if name = other then none else map.get? other :=
  Entries.get?_erase name other map.entries

theorem get?_map (f : String → α → β) (map : NameMap α) (name : String) :
    (map.map f).get? name = (map.get? name).map (f name) :=
  Entries.get?_map f name map.entries

theorem mem_names {map : NameMap α} {name : String} :
    name ∈ map.names ↔ (map.get? name).isSome = true := by
  unfold names get?
  rw [List.mem_map]
  constructor
  · rintro ⟨entry, member, rfl⟩
    exact Entries.get?_isSome_of_mem member
  · intro held
    obtain ⟨value, found⟩ := Option.isSome_iff_exists.1 held
    exact ⟨(name, value), Entries.mem_of_get? found, rfl⟩

theorem mem_values {map : NameMap α} {value : α} :
    value ∈ map.values ↔ ∃ name, map.get? name = some value := by
  unfold values get?
  rw [List.mem_map]
  constructor
  · rintro ⟨entry, member, rfl⟩
    exact ⟨entry.1, Entries.get?_of_mem map.ordered member⟩
  · rintro ⟨name, found⟩
    exact ⟨(name, value), Entries.mem_of_get? found, rfl⟩

theorem mem_names_ofList {params : List String} {name : String} :
    name ∈ (NameMap.ofList (params.map (·, ()))).names ↔ name ∈ params := by
  have listed : ∀ entry, entry ∈ (NameMap.ofList (params.map (·, ()))).entries ↔
      entry ∈ params.map (·, ()) := fun _ =>
    Entries.mem_ofList fun a _ b _ same => Prod.ext same rfl
  unfold names
  simp [listed]

theorem names_congr {a : NameMap α} {b : NameMap β}
    (same : ∀ name, name ∈ a.names ↔ name ∈ b.names) : a.names = b.names := by
  have units : (a.map fun _ _ => ()) = b.map fun _ _ => () := by
    apply ext_get?
    intro name
    have held := same name
    rw [mem_names, mem_names] at held
    rw [get?_map, get?_map]
    cases left : a.get? name <;> cases right : b.get? name <;> simp_all
  simpa [names, map, Function.comp_def] using congrArg names units

end NameMap
end TwoPhase
