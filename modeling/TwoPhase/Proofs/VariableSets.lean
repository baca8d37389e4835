import Mathlib.Data.List.Basic
import TwoPhase.Variable.Set

/-
A set of variables as a list. Sets built by insertion keep their two parts in step: the order
lists exactly the names that have an entry, each once, and every entry stands under the
identifier of its variable. So whatever is done to a set, it answers as the list of its
variables.
-/
namespace TwoPhase.VariableSet

structure InStep (set : VariableSet) : Prop where
  once : set.order.Nodup
  listed : ∀ name, name ∈ set.order ↔ set.contains name = true
  own : ∀ name v, set.get? name = some v → v.identifier = name

theorem empty_inStep : InStep {} where
  once := List.nodup_nil
  listed name := by
    constructor
    · intro member
      cases member
    · intro held
      cases held
  own name v found := by cases found

theorem get?_insert {set : VariableSet} {v : Variable} (new : set.contains v.identifier = false)
    (name : String) :
    (set.insert v).get? name = if v.identifier = name then some v else set.get? name := by
  unfold insert get?
  rw [if_neg (Bool.eq_false_iff.1 new)]
  exact NameMap.get?_insert _ _ _ _

theorem order_insert {set : VariableSet} {v : Variable} (new : set.contains v.identifier = false) :
    (set.insert v).order = set.order ++ [v.identifier] := by
  unfold insert
  rw [if_neg (Bool.eq_false_iff.1 new)]

theorem insert_of_contains {set : VariableSet} {v : Variable}
    (held : set.contains v.identifier = true) : set.insert v = set := by
  unfold insert
  rw [if_pos held]

theorem contains_insert {set : VariableSet} {v : Variable} {name : String} :
    (set.insert v).contains name = true ↔ v.identifier = name ∨ set.contains name = true := by
  cases held : set.contains v.identifier with
  | true =>
    rw [insert_of_contains held]
    exact ⟨Or.inr, fun served => served.elim (fun same => same ▸ held) id⟩
  | false =>
    change ((set.insert v).get? name).isSome = true ↔ _
    rw [get?_insert held]
    split
    · next same => simp [same]
    · next other => simp [other, contains, get?, NameMap.contains]

theorem contains_insertAll {set : VariableSet} {vars : List Variable} {name : String} :
    (set.insertAll vars).contains name = true ↔
      (∃ v ∈ vars, v.identifier = name) ∨ set.contains name = true := by
  unfold insertAll
  induction vars generalizing set with
  | nil => simp
  | cons v vars ih =>
    rw [List.foldl_cons, ih, contains_insert]
    simp only [List.mem_cons, exists_eq_or_imp]
    rw [← or_assoc, or_comm (b := v.identifier = name)]

theorem InStep.not_mem_order {set : VariableSet} (inStep : set.InStep) {name : String}
    (new : set.contains name = false) : name ∉ set.order := by
  intro member
  rw [(inStep.listed name).1 member] at new
  cases new

theorem insert_inStep {set : VariableSet} (inStep : set.InStep) (v : Variable) :
    (set.insert v).InStep := by
  cases held : set.contains v.identifier with
  | true => rwa [insert_of_contains held]
  | false =>
    have absent := inStep.not_mem_order held
    constructor
    · rw [order_insert held, List.nodup_append]
      refine ⟨inStep.once, by simp, ?_⟩
      intro name member other single same
      rw [List.mem_singleton.1 single] at same
      exact absent (same ▸ member)
    · intro name
      change name ∈ (set.insert v).order ↔ ((set.insert v).get? name).isSome = true
      rw [order_insert held, get?_insert held, List.mem_append, List.mem_singleton]
      by_cases same : v.identifier = name
      · simp [same]
      · have listed : name ∈ set.order ↔ (set.get? name).isSome = true := inStep.listed name
        simp [same, listed, Ne.symm same]
    · intro name w found
      rw [get?_insert held] at found
      split at found
      · next same =>
        cases found
        exact same
      · exact inStep.own name w found

theorem toList_insert {set : VariableSet} (inStep : set.InStep) {v : Variable}
    (new : set.contains v.identifier = false) : (set.insert v).toList = set.toList ++ [v] := by
  have absent := inStep.not_mem_order new
  unfold toList
  rw [order_insert new, List.filterMap_append]
  congr 1
  · apply List.filterMap_congr
    intro name member
    rw [get?_insert new, if_neg]
    intro same
    exact absent (same ▸ member)
  · simp [get?_insert new]

theorem insertAll_eq (vars : List Variable) {set : VariableSet} (inStep : set.InStep)
    (fresh : ∀ v ∈ vars, set.contains v.identifier = false)
    (apart : (vars.map Variable.identifier).Nodup) :
    (set.insertAll vars).InStep ∧ (set.insertAll vars).toList = set.toList ++ vars := by
  induction vars generalizing set with
  | nil => exact ⟨inStep, (List.append_nil _).symm⟩
  | cons v vars ih =>
    rw [List.map_cons, List.nodup_cons] at apart
    have new := fresh v List.mem_cons_self
    have later : ∀ w ∈ vars, (set.insert v).contains w.identifier = false := by
      intro w member
      have differs : v.identifier ≠ w.identifier := by
        intro same
        exact apart.1 (same ▸ List.mem_map_of_mem member)
      have absent := fresh w (List.mem_cons_of_mem _ member)
      change ((set.insert v).get? w.identifier).isSome = false
      rw [get?_insert new, if_neg differs]
      exact absent
    have done := ih (insert_inStep inStep v) later apart.2
    rw [toList_insert inStep new, List.append_assoc] at done
    exact done

theorem toList_ofList {vars : List Variable} (apart : (vars.map Variable.identifier).Nodup) :
    (ofList vars).toList = vars :=
  (insertAll_eq vars empty_inStep (fun _ _ => rfl) apart).2

theorem insertAll_inStep (vars : List Variable) {set : VariableSet} (inStep : set.InStep) :
    (set.insertAll vars).InStep := by
  unfold insertAll
  induction vars generalizing set with
  | nil => exact inStep
  | cons v vars ih => exact ih (insert_inStep inStep v)

theorem InStep.mem_toList {set : VariableSet} (inStep : set.InStep) {v : Variable} :
    v ∈ set.toList ↔ set.get? v.identifier = some v := by
  unfold toList
  rw [List.mem_filterMap]
  constructor
  · rintro ⟨name, _, found⟩
    rw [inStep.own name v found]
    exact found
  · intro found
    have held : set.contains v.identifier = true := Option.isSome_iff_exists.2 ⟨v, found⟩
    exact ⟨v.identifier, (inStep.listed _).2 held, found⟩

theorem InStep.eq_of_identifier_eq {set : VariableSet} (inStep : set.InStep) {v w : Variable}
    (left : v ∈ set.toList) (right : w ∈ set.toList) (same : v.identifier = w.identifier) :
    v = w := by
  have held := inStep.mem_toList.1 left
  rw [same, inStep.mem_toList.1 right] at held
  exact (Option.some.inj held).symm

theorem mem_order_foldl_erase {vars : List Variable} {set : VariableSet} {name : String}
    (member : name ∈ set.order) (others : ∀ v ∈ vars, v.identifier ≠ name) :
    name ∈ (vars.foldl (fun set v => set.erase v.identifier) set).order := by
  induction vars generalizing set with
  | nil => exact member
  | cons v vars ih =>
    rw [List.foldl_cons]
    apply ih _ fun w later => others w (List.mem_cons_of_mem _ later)
    have differs := others v List.mem_cons_self
    unfold erase
    split
    · exact List.mem_filter.2 ⟨member, by simpa using Ne.symm differs⟩
    · exact member

section AsList
variable {set : VariableSet} {name : String}

theorem InStep.order_eq (inStep : set.InStep) : set.order = set.toList.map Variable.identifier := by
  have named : ∀ name ∈ set.order, (set.get? name).map Variable.identifier = some name := by
    intro name member
    obtain ⟨v, found⟩ := Option.isSome_iff_exists.1 ((inStep.listed name).1 member)
    have held : set.get? name = some v := found
    rw [held, Option.map_some, inStep.own name v held]
  unfold toList
  rw [List.map_filterMap, List.filterMap_congr named, List.filterMap_some]

theorem InStep.get?_eq_find? (inStep : set.InStep) (name : String) :
    set.get? name = set.toList.find? fun v => v.identifier = name := by
  cases found : set.get? name with
  | none =>
    symm
    rw [List.find?_eq_none]
    intro v member same
    have held := inStep.mem_toList.1 member
    rw [of_decide_eq_true same, found] at held
    cases held
  | some v =>
    have own := inStep.own name v found
    have member : v ∈ set.toList := inStep.mem_toList.2 (own ▸ found)
    cases first : set.toList.find? fun v => v.identifier = name with
    | none =>
      have differs := List.find?_eq_none.1 first v member
      simp [own] at differs
    | some w =>
      have same : w.identifier = name := by simpa using List.find?_some first
      rw [inStep.eq_of_identifier_eq member (List.mem_of_find?_eq_some first) (own.trans same.symm)]

theorem InStep.contains_eq_any (inStep : set.InStep) (name : String) :
    set.contains name = set.toList.any fun v => v.identifier = name := by
  have found : set.contains name = (set.get? name).isSome := rfl
  rw [found, inStep.get?_eq_find?, Bool.eq_iff_iff, List.find?_isSome, List.any_eq_true]

theorem get?_erase (set : VariableSet) (name other : String) :
    (set.erase name).get? other = if name = other then none else set.get? other := by
  unfold erase
  by_cases held : set.contains name = true
  · rw [if_pos held]
    exact NameMap.get?_erase _ _ _
  · rw [if_neg held]
    split
    · next same =>
      subst same
      have absent : (set.get? name).isSome = false := Bool.eq_false_iff.2 held
      simpa using absent
    · rfl

theorem InStep.order_erase (inStep : set.InStep) (name : String) :
    (set.erase name).order = set.order.filter (· ≠ name) := by
  unfold erase
  by_cases held : set.contains name = true
  · rw [if_pos held]
  · rw [if_neg held]
    symm
    rw [List.filter_eq_self]
    intro other member
    have differs : other ≠ name := by
      rintro rfl
      exact held ((inStep.listed other).1 member)
    simpa using differs

theorem erase_inStep (inStep : set.InStep) (name : String) : (set.erase name).InStep := by
  constructor
  · rw [inStep.order_erase]
    exact inStep.once.filter _
  · intro other
    have listed : other ∈ set.order ↔ (set.get? other).isSome = true := inStep.listed other
    change other ∈ (set.erase name).order ↔ ((set.erase name).get? other).isSome = true
    rw [inStep.order_erase, get?_erase, List.mem_filter, listed]
    by_cases same : name = other
    · simp [same]
    · simp [same, Ne.symm same]
  · intro other v found
    rw [get?_erase] at found
    split at found
    · cases found
    · exact inStep.own other v found

theorem toList_erase (inStep : set.InStep) (name : String) :
    (set.erase name).toList = set.toList.filter fun v => v.identifier ≠ name := by
  unfold toList
  rw [inStep.order_erase, List.filterMap_filter, List.filter_filterMap]
  apply List.filterMap_congr
  intro other member
  rw [get?_erase]
  cases found : set.get? other with
  | none => simp
  | some v =>
    have own := inStep.own other v found
    by_cases same : other = name
    · simp [Option.filter, own, same]
    · simp [Option.filter, own, same, Ne.symm same]

end AsList

/-- Goes to the end, unless the list has a variable of the same identifier. -/
def appendNew (vars : List Variable) (v : Variable) : List Variable :=
  if vars.any fun w => w.identifier = v.identifier then vars else vars ++ [v]

inductive Change where
  | insert (v : Variable)
  | extend (vars : List Variable)
  | remove (identifier : String)
  | clear

namespace Change

def apply (set : VariableSet) : Change → VariableSet
  | insert v => set.insert v
  | extend vars => set.insertAll vars
  | remove identifier => set.erase identifier
  | clear => set.clear

def applyToList (vars : List Variable) : Change → List Variable
  | insert v => appendNew vars v
  | extend more => more.foldl appendNew vars
  | remove identifier => vars.filter fun v => v.identifier ≠ identifier
  | clear => []

end Change

theorem toList_insert_eq {set : VariableSet} (inStep : set.InStep) (v : Variable) :
    (set.insert v).toList = appendNew set.toList v := by
  unfold appendNew
  rw [← inStep.contains_eq_any]
  cases held : set.contains v.identifier with
  | true => rw [insert_of_contains held, if_pos rfl]
  | false => rw [toList_insert inStep held, if_neg Bool.false_ne_true]

theorem toList_insertAll {set : VariableSet} (inStep : set.InStep) (more : List Variable) :
    (set.insertAll more).toList = more.foldl appendNew set.toList := by
  unfold insertAll
  induction more generalizing set with
  | nil => rfl
  | cons v more ih =>
    rw [List.foldl_cons, List.foldl_cons, ← toList_insert_eq inStep]
    exact ih (insert_inStep inStep v)

theorem Change.apply_spec {set : VariableSet} (inStep : set.InStep) (change : Change) :
    (change.apply set).InStep ∧ (change.apply set).toList = change.applyToList set.toList := by
  cases change with
  | insert v => exact ⟨insert_inStep inStep v, toList_insert_eq inStep v⟩
  | extend vars => exact ⟨insertAll_inStep vars inStep, toList_insertAll inStep vars⟩
  | remove identifier => exact ⟨erase_inStep inStep identifier, toList_erase inStep identifier⟩
  | clear => exact ⟨empty_inStep, rfl⟩

theorem foldl_apply_spec {set : VariableSet} (inStep : set.InStep) (changes : List Change) :
    (changes.foldl Change.apply set).InStep ∧
      (changes.foldl Change.apply set).toList = changes.foldl Change.applyToList set.toList := by
  induction changes generalizing set with
  | nil => exact ⟨inStep, rfl⟩
  | cons change changes ih =>
    obtain ⟨still, listed⟩ := change.apply_spec inStep
    rw [List.foldl_cons, List.foldl_cons, ← listed]
    exact ih still

/-- A set that is changed from the empty one on is a list in two parts: the order lists the names of
the entries, each once, each entry stands under its own identifier, and every question is
answered as the list of variables answers it that the same changes make. -/
theorem changes_refine_list (changes : List Change) :
    let set := changes.foldl Change.apply {}
    let vars := changes.foldl Change.applyToList []
    (set.order.Nodup ∧ (∀ name, name ∈ set.order ↔ name ∈ set.entries.names) ∧
      ∀ name v, set.entries.get? name = some v → v.identifier = name) ∧
    set.toList = vars ∧ set.order = vars.map Variable.identifier ∧ set.size = vars.length ∧
    (∀ name, set.get? name = vars.find? fun v => v.identifier = name) ∧
    ∀ name, set.contains name = vars.any fun v => v.identifier = name := by
  intro set vars
  obtain ⟨inStep, listed⟩ := foldl_apply_spec empty_inStep changes
  have whole : set.toList = vars := listed
  have order : set.order = vars.map Variable.identifier := by
    rw [← whole]
    exact inStep.order_eq
  refine ⟨⟨inStep.once, ?_, inStep.own⟩, whole, order, ?_, ?_, ?_⟩
  · intro name
    rw [NameMap.mem_names]
    exact inStep.listed name
  · rw [← List.length_map Variable.identifier, ← order]
    rfl
  · rw [← whole]
    exact inStep.get?_eq_find?
  · rw [← whole]
    exact inStep.contains_eq_any

end TwoPhase.VariableSet
