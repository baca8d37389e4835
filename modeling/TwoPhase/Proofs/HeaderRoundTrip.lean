import TwoPhase.Proofs.Family
import TwoPhase.Proofs.VariableSets
import TwoPhase.Variable.Header

/-
The header reads back. A definition gives the variable again wherever its literals are not
tagged and its nested variables are named by hashes; the name above it is that of its field.
So the set that comes out holds the same variables, in the order of their names.
-/
namespace TwoPhase

theorem Arg.ofJson_of_untagged {json : Json} (untagged : ¬ json.IsTagged) :
    Arg.ofJson json = .ok (.value json) := by
  unfold Arg.ofJson
  split
  · next tag inner =>
    have notVariable : tag ≠ variableTag := fun same => untagged (Or.inl same)
    have notExpect : tag ≠ expectTag := fun same => untagged (Or.inr same)
    rw [if_neg notVariable, if_neg notExpect]
  · rfl

theorem Arg.ofJson_toJson {arg : Arg} (literal : ∀ json, arg = .value json → ¬ json.IsTagged)
    (nested : ∀ inner, arg = .nested inner → Variable.ofDefinition inner.definition = .ok inner) :
    Arg.ofJson arg.toJson = .ok arg := by
  have tags : expectTag ≠ variableTag := by decide
  cases arg with
  | value json => exact Arg.ofJson_of_untagged (literal json rfl)
  | nested inner => simp [toJson, ofJson, nested inner rfl, Except.map]
  | expect target => simp [toJson, ofJson, tags]

theorem readItems_map {args : List Arg} (reads : ∀ arg ∈ args, Arg.ofJson arg.toJson = .ok arg) :
    readItems (args.map Arg.toJson) = .ok args := by
  induction args with
  | nil => simp [readItems]
  | cons arg rest ih =>
    have later := ih fun other member => reads other (List.mem_cons_of_mem _ member)
    simp [readItems, reads arg List.mem_cons_self, later, bind, Except.bind, pure, Except.pure]

theorem readFields_map {named : List (String × Arg)}
    (reads : ∀ entry ∈ named, Arg.ofJson entry.2.toJson = .ok entry.2) :
    readFields (named.map fun entry => (entry.1, entry.2.toJson)) = .ok named := by
  induction named with
  | nil => simp [readFields]
  | cons entry rest ih =>
    have later := ih fun other member => reads other (List.mem_cons_of_mem _ member)
    simp [readFields, reads entry List.mem_cons_self, later, bind, Except.bind, pure, Except.pure]

namespace Variable

/-- What a definition tells of a variable: all but a name chosen by hand. -/
theorem ofDefinition_of_args {v : Variable}
    (reads : ∀ arg ∈ v.arguments, Arg.ofJson arg.toJson = .ok arg) :
    ofDefinition v.definition = .ok v.rehash := by
  have items : readItems (v.positional.map Arg.toJson) = .ok v.positional :=
    readItems_map fun arg member => reads arg (List.mem_append_left _ member)
  have fields : readFields (v.named.map fun entry => (entry.1, entry.2.toJson)) = .ok v.named :=
    readFields_map fun entry member =>
      reads entry.2 (List.mem_append_right _ (List.mem_map_of_mem member))
  rw [definition_eq]
  unfold definitionOf rehash
  by_cases noNamed : v.named = []
  · by_cases noPositional : v.positional = []
    · simp [noNamed, noPositional, ofDefinition, readPath, bind, Except.bind, pure, Except.pure]
    · simp [noNamed, noPositional, ofDefinition, readPath, readPositional, items, bind,
        Except.bind, pure, Except.pure]
  · simp [noNamed, ofDefinition, readPath, readPositional, readNamed, items, fields, bind,
      Except.bind, pure, Except.pure]

/-- The variables nested in it are named by hashes; it may have a name of its own. -/
structure Readable (v : Variable) : Prop where
  literals : ∀ json, .value json ∈ v.arguments → ¬ json.IsTagged
  nested : ∀ inner, .nested inner ∈ v.arguments → inner.Proper

theorem Proper.readable {v : Variable} (proper : v.Proper) : v.Readable where
  literals := proper.untagged v (self_mem_family v)
  nested _ member := proper.of_nested member

theorem Proper.rehash_eq {v : Variable} (proper : v.Proper) : v.rehash = v := proper.eq_ofParts.symm

theorem Proper.ofDefinition_definition {v : Variable} (proper : v.Proper) :
    ofDefinition v.definition = .ok v := by
  induction v using nesting_induction with
  | step v ih =>
    rw [ofDefinition_of_args, proper.rehash_eq]
    intro arg member
    apply Arg.ofJson_toJson
    · intro json literal
      exact proper.untagged v (self_mem_family v) json (literal ▸ member)
    · intro inner nested
      have inside : .nested inner ∈ v.arguments := nested ▸ member
      exact ih inner inside (proper.of_nested inside)

theorem Readable.ofDefinition_definition {v : Variable} (readable : v.Readable) :
    ofDefinition v.definition = .ok v.rehash := by
  apply ofDefinition_of_args
  intro arg member
  apply Arg.ofJson_toJson
  · intro json literal
    exact readable.literals json (literal ▸ member)
  · intro inner nested
    exact (readable.nested inner (nested ▸ member)).ofDefinition_definition

end Variable

namespace Header

theorem decodeField_definition {v : Variable} (readable : v.Readable) :
    decodeField v.identifier v.definition = .ok v := by
  unfold decodeField
  rw [readable.ofDefinition_definition]
  obtain ⟨path, positional, named, identifier⟩ := v
  rfl

theorem decodeFields_definitions {vars : List Variable} (readable : ∀ v ∈ vars, v.Readable) :
    decodeFields (vars.map fun v => (v.identifier, v.definition)) = .ok (.ofList vars) := by
  have each : (vars.map fun v => (v.identifier, v.definition)).mapM
      (fun field => decodeField field.1 field.2) = .ok vars := by
    induction vars with
    | nil => rfl
    | cons v vars ih =>
      have first := decodeField_definition (readable v List.mem_cons_self)
      have later := ih fun w member => readable w (List.mem_cons_of_mem _ member)
      simp [List.mapM_cons, first, later, bind, Except.bind, pure, Except.pure]
  unfold decodeFields
  rw [each]
  rfl

def fields (vars : VariableSet) : List (String × Json) :=
  Entries.ofList (vars.toList.map fun v => (v.identifier, v.definition))

def sorted (vars : VariableSet) : List Variable :=
  (Entries.ofList (vars.toList.map fun v => (v.identifier, v))).map Prod.snd

section Sorted
variable {vars : VariableSet}

theorem entry_named {entry : String × Variable}
    (member : entry ∈ Entries.ofList (vars.toList.map fun v => (v.identifier, v))) :
    entry.1 = entry.2.identifier ∧ entry.2 ∈ vars.toList := by
  obtain ⟨v, asked, rfl⟩ := List.mem_map.1 (Entries.mem_of_mem_ofList member)
  exact ⟨rfl, asked⟩

theorem mem_of_mem_sorted {v : Variable} (member : v ∈ sorted vars) : v ∈ vars.toList := by
  obtain ⟨entry, inEntries, rfl⟩ := List.mem_map.1 member
  exact (entry_named inEntries).2

theorem sorted_names : (sorted vars).map Variable.identifier =
    (Entries.ofList (vars.toList.map fun v => (v.identifier, v))).map Prod.fst := by
  unfold sorted
  rw [List.map_map]
  apply List.map_congr_left
  intro entry member
  exact (entry_named member).1.symm

theorem fields_eq : fields vars = (sorted vars).map fun v => (v.identifier, v.definition) := by
  have pairs : fields vars = (Entries.ofList (vars.toList.map fun v => (v.identifier, v))).map
      fun entry => (entry.1, entry.2.definition) := by
    unfold fields
    rw [Entries.map_ofList, List.map_map]
    rfl
  rw [pairs, sorted, List.map_map]
  apply List.map_congr_left
  intro entry member
  rw [(entry_named member).1]
  rfl

theorem mem_sorted (single : ∀ v ∈ vars.toList, ∀ w ∈ vars.toList,
      v.identifier = w.identifier → v = w) {v : Variable} : v ∈ sorted vars ↔ v ∈ vars.toList := by
  constructor
  · exact mem_of_mem_sorted
  · intro asked
    have listed : (v.identifier, v) ∈ vars.toList.map fun v => (v.identifier, v) :=
      List.mem_map_of_mem asked
    apply List.mem_map.2 ⟨(v.identifier, v), (Entries.mem_ofList _).2 listed, rfl⟩
    intro a left b right same
    obtain ⟨u, inLeft, rfl⟩ := List.mem_map.1 left
    obtain ⟨w, inRight, rfl⟩ := List.mem_map.1 right
    rw [single u inLeft w inRight same]

theorem toList_sorted : (VariableSet.ofList (sorted vars)).toList = sorted vars := by
  apply VariableSet.toList_ofList
  rw [sorted_names]
  exact Entries.names_nodup (Entries.ofList_ordered _)

end Sorted

theorem decode_encode {vars : VariableSet}
    (readsBack : Json.parse? (encode vars) = some (.obj (fields vars)))
    (readable : ∀ v ∈ vars.toList, v.Readable) :
    decode (encode vars) = .ok (.ofList (sorted vars)) := by
  unfold decode
  rw [readsBack]
  dsimp only
  rw [fields_eq]
  exact decodeFields_definitions fun v member => readable v (mem_of_mem_sorted member)

end Header
end TwoPhase
