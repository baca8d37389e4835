import TwoPhase.Proofs.Forms
import TwoPhase.Proofs.HeaderRoundTrip
import TwoPhase.Proofs.JsonReading

/-
The header as a whole: what was written for a set of variables is read as the same variables,
in ascending order of their names, and written again it is the same text. Named arguments and
the fields of literals are in order, as maps keep them, so the text shows all there is to them.
-/
namespace TwoPhase

/-- The variable and those nested in it have their named arguments in order, and literals that
printing keeps. -/
structure Variable.Faithful (v : Variable) : Prop where
  ordered : ∀ w ∈ v.family, Entries.Ordered w.named
  literals : ∀ w ∈ v.family, ∀ json, .value json ∈ w.arguments → json.Faithful

namespace Variable

theorem Faithful.of_nested {v inner : Variable} (faithful : v.Faithful)
    (member : .nested inner ∈ v.arguments) : inner.Faithful where
  ordered w deeper := faithful.ordered w (family_subset (nested_mem_family member) deeper)
  literals w deeper := faithful.literals w (family_subset (nested_mem_family member) deeper)

theorem Faithful.intro {v : Variable} (ordered : Entries.Ordered v.named)
    (literals : ∀ json, .value json ∈ v.arguments → json.Faithful)
    (nested : ∀ inner, .nested inner ∈ v.arguments → inner.Faithful) : v.Faithful where
  ordered w member := by
    rcases mem_family.1 member with rfl | ⟨inner, inside, deeper⟩
    · exact ordered
    · exact (nested inner inside).ordered w deeper
  literals w member := by
    rcases mem_family.1 member with rfl | ⟨inner, inside, deeper⟩
    · exact literals
    · exact (nested inner inside).literals w deeper

theorem definitionOf_faithful (path : String) {positional : List Json}
    {named : List (String × Json)} (items : ∀ item ∈ positional, item.Faithful)
    (ordered : Entries.Ordered named) (fields : ∀ field ∈ named, field.2.Faithful) :
    (definitionOf path positional named).Faithful := by
  have first : (Json.str path).Faithful := trivial
  have second : (Json.arr positional).Faithful := Json.itemsFaithful_iff.2 items
  have third : (Json.obj named).Faithful := ⟨ordered, Json.fieldsFaithful_iff.2 fields⟩
  unfold definitionOf
  split
  · exact ⟨first, second, third, trivial⟩
  · split
    · exact ⟨first, second, trivial⟩
    · exact ⟨first, trivial⟩

theorem Faithful.definition {v : Variable} (faithful : v.Faithful) : v.definition.Faithful := by
  induction v using nesting_induction with
  | step v ih =>
    have argument : ∀ arg ∈ v.arguments, arg.toJson.Faithful := by
      intro arg member
      cases arg with
      | value json => exact faithful.literals v (self_mem_family v) json member
      | nested inner =>
        exact ⟨List.pairwise_singleton _ _, ih inner member (faithful.of_nested member), trivial⟩
      | expect target => exact ⟨List.pairwise_singleton _ _, trivial, trivial⟩
    rw [definition_eq]
    apply definitionOf_faithful
    · intro item member
      obtain ⟨arg, inside, rfl⟩ := List.mem_map.1 member
      exact argument arg (List.mem_append_left _ inside)
    · exact Entries.map_ordered (fun _ arg => arg.toJson) _ (faithful.ordered v (self_mem_family v))
    · intro field member
      obtain ⟨entry, inside, rfl⟩ := List.mem_map.1 member
      exact argument entry.2 (List.mem_append_right _ (List.mem_map_of_mem inside))

end Variable

namespace Header
variable {vars : VariableSet}

def value (vars : VariableSet) : Json := .obj (fields vars)

theorem value_faithful (faithful : ∀ v ∈ vars.toList, v.Faithful) : (value vars).Faithful := by
  refine ⟨Entries.ofList_ordered _, Json.fieldsFaithful_iff.2 ?_⟩
  intro field member
  obtain ⟨v, asked, rfl⟩ := List.mem_map.1 (Entries.mem_of_mem_ofList member)
  exact (faithful v asked).definition

theorem encode_sorted (vars : VariableSet) : encode (.ofList (sorted vars)) = encode vars := by
  have again : fields (.ofList (sorted vars)) = fields vars := by
    rw [fields, toList_sorted, ← fields_eq]
    exact Entries.ofList_of_ordered (Entries.ofList_ordered _)
  exact congrArg (fun fields => (Json.obj fields).text) again

theorem sorted_ascending (vars : VariableSet) :
    ((sorted vars).map Variable.identifier).Pairwise (· < ·) := by
  rw [sorted_names, List.pairwise_map]
  exact Entries.ofList_ordered _

end Header

/-- The header of a set of variables tells exactly these variables, whatever they are called. -/
theorem header_roundTrip {vars : VariableSet} (inStep : vars.InStep)
    (readable : ∀ v ∈ vars.toList, v.Readable) (faithful : ∀ v ∈ vars.toList, v.Faithful)
    (shallow : (Header.value vars).depth ≤ 127) :
    ∃ decoded, Header.decode (Header.encode vars) = .ok decoded ∧
      (∀ v, v ∈ decoded.toList ↔ v ∈ vars.toList) ∧
      (decoded.toList.map Variable.identifier).Pairwise (· < ·) ∧
      Header.encode decoded = Header.encode vars := by
  have readsBack : Json.parse? (Header.encode vars) = some (.obj (Header.fields vars)) :=
    Json.parse?_text (Header.value_faithful faithful) shallow
  refine ⟨_, Header.decode_encode readsBack readable, ?_, ?_, Header.encode_sorted vars⟩
  · intro v
    rw [Header.toList_sorted]
    exact Header.mem_sorted fun u left w right same => inStep.eq_of_identifier_eq left right same
  · rw [Header.toList_sorted]
    exact Header.sorted_ascending vars

namespace Quotes

def captions : Json := .obj [("de", .str "\"Spruch\"\n"), ("en", .arr [.str "quote", .int 1])]

def label : Variable :=
  (Variable.ofParts "quotes.label" [.value captions, .nested count]
    [("limit", .expect count.identifier)]).rename "label"

def labelled : VariableSet := .ofList [pick (.nested count), label]

theorem labelled_members : ∀ v ∈ labelled.toList, v = pick (.nested count) ∨ v = label := by
  have apart : ([pick (.nested count), label].map Variable.identifier).Nodup := by decide +kernel
  intro v member
  rw [labelled, VariableSet.toList_ofList apart] at member
  simpa using member

theorem label_literal {json : Json} (member : .value json ∈ label.arguments) : json = captions := by
  change _ ∈ [Arg.value captions, .nested count, .expect count.identifier] at member
  simpa using member

theorem label_nested {inner : Variable} (member : .nested inner ∈ label.arguments) :
    inner = count := by
  change _ ∈ [Arg.value captions, .nested count, .expect count.identifier] at member
  simpa using member

theorem labelled_readable : ∀ v ∈ labelled.toList, v.Readable := by
  intro v member
  rcases labelled_members v member with rfl | rfl
  · exact (asked_proper _ (by simp [asked])).readable
  · constructor
    · intro json literal
      rw [label_literal literal]
      exact not_false
    · intro inner nested
      rw [label_nested nested]
      exact count_proper

theorem captions_faithful : captions.Faithful := by
  refine ⟨List.pairwise_pair.2 (by decide), Json.fieldsFaithful_iff.2 ?_⟩
  intro field member
  rcases List.mem_pair.1 member with rfl | rfl
  · trivial
  · exact ⟨trivial, trivial, trivial⟩

theorem count_faithful : count.Faithful :=
  .intro .nil (fun _ member => nomatch member) fun _ member => nomatch member

theorem labelled_faithful : ∀ v ∈ labelled.toList, v.Faithful := by
  intro v member
  rcases labelled_members v member with rfl | rfl
  · apply Variable.Faithful.intro
    · exact List.pairwise_singleton _ _
    · intro json literal
      cases List.mem_singleton.1 literal
    · intro inner nested
      cases List.mem_singleton.1 nested
      exact count_faithful
  · apply Variable.Faithful.intro
    · exact List.pairwise_singleton _ _
    · intro json literal
      rw [label_literal literal]
      exact captions_faithful
    · intro inner nested
      rw [label_nested nested]
      exact count_faithful

end Quotes

theorem labelled_roundTrip :
    Quotes.labelled.InStep ∧ (∀ v ∈ Quotes.labelled.toList, v.Readable ∧ v.Faithful) ∧
      (Header.value Quotes.labelled).depth ≤ 127 ∧
      ∃ decoded, Header.decode (Header.encode Quotes.labelled) = .ok decoded ∧
        (∀ v, v ∈ decoded.toList ↔ v ∈ Quotes.labelled.toList) ∧
        (decoded.toList.map Variable.identifier).Pairwise (· < ·) ∧
        Header.encode decoded = Header.encode Quotes.labelled := by
  have inStep : Quotes.labelled.InStep := VariableSet.insertAll_inStep _ VariableSet.empty_inStep
  have shallow : (Header.value Quotes.labelled).depth ≤ 127 := by decide +kernel
  have members : ∀ v ∈ Quotes.labelled.toList, v.Readable ∧ v.Faithful :=
    fun v member => ⟨Quotes.labelled_readable v member, Quotes.labelled_faithful v member⟩
  exact ⟨inStep, members, shallow,
    header_roundTrip inStep Quotes.labelled_readable Quotes.labelled_faithful shallow⟩

end TwoPhase
