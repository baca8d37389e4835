import TwoPhase.Proofs.HeaderRoundTrip
import TwoPhase.Proofs.RelatedLists

/-
Which JSON values are definitions, and what reading one comes to. Argument lists at the end may be
written although they are empty; the variable that is read has the same definition without
them, at every depth, and so has one identifier for all these spellings.
-/
namespace TwoPhase

namespace Json

inductive Defines : Json → String → List Json → List (String × Json) → Prop where
  | path (path : String) : Defines (.arr [.str path]) path [] []
  | positional (path : String) (items : List Json) :
      Defines (.arr [.str path, .arr items]) path items []
  | named (path : String) (items : List Json) (fields : List (String × Json)) :
      Defines (.arr [.str path, .arr items, .obj fields]) path items fields

/-- An array of a path and argument lists. An argument under one of the two tags is a definition in
turn, or the name of a variable. -/
inductive IsDefinition : Json → Prop where
  | intro {definition : Json} {path : String} {items : List Json} {fields : List (String × Json)}
      (parts : definition.Defines path items fields)
      (nested : ∀ inner, .obj [(variableTag, inner)] ∈ items ++ fields.map Prod.snd →
        IsDefinition inner)
      (expected : ∀ target, .obj [(expectTag, target)] ∈ items ++ fields.map Prod.snd →
        ∃ name, target = .str name) :
      IsDefinition definition

mutual
/-- Drops the argument lists that are empty and stand at the end. -/
def normalDefinition : Json → Json
  | .arr [path, .arr [], .obj []] => .arr [path]
  | .arr [path, .arr []] => .arr [path]
  | .arr [path, .arr items, .obj []] => .arr [path, .arr (normalItems items)]
  | .arr [path, .arr items] => .arr [path, .arr (normalItems items)]
  | .arr [path, .arr items, .obj fields] =>
    .arr [path, .arr (normalItems items), .obj (normalFields fields)]
  | other => other
def normalArgument : Json → Json
  | .obj [(tag, inner)] =>
    if tag = variableTag then .obj [(tag, normalDefinition inner)] else .obj [(tag, inner)]
  | other => other
def normalItems : List Json → List Json
  | [] => []
  | item :: rest => normalArgument item :: normalItems rest
def normalFields : List (String × Json) → List (String × Json)
  | [] => []
  | (name, field) :: rest => (name, normalArgument field) :: normalFields rest
end

theorem normalItems_eq_map (items : List Json) : normalItems items = items.map normalArgument := by
  induction items with
  | nil => rfl
  | cons item rest ih => simp [normalItems, ih]

theorem normalFields_eq_map (fields : List (String × Json)) :
    normalFields fields = fields.map fun field => (field.1, normalArgument field.2) := by
  induction fields with
  | nil => rfl
  | cons field rest ih => simp [normalFields, ih]

theorem isTagged_iff {json : Json} : json.IsTagged ↔
    ∃ inner, json = .obj [(variableTag, inner)] ∨ json = .obj [(expectTag, inner)] := by
  constructor
  · intro tagged
    unfold IsTagged at tagged
    split at tagged
    · next tag inner => rcases tagged with rfl | rfl <;> simp
    · exact tagged.elim
  · rintro ⟨inner, rfl | rfl⟩ <;> simp [IsTagged]

theorem normalArgument_of_untagged {json : Json} (untagged : ¬ json.IsTagged) :
    normalArgument json = json := by
  unfold normalArgument
  split
  · next tag inner =>
    have notVariable : tag ≠ variableTag := fun same => untagged (Or.inl same)
    rw [if_neg notVariable]
  · rfl

theorem Defines.normalDefinition_eq {definition : Json} {path : String} {items : List Json}
    {fields : List (String × Json)} (parts : definition.Defines path items fields) :
    definition.normalDefinition = definitionOf path (items.map normalArgument)
      (fields.map fun field => (field.1, normalArgument field.2)) := by
  rw [← normalItems_eq_map, ← normalFields_eq_map]
  cases parts with
  | path path => rfl
  | positional path items =>
    cases items <;> simp [normalDefinition, normalItems, normalFields, definitionOf]
  | named path items fields =>
    -- The clauses ask whether a list is empty, so both lists are split first.
    cases items <;> cases fields <;>
      simp [normalDefinition, normalItems, normalFields, definitionOf]

end Json

namespace Arg

inductive ReadFrom : Json → Arg → Prop where
  | nested {definition : Json} {inner : Variable}
      (reads : Variable.ofDefinition definition = .ok inner) :
      ReadFrom (.obj [(variableTag, definition)]) (.nested inner)
  | expect (target : String) : ReadFrom (.obj [(expectTag, .str target)]) (.expect target)
  | value {json : Json} (untagged : ¬ json.IsTagged) : ReadFrom json (.value json)

theorem ofJson_eq_ok {json : Json} {arg : Arg} : ofJson json = .ok arg ↔ ReadFrom json arg := by
  have tags : expectTag ≠ variableTag := by decide
  constructor
  · intro reads
    by_cases tagged : json.IsTagged
    · obtain ⟨inner, rfl | rfl⟩ := Json.isTagged_iff.1 tagged
      · cases inside : Variable.ofDefinition inner with
        | error failure => simp [ofJson, inside, Except.map] at reads
        | ok v =>
          simp only [ofJson, inside, Except.map, if_true, Except.ok.injEq] at reads
          exact reads ▸ .nested inside
      · simp only [ofJson, if_neg tags, if_true] at reads
        split at reads
        · next target => exact Except.ok.inj reads ▸ .expect target
        · cases reads
    · rw [ofJson_of_untagged tagged, Except.ok.injEq] at reads
      exact reads ▸ .value tagged
  · rintro (reads | target | untagged)
    · simp [ofJson, reads, Except.map]
    · simp [ofJson, tags]
    · exact ofJson_of_untagged untagged

theorem exists_readFrom {json : Json}
    (nested : ∀ inner, json = .obj [(variableTag, inner)] →
      ∃ v, Variable.ofDefinition inner = .ok v)
    (expected : ∀ target, json = .obj [(expectTag, target)] → ∃ name, target = .str name) :
    ∃ arg, ReadFrom json arg := by
  by_cases tagged : json.IsTagged
  · obtain ⟨inner, rfl | rfl⟩ := Json.isTagged_iff.1 tagged
    · obtain ⟨v, reads⟩ := nested inner rfl
      exact ⟨.nested v, .nested reads⟩
    · obtain ⟨name, rfl⟩ := expected inner rfl
      exact ⟨.expect name, .expect name⟩
  · exact ⟨.value json, .value tagged⟩

theorem readFrom_variable {definition : Json} {arg : Arg} :
    ReadFrom (.obj [(variableTag, definition)]) arg ↔
      ∃ inner, Variable.ofDefinition definition = .ok inner ∧ arg = .nested inner := by
  rw [← ofJson_eq_ok]
  cases reads : Variable.ofDefinition definition <;> simp [ofJson, reads, Except.map, eq_comm]

theorem readFrom_expect {target : Json} {arg : Arg} :
    ReadFrom (.obj [(expectTag, target)]) arg ↔
      ∃ name, target = .str name ∧ arg = .expect name := by
  have tags : expectTag ≠ variableTag := by decide
  rw [← ofJson_eq_ok]
  cases target <;> simp [ofJson, tags, malformed, fail, eq_comm]

end Arg

theorem bind_eq_ok {α β : Type} {first : Except Failure α} {next : α → Except Failure β}
    {result : β} :
    (first >>= next) = .ok result ↔ ∃ value, first = .ok value ∧ next value = .ok result := by
  cases first <;> simp [bind, Except.bind]

theorem readItems_eq_ok {items : List Json} {args : List Arg} :
    readItems items = .ok args ↔ List.Forall₂ Arg.ReadFrom items args := by
  induction items generalizing args with
  | nil => simp [readItems, eq_comm]
  | cons item rest ih =>
    simp only [readItems, bind_eq_ok, Arg.ofJson_eq_ok, ih, List.forall₂_cons_left_iff, pure,
      Except.pure, Except.ok.injEq, @eq_comm _ args, exists_and_left]

def FieldReadFrom (field : String × Json) (entry : String × Arg) : Prop :=
  field.1 = entry.1 ∧ Arg.ReadFrom field.2 entry.2

theorem readFields_eq_ok {fields : List (String × Json)} {named : List (String × Arg)} :
    readFields fields = .ok named ↔ List.Forall₂ FieldReadFrom fields named := by
  induction fields generalizing named with
  | nil => simp [readFields, eq_comm]
  | cons field rest ih =>
    simp only [readFields, bind_eq_ok, Arg.ofJson_eq_ok, ih, List.forall₂_cons_left_iff, pure,
      Except.pure, Except.ok.injEq, FieldReadFrom]
    constructor
    · rintro ⟨arg, first, later, follow, rfl⟩
      exact ⟨(field.1, arg), later, ⟨rfl, first⟩, follow, rfl⟩
    · rintro ⟨⟨name, arg⟩, later, ⟨rfl, first⟩, follow, rfl⟩
      exact ⟨arg, first, later, follow, rfl⟩

namespace Variable

/-- A variable with the parts of its definition, under the hash of what it is written as. -/
inductive ReadFrom (definition : Json) : Variable → Prop where
  | intro {path : String} {items : List Json} {fields : List (String × Json)}
      {positional : List Arg} {named : List (String × Arg)}
      (parts : definition.Defines path items fields)
      (positionalRead : List.Forall₂ Arg.ReadFrom items positional)
      (namedRead : List.Forall₂ FieldReadFrom fields named) :
      ReadFrom definition (.ofParts path positional named)

theorem ofDefinition_of_defines {definition : Json} {path : String} {items : List Json}
    {fields : List (String × Json)} (parts : definition.Defines path items fields) :
    ofDefinition definition = (do
      let named ← readFields fields
      let positional ← readItems items
      return .ofParts path positional named) := by
  cases parts <;>
    simp [ofDefinition, readPath, readPositional, readNamed, readItems, readFields, bind,
      Except.bind, pure, Except.pure]

theorem readPath_eq_ok {json : Json} {path : String} :
    readPath json = .ok path ↔ json = .str path := by
  cases json <;> simp [readPath, malformed, fail]

theorem exists_of_readPositional {json : Json} {positional : List Arg}
    (reads : readPositional json = .ok positional) : ∃ items, json = .arr items := by
  cases json with
  | arr items => exact ⟨items, rfl⟩
  | _ => cases reads

theorem exists_of_readNamed {json : Json} {named : List (String × Arg)}
    (reads : readNamed json = .ok named) : ∃ fields, json = .obj fields := by
  cases json with
  | obj fields => exact ⟨fields, rfl⟩
  | _ => cases reads

theorem exists_defines {definition : Json} {v : Variable}
    (reads : ofDefinition definition = .ok v) :
    ∃ path items fields, definition.Defines path items fields := by
  unfold ofDefinition at reads
  split at reads
  · obtain ⟨path, pathRead, -⟩ := bind_eq_ok.1 reads
    rw [readPath_eq_ok.1 pathRead]
    exact ⟨path, [], [], .path path⟩
  · obtain ⟨positional, positionalRead, reads⟩ := bind_eq_ok.1 reads
    obtain ⟨path, pathRead, -⟩ := bind_eq_ok.1 reads
    obtain ⟨items, rfl⟩ := exists_of_readPositional positionalRead
    rw [readPath_eq_ok.1 pathRead]
    exact ⟨path, items, [], .positional path items⟩
  · obtain ⟨named, namedRead, reads⟩ := bind_eq_ok.1 reads
    obtain ⟨positional, positionalRead, reads⟩ := bind_eq_ok.1 reads
    obtain ⟨path, pathRead, -⟩ := bind_eq_ok.1 reads
    obtain ⟨fields, rfl⟩ := exists_of_readNamed namedRead
    obtain ⟨items, rfl⟩ := exists_of_readPositional positionalRead
    rw [readPath_eq_ok.1 pathRead]
    exact ⟨path, items, fields, .named path items fields⟩
  · cases reads
  · cases reads

theorem ofDefinition_eq_ok {definition : Json} {v : Variable} :
    ofDefinition definition = .ok v ↔ ReadFrom definition v := by
  constructor
  · intro reads
    obtain ⟨path, items, fields, parts⟩ := exists_defines reads
    rw [ofDefinition_of_defines parts] at reads
    simp only [bind_eq_ok, readItems_eq_ok, readFields_eq_ok, pure, Except.pure,
      Except.ok.injEq] at reads
    obtain ⟨named, namedRead, positional, positionalRead, rfl⟩ := reads
    exact .intro parts positionalRead namedRead
  · rintro ⟨parts, positionalRead, namedRead⟩
    rw [ofDefinition_of_defines parts, readFields_eq_ok.2 namedRead,
      readItems_eq_ok.2 positionalRead]
    rfl

variable {definition : Json} {v : Variable}

theorem ReadFrom.identifier_eq (read : ReadFrom definition v) :
    v.identifier = identifierOf v.definition := by
  cases read
  simp [ofParts, Variable.definition]

theorem ReadFrom.exists_arguments (read : ReadFrom definition v) :
    ∃ path items fields, definition.Defines path items fields ∧
      List.Forall₂ Arg.ReadFrom (items ++ fields.map Prod.snd) v.arguments := by
  obtain ⟨parts, positionalRead, namedRead⟩ := read
  have fieldsRead := namedRead.imp fun _ _ (each : FieldReadFrom _ _) => each.2
  exact ⟨_, _, _, parts, List.rel_append positionalRead
    (List.forall₂_map_left_iff.2 (List.forall₂_map_right_iff.2 fieldsRead))⟩

theorem ReadFrom.proper (read : ReadFrom definition v) : v.Proper := by
  induction v using nesting_induction generalizing definition with
  | step v ih =>
    obtain ⟨path, items, fields, -, arguments⟩ := read.exists_arguments
    refine .intro read.identifier_eq ?_ ?_
    · intro json member
      obtain ⟨item, -, itemRead⟩ := exists_of_mem_right arguments member
      cases itemRead with
      | value untagged => exact untagged
    · intro inner member
      obtain ⟨item, -, itemRead⟩ := exists_of_mem_right arguments member
      cases itemRead with
      | nested reads => exact ih inner member (ofDefinition_eq_ok.1 reads)

theorem ReadFrom.isDefinition (read : ReadFrom definition v) : definition.IsDefinition := by
  induction v using nesting_induction generalizing definition with
  | step v ih =>
    obtain ⟨path, items, fields, parts, arguments⟩ := read.exists_arguments
    refine .intro parts ?_ ?_
    · intro inner member
      obtain ⟨arg, inArguments, argRead⟩ := exists_of_mem_left arguments member
      obtain ⟨w, reads, rfl⟩ := Arg.readFrom_variable.1 argRead
      exact ih w inArguments (ofDefinition_eq_ok.1 reads)
    · intro target member
      obtain ⟨arg, -, argRead⟩ := exists_of_mem_left arguments member
      obtain ⟨name, rfl, -⟩ := Arg.readFrom_expect.1 argRead
      exact ⟨name, rfl⟩

theorem exists_readFrom (wellFormed : definition.IsDefinition) : ∃ v, ReadFrom definition v := by
  induction wellFormed with
  | @intro definition path items fields parts _ expected nested =>
    have each : ∀ item ∈ items ++ fields.map Prod.snd, ∃ arg, Arg.ReadFrom item arg := by
      intro item member
      apply Arg.exists_readFrom
      · rintro inner rfl
        obtain ⟨v, read⟩ := nested inner member
        exact ⟨v, ofDefinition_eq_ok.2 read⟩
      · rintro target rfl
        exact expected target member
    obtain ⟨positional, positionalRead⟩ := exists_forall₂ fun item member =>
      each item (List.mem_append_left _ member)
    have eachField : ∀ field ∈ fields, ∃ entry, FieldReadFrom field entry := by
      intro field member
      obtain ⟨arg, read⟩ := each field.2 (List.mem_append_right _ (List.mem_map_of_mem member))
      exact ⟨(field.1, arg), rfl, read⟩
    obtain ⟨named, namedRead⟩ := exists_forall₂ eachField
    exact ⟨_, .intro parts positionalRead namedRead⟩

theorem ReadFrom.definition_eq (read : ReadFrom definition v) :
    v.definition = definition.normalDefinition := by
  induction v using nesting_induction generalizing definition with
  | step v ih =>
    cases read with
    | @intro path items fields positional named parts positionalRead namedRead =>
      have each : ∀ item, ∀ arg ∈ positional ++ named.map Prod.snd, Arg.ReadFrom item arg →
          arg.toJson = item.normalArgument := by
        intro item arg member itemRead
        cases itemRead with
        | nested reads =>
          simp [Arg.toJson, Json.normalArgument, ih _ member (ofDefinition_eq_ok.1 reads)]
        | expect target => rfl
        | value untagged => exact (Json.normalArgument_of_untagged untagged).symm
      have positionalWritten : positional.map Arg.toJson = items.map Json.normalArgument := by
        apply map_eq_map_of_related positionalRead
        intro item arg member itemRead
        exact each item arg (List.mem_append_left _ member) itemRead
      have namedWritten : (named.map fun entry => (entry.1, entry.2.toJson)) =
          fields.map fun field => (field.1, field.2.normalArgument) := by
        apply map_eq_map_of_related namedRead
        intro field entry member fieldRead
        have inArguments : entry.2 ∈ positional ++ named.map Prod.snd :=
          List.mem_append_right _ (List.mem_map_of_mem member)
        rw [fieldRead.1, each field.2 entry.2 inArguments fieldRead.2]
      rw [Variable.definition_eq, parts.normalDefinition_eq]
      dsimp only [ofParts]
      rw [positionalWritten, namedWritten]

/-- Reading succeeds on the well-formed definitions. The variable is written as the normal form,
which is its own normal form and is read as the same variable. -/
theorem ofDefinition_normalizes (definition : Json) :
    ((∃ v, ofDefinition definition = .ok v) ↔ definition.IsDefinition) ∧
      ∀ v, ofDefinition definition = .ok v →
        v.definition = definition.normalDefinition ∧
        v.identifier = identifierOf definition.normalDefinition ∧
        definition.normalDefinition.normalDefinition = definition.normalDefinition ∧
        ofDefinition definition.normalDefinition = .ok v := by
  constructor
  · simp only [ofDefinition_eq_ok]
    exact ⟨fun ⟨_, read⟩ => read.isDefinition, exists_readFrom⟩
  · intro v reads
    have read := ofDefinition_eq_ok.1 reads
    have written := read.definition_eq
    have again : ofDefinition definition.normalDefinition = .ok v := by
      rw [← written]
      exact read.proper.ofDefinition_definition
    refine ⟨written, ?_, ?_, again⟩
    · rw [← written]
      exact read.identifier_eq
    · rw [← (ofDefinition_eq_ok.1 again).definition_eq, written]

def paddedPick : Json :=
  .arr [.str "quotes.pick",
    .arr [.obj [(variableTag, .arr [.str "quotes.count", .arr [], .obj []])]], .obj []]

theorem paddedPick_normalizes :
    let count : Json := .arr [.str "quotes.count"]
    let plain : Json := .arr [.str "quotes.pick", .arr [.obj [(variableTag, count)]]]
    let pick := ofParts "quotes.pick" [.nested (ofPath "quotes.count")] []
    ofDefinition paddedPick = .ok pick ∧ paddedPick.normalDefinition = plain ∧
      pick.definition = plain ∧ pick.identifier = identifierOf plain ∧
      ofDefinition plain = .ok pick := by
  intro count plain pick
  have reads : ofDefinition paddedPick = .ok pick := rfl
  have normal : paddedPick.normalDefinition = plain := by
    simp [paddedPick, plain, count, Json.normalDefinition, Json.normalItems, Json.normalArgument]
  obtain ⟨written, named, -, again⟩ := (ofDefinition_normalizes paddedPick).2 pick reads
  rw [normal] at written named again
  exact ⟨reads, normal, written, named, again⟩

end Variable
end TwoPhase
