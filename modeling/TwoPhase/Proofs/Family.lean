import TwoPhase.Resolution.State

/-
A variable and the variables nested in it, at any depth. When every one of them is named by the
hash of its definition, and no literal could be read as a nested variable or an expectation,
the definition says all there is to say: equal definitions make equal variables.
-/
namespace TwoPhase

/-- An object with a single field that is one of the two tags. -/
def Json.IsTagged : Json → Prop
  | .obj [(key, _)] => key = variableTag ∨ key = expectTag
  | _ => False

namespace Variable

def arguments (v : Variable) : List Arg := v.positional ++ v.named.map Prod.snd

theorem arguments_congr {β : Type} {f g : Arg → β} {v : Variable}
    (same : ∀ arg ∈ v.arguments, f arg = g arg) :
    v.positional.map f = v.positional.map g ∧
      (v.named.map fun entry => (entry.1, f entry.2)) =
        v.named.map fun entry => (entry.1, g entry.2) := by
  constructor
  · apply List.map_congr_left
    intro arg member
    exact same arg (List.mem_append_left _ member)
  · apply List.map_congr_left
    intro entry member
    rw [same entry.2 (List.mem_append_right _ (List.mem_map_of_mem member))]

theorem arguments_unchanged {f : Arg → Arg} {v : Variable} (same : ∀ arg ∈ v.arguments, f arg = arg) :
    v.positional.map f = v.positional ∧
      (v.named.map fun entry => (entry.1, f entry.2)) = v.named := by
  obtain ⟨positional, named⟩ := arguments_congr (g := id) same
  exact ⟨positional.trans (List.map_id _), named.trans (List.map_id _)⟩

theorem arguments_ofParts_map (f : Arg → Arg) (v : Variable) :
    (ofParts v.path (v.positional.map f)
      (v.named.map fun entry => (entry.1, f entry.2))).arguments = v.arguments.map f := by
  simp [ofParts, arguments, Function.comp_def]

/-- The variable after all variables nested in it. -/
def family (v : Variable) : List Variable := v.nestedVariables ++ [v]

/-- One case for a variable, with the hypothesis for each variable among its arguments. -/
theorem nesting_induction {motive : Variable → Prop}
    (step : ∀ v : Variable, (∀ inner, .nested inner ∈ v.arguments → motive inner) → motive v) :
    ∀ v, motive v := by
  intro v
  -- The recursor also goes through the two lists of arguments, where the hypothesis is about
  -- their members.
  apply Variable.rec (motive_1 := motive)
    (motive_2 := fun arg => ∀ inner, arg = .nested inner → motive inner)
    (motive_3 := fun args => ∀ inner, .nested inner ∈ args → motive inner)
    (motive_4 := fun named => ∀ inner, .nested inner ∈ named.map Prod.snd → motive inner)
    (motive_5 := fun entry => ∀ inner, entry.2 = .nested inner → motive inner)
  · intro path positional named identifier inPositional inNamed
    apply step
    intro inner member
    rcases List.mem_append.1 member with left | right
    · exact inPositional inner left
    · exact inNamed inner right
  · intro json inner same
    cases same
  · intro nested holds inner same
    cases same
    exact holds
  · intro target inner same
    cases same
  · intro inner member
    cases member
  · intro arg rest first later inner member
    rcases List.mem_cons.1 member with same | tail
    · exact first inner same.symm
    · exact later inner tail
  · intro inner member
    cases member
  · intro entry rest first later inner member
    rcases List.mem_cons.1 member with same | tail
    · exact first inner same.symm
    · exact later inner tail
  · intro name arg holds inner same
    exact holds inner same

end Variable

theorem nestedInPositional_eq_flatMap (args : List Arg) :
    nestedInPositional args = args.flatMap Arg.nestedVariables := by
  induction args with
  | nil => rfl
  | cons arg rest ih => simp [nestedInPositional, ih]

theorem nestedInNamed_eq_flatMap (named : List (String × Arg)) :
    nestedInNamed named = (named.map Prod.snd).flatMap Arg.nestedVariables := by
  induction named with
  | nil => rfl
  | cons entry rest ih => simp [nestedInNamed, ih]

theorem positionalExpectations_eq_flatMap (args : List Arg) :
    positionalExpectations args = args.flatMap Arg.expectations := by
  induction args with
  | nil => rfl
  | cons arg rest ih => simp [positionalExpectations, ih]

theorem namedExpectations_eq_flatMap (named : List (String × Arg)) :
    namedExpectations named = (named.map Prod.snd).flatMap Arg.expectations := by
  induction named with
  | nil => rfl
  | cons entry rest ih => simp [namedExpectations, ih]

namespace Variable

theorem nestedVariables_eq_flatMap (v : Variable) :
    v.nestedVariables = v.arguments.flatMap Arg.nestedVariables := by
  obtain ⟨path, positional, named, identifier⟩ := v
  simp [nestedVariables, arguments, nestedInPositional_eq_flatMap, nestedInNamed_eq_flatMap]

theorem expectations_eq_flatMap (v : Variable) :
    v.expectations = v.arguments.flatMap Arg.expectations := by
  obtain ⟨path, positional, named, identifier⟩ := v
  simp [expectations, arguments, positionalExpectations_eq_flatMap, namedExpectations_eq_flatMap]

theorem definition_eq (v : Variable) :
    v.definition = definitionOf v.path (v.positional.map Arg.toJson)
      (v.named.map fun entry => (entry.1, entry.2.toJson)) := by
  obtain ⟨path, positional, named, identifier⟩ := v
  simp [definition, positionalJson_eq_map, namedJson_eq_map]

theorem mem_nestedVariables {v w : Variable} :
    w ∈ v.nestedVariables ↔ ∃ inner, .nested inner ∈ v.arguments ∧ w ∈ inner.family := by
  rw [nestedVariables_eq_flatMap, List.mem_flatMap]
  constructor
  · rintro ⟨arg, member, inArg⟩
    cases arg with
    | value json => simp [Arg.nestedVariables] at inArg
    | expect target => simp [Arg.nestedVariables] at inArg
    | nested inner => exact ⟨inner, member, inArg⟩
  · rintro ⟨inner, member, inInner⟩
    exact ⟨.nested inner, member, inInner⟩

theorem mem_family {v w : Variable} :
    w ∈ v.family ↔ w = v ∨ ∃ inner, .nested inner ∈ v.arguments ∧ w ∈ inner.family := by
  rw [family, List.mem_append, mem_nestedVariables, List.mem_singleton, or_comm]

theorem self_mem_family (v : Variable) : v ∈ v.family := by simp [family]

theorem nested_mem_family {v inner : Variable} (member : .nested inner ∈ v.arguments) :
    inner ∈ v.family :=
  mem_family.2 (Or.inr ⟨inner, member, self_mem_family inner⟩)

theorem family_subset {u v w : Variable} (inner : v ∈ w.family) (deeper : u ∈ v.family) :
    u ∈ w.family := by
  induction w using nesting_induction with
  | step w ih =>
    rcases mem_family.1 inner with rfl | ⟨below, member, further⟩
    · exact deeper
    · exact mem_family.2 (Or.inr ⟨below, member, ih below member further⟩)

theorem mem_expectations {v : Variable} {target : String} :
    target ∈ v.expectations ↔ .expect target ∈ v.arguments ∨
      ∃ inner, .nested inner ∈ v.arguments ∧ target ∈ inner.expectations := by
  rw [expectations_eq_flatMap, List.mem_flatMap]
  constructor
  · rintro ⟨arg, member, inArg⟩
    cases arg with
    | value json => simp [Arg.expectations] at inArg
    | expect other =>
      simp only [Arg.expectations, List.mem_singleton] at inArg
      exact Or.inl (inArg ▸ member)
    | nested inner => exact Or.inr ⟨inner, member, inArg⟩
  · rintro (member | ⟨inner, member, inInner⟩)
    · exact ⟨.expect target, member, by simp [Arg.expectations]⟩
    · exact ⟨.nested inner, member, inInner⟩

theorem isConcrete_iff {v : Variable} : v.isConcrete = true ↔ v.expectations = [] := by
  simp [isConcrete]

theorem concrete_of_nested {v inner : Variable} (concrete : v.expectations = [])
    (member : .nested inner ∈ v.arguments) : inner.expectations = [] := by
  rw [List.eq_nil_iff_forall_not_mem]
  intro target waits
  have outer := mem_expectations.2 (Or.inr ⟨inner, member, waits⟩)
  rw [concrete] at outer
  cases outer

theorem concrete_of_mem_family {v w : Variable} (concrete : v.expectations = [])
    (member : w ∈ v.family) : w.expectations = [] := by
  induction v using nesting_induction with
  | step v ih =>
    rcases mem_family.1 member with rfl | ⟨inner, inArguments, deeper⟩
    · exact concrete
    · exact ih inner inArguments (concrete_of_nested concrete inArguments) deeper

/-- The whole family is named by hashes, and its literals are not tagged. -/
structure Proper (v : Variable) : Prop where
  hashed : ∀ w ∈ v.family, w.identifier = identifierOf w.definition
  untagged : ∀ w ∈ v.family, ∀ json, .value json ∈ w.arguments → ¬ json.IsTagged

theorem Proper.of_mem_family {v w : Variable} (proper : v.Proper) (member : w ∈ v.family) :
    w.Proper where
  hashed u deeper := proper.hashed u (family_subset member deeper)
  untagged u deeper := proper.untagged u (family_subset member deeper)

theorem Proper.of_nested {v inner : Variable} (proper : v.Proper)
    (member : .nested inner ∈ v.arguments) : inner.Proper :=
  proper.of_mem_family (nested_mem_family member)

theorem eq_ofParts_of_hashed {v : Variable} (hashed : v.identifier = identifierOf v.definition) :
    v = .ofParts v.path v.positional v.named := by
  obtain ⟨path, positional, named, identifier⟩ := v
  simp only [definition] at hashed
  simp [ofParts, hashed]

theorem Proper.eq_ofParts {v : Variable} (proper : v.Proper) :
    v = .ofParts v.path v.positional v.named :=
  eq_ofParts_of_hashed (proper.hashed v (self_mem_family v))

theorem Proper.intro {v : Variable} (named : v.identifier = identifierOf v.definition)
    (literals : ∀ json, .value json ∈ v.arguments → ¬ json.IsTagged)
    (nested : ∀ inner, .nested inner ∈ v.arguments → inner.Proper) : v.Proper where
  hashed w member := by
    rcases mem_family.1 member with rfl | ⟨inner, inArguments, deeper⟩
    · exact named
    · exact (nested inner inArguments).hashed w deeper
  untagged w member := by
    rcases mem_family.1 member with rfl | ⟨inner, inArguments, deeper⟩
    · exact literals
    · exact (nested inner inArguments).untagged w deeper

theorem ofParts_proper {path : String} {positional : List Arg} {named : List (String × Arg)}
    (literals : ∀ json, .value json ∈ positional ++ named.map Prod.snd → ¬ json.IsTagged)
    (nested : ∀ inner, .nested inner ∈ positional ++ named.map Prod.snd → inner.Proper) :
    (ofParts path positional named).Proper :=
  .intro (by simp [ofParts, definition]) literals nested

end Variable

theorem eq_of_map_eq {α β : Type} {f : α → β} {xs ys : List α} (same : xs.map f = ys.map f)
    (apart : ∀ x ∈ xs, ∀ y ∈ ys, f x = f y → x = y) : xs = ys := by
  induction xs generalizing ys with
  | nil => exact (List.map_eq_nil_iff.1 same.symm).symm
  | cons x xs ih =>
    cases ys with
    | nil => simp at same
    | cons y ys =>
      simp only [List.map_cons, List.cons.injEq] at same
      have head := apart x (by simp) y (by simp) same.1
      have tail := ih same.2 fun a inXs b inYs =>
        apart a (List.mem_cons_of_mem _ inXs) b (List.mem_cons_of_mem _ inYs)
      rw [head, tail]

theorem definitionOf_inj {path path' : String} {positional positional' : List Json}
    {named named' : List (String × Json)}
    (same : definitionOf path positional named = definitionOf path' positional' named') :
    path = path' ∧ positional = positional' ∧ named = named' := by
  cases positional <;> cases positional' <;> cases named <;> cases named' <;>
    simp_all [definitionOf]

theorem Arg.eq_of_toJson_eq {a b : Arg} (same : a.toJson = b.toJson)
    (left : ∀ json, a = .value json → ¬ json.IsTagged)
    (right : ∀ json, b = .value json → ¬ json.IsTagged)
    (inner : ∀ v w, a = .nested v → b = .nested w → v.definition = w.definition → v = w) :
    a = b := by
  have tags : variableTag ≠ expectTag := by decide
  -- Across kinds the texts agree only where a literal is tagged.
  cases a with
  | value x =>
    cases b with
    | value y => exact congrArg Arg.value same
    | nested w =>
      subst same
      exact absurd (Or.inl rfl) (left _ rfl)
    | expect target =>
      subst same
      exact absurd (Or.inr rfl) (left _ rfl)
  | nested v =>
    cases b with
    | value y =>
      subst same
      exact absurd (Or.inl rfl) (right _ rfl)
    | nested w =>
      simp only [toJson, Json.obj.injEq, List.cons.injEq, Prod.mk.injEq, true_and, and_true] at same
      exact congrArg Arg.nested (inner v w rfl rfl same)
    | expect target => simp [toJson, tags] at same
  | expect target =>
    cases b with
    | value y =>
      subst same
      exact absurd (Or.inr rfl) (right _ rfl)
    | nested w => simp [toJson, Ne.symm tags] at same
    | expect other => simpa [toJson] using same

namespace Variable

theorem Proper.eq_of_definition_eq {v w : Variable} (left : v.Proper) (right : w.Proper)
    (same : v.definition = w.definition) : v = w := by
  induction v using nesting_induction generalizing w with
  | step v ih =>
    rw [definition_eq, definition_eq] at same
    obtain ⟨paths, positionals, nameds⟩ := definitionOf_inj same
    have arg_eq : ∀ a ∈ v.arguments, ∀ b ∈ w.arguments, a.toJson = b.toJson → a = b := by
      intro a inV b inW equal
      apply Arg.eq_of_toJson_eq equal
      · intro json literal
        exact left.untagged v (self_mem_family v) json (literal ▸ inV)
      · intro json literal
        exact right.untagged w (self_mem_family w) json (literal ▸ inW)
      · intro inner other nestedV nestedW equal
        have innerV : .nested inner ∈ v.arguments := nestedV ▸ inV
        have innerW : .nested other ∈ w.arguments := nestedW ▸ inW
        exact ih inner innerV (left.of_nested innerV) (right.of_nested innerW) equal
    have positional_eq : v.positional = w.positional := by
      apply eq_of_map_eq positionals
      intro a inV b inW
      exact arg_eq a (List.mem_append_left _ inV) b (List.mem_append_left _ inW)
    have named_eq : v.named = w.named := by
      apply eq_of_map_eq nameds
      rintro ⟨name, a⟩ inV ⟨other, b⟩ inW equal
      obtain ⟨rfl, equal⟩ := Prod.mk.inj equal
      have memberV := List.mem_map_of_mem (f := Prod.snd) inV
      have memberW := List.mem_map_of_mem (f := Prod.snd) inW
      rw [arg_eq a (List.mem_append_right _ memberV) b (List.mem_append_right _ memberW) equal]
    rw [left.eq_ofParts, right.eq_ofParts, paths, positional_eq, named_eq]

end Variable
end TwoPhase
