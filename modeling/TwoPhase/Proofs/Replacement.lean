import Mathlib.Data.List.Basic
import TwoPhase.Proofs.Family

/-
What an attempt does to a variable, said once for the whole family: every expectation that has
a value is replaced by it and every name is hashed anew. An attempt keeps the names of
concrete variables, which makes no difference where all names are hashes.
-/
namespace TwoPhase

mutual
/-- The variable with values in place of the expectations that have one, named by its new
definition, and its nested variables likewise. -/
def Variable.replace (values : String → Option Json) : Variable → Variable
  | ⟨path, positional, named, _⟩ =>
    .ofParts path (replacePositional values positional) (replaceNamed values named)
def Arg.replace (values : String → Option Json) : Arg → Arg
  | .value json => .value json
  | .nested inner => .nested (inner.replace values)
  | .expect target =>
    match values target with
    | some value => .value value
    | none => .expect target
def replacePositional (values : String → Option Json) : List Arg → List Arg
  | [] => []
  | arg :: rest => arg.replace values :: replacePositional values rest
def replaceNamed (values : String → Option Json) : List (String × Arg) → List (String × Arg)
  | [] => []
  | (name, arg) :: rest => (name, arg.replace values) :: replaceNamed values rest
end

/-- A nested variable gives way to the value of its own entry, if there is one. -/
def Arg.supply (entries : String → Option Json) : Arg → Arg
  | .nested inner =>
    match entries inner.identifier with
    | some found => .value found
    | none => .nested inner
  | arg => arg

/-- The variable as it is computed: values in place of its nested variables, its name kept. -/
def Variable.supply (entries : String → Option Json) (v : Variable) : Variable where
  path := v.path
  positional := v.positional.map (Arg.supply entries)
  named := v.named.map fun entry => (entry.1, entry.2.supply entries)
  identifier := v.identifier

theorem replacePositional_eq_map (values : String → Option Json) (args : List Arg) :
    replacePositional values args = args.map (Arg.replace values) := by
  induction args with
  | nil => rfl
  | cons arg rest ih => simp [replacePositional, ih]

theorem replaceNamed_eq_map (values : String → Option Json) (named : List (String × Arg)) :
    replaceNamed values named = named.map fun entry => (entry.1, entry.2.replace values) := by
  induction named with
  | nil => rfl
  | cons entry rest ih => simp [replaceNamed, ih]

namespace Variable
variable {values other entries : String → Option Json} {v w inner : Variable} {target : String}

theorem replace_eq (values : String → Option Json) (v : Variable) :
    v.replace values = .ofParts v.path (v.positional.map (Arg.replace values))
      (v.named.map fun entry => (entry.1, entry.2.replace values)) := by
  obtain ⟨path, positional, named, identifier⟩ := v
  simp [replace, replacePositional_eq_map, replaceNamed_eq_map]

@[simp] theorem arguments_replace (values : String → Option Json) (v : Variable) :
    (v.replace values).arguments = v.arguments.map (Arg.replace values) := by
  rw [replace_eq, arguments_ofParts_map]

theorem nested_mem_arguments_replace :
    .nested w ∈ (v.replace values).arguments ↔
      ∃ inner, .nested inner ∈ v.arguments ∧ w = inner.replace values := by
  rw [arguments_replace, List.mem_map]
  constructor
  · rintro ⟨arg, member, image⟩
    cases arg with
    | value json => simp [Arg.replace] at image
    | nested inner =>
      simp only [Arg.replace, Arg.nested.injEq] at image
      exact ⟨inner, member, image.symm⟩
    | expect target =>
      simp only [Arg.replace] at image
      split at image <;> cases image
  · rintro ⟨inner, member, rfl⟩
    exact ⟨.nested inner, member, rfl⟩

theorem mem_family_replace :
    w ∈ (v.replace values).family ↔ ∃ u ∈ v.family, w = u.replace values := by
  induction v using nesting_induction with
  | step v ih =>
    constructor
    · intro member
      rcases mem_family.1 member with rfl | ⟨inner, inArguments, deeper⟩
      · exact ⟨v, self_mem_family v, rfl⟩
      · obtain ⟨below, inV, rfl⟩ := nested_mem_arguments_replace.1 inArguments
        obtain ⟨u, inBelow, rfl⟩ := (ih below inV).1 deeper
        exact ⟨u, family_subset (nested_mem_family inV) inBelow, rfl⟩
    · rintro ⟨u, member, rfl⟩
      rcases mem_family.1 member with rfl | ⟨below, inV, deeper⟩
      · exact self_mem_family _
      · have inReplaced : .nested (below.replace values) ∈ (v.replace values).arguments :=
          nested_mem_arguments_replace.2 ⟨below, inV, rfl⟩
        exact family_subset (nested_mem_family inReplaced) ((ih below inV).2 ⟨u, deeper, rfl⟩)

theorem mem_expectations_replace :
    target ∈ (v.replace values).expectations ↔ target ∈ v.expectations ∧ values target = none := by
  induction v using nesting_induction with
  | step v ih =>
    have direct : .expect target ∈ (v.replace values).arguments ↔
        .expect target ∈ v.arguments ∧ values target = none := by
      rw [arguments_replace, List.mem_map]
      constructor
      · rintro ⟨arg, member, image⟩
        cases arg with
        | value json => simp [Arg.replace] at image
        | nested inner => simp [Arg.replace] at image
        | expect wanted =>
          simp only [Arg.replace] at image
          split at image
          · cases image
          · next missing =>
            cases image
            exact ⟨member, missing⟩
      · rintro ⟨member, missing⟩
        exact ⟨.expect target, member, by simp [Arg.replace, missing]⟩
    rw [mem_expectations, mem_expectations, direct]
    constructor
    · rintro (⟨member, missing⟩ | ⟨inner, inReplaced, waits⟩)
      · exact ⟨Or.inl member, missing⟩
      · obtain ⟨below, inV, rfl⟩ := nested_mem_arguments_replace.1 inReplaced
        obtain ⟨inBelow, missing⟩ := (ih below inV).1 waits
        exact ⟨Or.inr ⟨below, inV, inBelow⟩, missing⟩
    · rintro ⟨member | ⟨below, inV, inBelow⟩, missing⟩
      · exact Or.inl ⟨member, missing⟩
      · exact Or.inr ⟨_, nested_mem_arguments_replace.2 ⟨below, inV, rfl⟩,
          (ih below inV).2 ⟨inBelow, missing⟩⟩

theorem isConcrete_replace (known : ∀ target ∈ v.expectations, (values target).isSome) :
    (v.replace values).expectations = [] := by
  rw [List.eq_nil_iff_forall_not_mem]
  intro target waits
  obtain ⟨member, missing⟩ := mem_expectations_replace.1 waits
  have some := known target member
  simp [missing] at some

theorem replace_congr (agree : ∀ target ∈ v.expectations, values target = other target) :
    v.replace values = v.replace other := by
  induction v using nesting_induction with
  | step v ih =>
    have same : ∀ arg ∈ v.arguments, arg.replace values = arg.replace other := by
      intro arg member
      cases arg with
      | value json => rfl
      | nested inner =>
        have inner_agree : ∀ target ∈ inner.expectations, values target = other target :=
          fun target waits => agree target (mem_expectations.2 (Or.inr ⟨inner, member, waits⟩))
        simp only [Arg.replace, ih inner member inner_agree]
      | expect target =>
        have known := agree target (mem_expectations.2 (Or.inl member))
        simp only [Arg.replace, known]
    obtain ⟨positional_same, named_same⟩ := arguments_congr same
    rw [replace_eq, replace_eq, positional_same, named_same]

theorem replace_of_unknown (proper : v.Proper)
    (unknown : ∀ target ∈ v.expectations, values target = none) : v.replace values = v := by
  induction v using nesting_induction with
  | step v ih =>
    have same : ∀ arg ∈ v.arguments, arg.replace values = arg := by
      intro arg member
      cases arg with
      | value json => rfl
      | nested inner =>
        have inner_unknown : ∀ target ∈ inner.expectations, values target = none :=
          fun target waits => unknown target (mem_expectations.2 (Or.inr ⟨inner, member, waits⟩))
        simp only [Arg.replace, ih inner member (proper.of_nested member) inner_unknown]
      | expect target =>
        have missing := unknown target (mem_expectations.2 (Or.inl member))
        simp only [Arg.replace, missing]
    obtain ⟨positional_same, named_same⟩ := arguments_unchanged same
    rw [replace_eq, positional_same, named_same, ← proper.eq_ofParts]

theorem replace_of_concrete (proper : v.Proper) (concrete : v.expectations = []) :
    v.replace values = v := by
  apply replace_of_unknown proper
  intro target waits
  rw [concrete] at waits
  cases waits

theorem replace_proper (proper : v.Proper)
    (untagged : ∀ target value, values target = some value → ¬ value.IsTagged) :
    (v.replace values).Proper := by
  induction v using nesting_induction with
  | step v ih =>
    apply Proper.intro
    · rw [replace_eq]
      simp [ofParts, definition]
    · intro json literal
      rw [arguments_replace, List.mem_map] at literal
      obtain ⟨arg, member, image⟩ := literal
      cases arg with
      | value own =>
        simp only [Arg.replace, Arg.value.injEq] at image
        exact image ▸ proper.untagged v (self_mem_family v) own member
      | nested inner => simp [Arg.replace] at image
      | expect target =>
        simp only [Arg.replace] at image
        split at image
        · next known =>
          cases image
          exact untagged target _ known
        · cases image
    · intro inner member
      obtain ⟨below, inV, rfl⟩ := nested_mem_arguments_replace.1 member
      exact ih below inV (proper.of_nested inV)

@[simp] theorem arguments_supply (entries : String → Option Json) (v : Variable) :
    (v.supply entries).arguments = v.arguments.map (Arg.supply entries) := by
  simp [supply, arguments, Function.comp_def]

theorem supply_congr
    (agree : ∀ inner, .nested inner ∈ v.arguments → entries inner.identifier = other inner.identifier) :
    v.supply entries = v.supply other := by
  have same : ∀ arg ∈ v.arguments, arg.supply entries = arg.supply other := by
    intro arg member
    cases arg with
    | value json => rfl
    | expect target => rfl
    | nested inner => simp only [Arg.supply, agree inner member]
  obtain ⟨positional_same, named_same⟩ := arguments_congr same
  simp only [supply, positional_same, named_same]

end Variable

namespace Resolution

theorem substitutePositional_eq_map (state : Resolution) (args : List Arg) :
    state.substitutePositional args =
      (args.map fun arg => (state.substituteArg arg).1,
        args.flatMap fun arg => (state.substituteArg arg).2) := by
  induction args with
  | nil => rfl
  | cons arg rest ih => simp [substitutePositional, ih]

theorem substituteNamed_eq_map (state : Resolution) (named : List (String × Arg)) :
    state.substituteNamed named =
      (named.map fun entry => (entry.1, (state.substituteArg entry.2).1),
        (named.map Prod.snd).flatMap fun arg => (state.substituteArg arg).2) := by
  induction named with
  | nil => rfl
  | cons entry rest ih => simp [substituteNamed, ih]

theorem substitute_of_concrete (state : Resolution) {v : Variable} (concrete : v.isConcrete = true) :
    state.substitute v = (v, []) := by
  obtain ⟨path, positional, named, identifier⟩ := v
  rw [substitute, if_pos concrete]

theorem substitute_of_waiting (state : Resolution) {v : Variable} (waits : v.isConcrete ≠ true) :
    state.substitute v =
      (.ofParts v.path (v.positional.map fun arg => (state.substituteArg arg).1)
        (v.named.map fun entry => (entry.1, (state.substituteArg entry.2).1)),
        v.arguments.flatMap fun arg => (state.substituteArg arg).2) := by
  obtain ⟨path, positional, named, identifier⟩ := v
  rw [substitute, if_neg waits, substitutePositional_eq_map, substituteNamed_eq_map]
  simp [Variable.arguments]

def unknown (state : Resolution) (targets : List String) : List String :=
  targets.filter fun target => (state.value? target).isNone

theorem unknown_eq_nil {state : Resolution} {targets : List String} :
    state.unknown targets = [] ↔ ∀ target ∈ targets, (state.value? target).isSome := by
  simp [unknown, List.filter_eq_nil_iff, Option.isSome_iff_ne_none]

theorem substitute_missing (state : Resolution) (v : Variable) :
    (state.substitute v).2 = state.unknown v.expectations := by
  induction v using Variable.nesting_induction with
  | step v ih =>
    have arg_missing : ∀ arg ∈ v.arguments,
        (state.substituteArg arg).2 = state.unknown arg.expectations := by
      intro arg member
      cases arg with
      | value json => rfl
      | nested inner => exact ih inner member
      | expect target =>
        cases known : state.value? target <;>
          simp [substituteArg, Arg.expectations, unknown, known]
    have listed : state.unknown v.expectations =
        v.arguments.flatMap fun arg => (state.substituteArg arg).2 := by
      rw [Variable.expectations_eq_flatMap, unknown, List.filter_flatMap]
      apply List.flatMap_congr
      intro arg member
      rw [arg_missing arg member]
      rfl
    by_cases concrete : v.isConcrete = true
    · rw [state.substitute_of_concrete concrete, Variable.isConcrete_iff.1 concrete]
      rfl
    · rw [listed, state.substitute_of_waiting concrete]

theorem substitute_eq (state : Resolution) {v : Variable} (proper : v.Proper) :
    state.substitute v = (v.replace state.value?, state.unknown v.expectations) := by
  refine Prod.ext ?_ (state.substitute_missing v)
  induction v using Variable.nesting_induction with
  | step v ih =>
    have arg_replaced : ∀ arg ∈ v.arguments,
        (state.substituteArg arg).1 = arg.replace state.value? := by
      intro arg member
      cases arg with
      | value json => rfl
      | nested inner =>
        exact congrArg Arg.nested (ih inner member (proper.of_nested member))
      | expect target => cases known : state.value? target <;> simp [substituteArg, Arg.replace, known]
    by_cases concrete : v.isConcrete = true
    · -- A concrete variable is left alone; rehashing would give it the name it has.
      change _ = v.replace state.value?
      rw [Variable.replace_of_concrete proper (Variable.isConcrete_iff.1 concrete),
        state.substitute_of_concrete concrete]
    · obtain ⟨positional_same, named_same⟩ := Variable.arguments_congr arg_replaced
      change _ = v.replace state.value?
      rw [Variable.replace_eq, ← positional_same, ← named_same, state.substitute_of_waiting concrete]

theorem callArg_fst (state : Resolution) (arg : Arg) :
    (state.callArg arg).1 = arg.supply state.value? := by
  cases arg with
  | value json => rfl
  | expect target => rfl
  | nested inner => cases known : state.value? inner.identifier <;> simp [callArg, Arg.supply, known]

theorem callForm_fst (state : Resolution) (declared : Variable) :
    (state.callForm declared).1 = declared.supply state.value? := by
  simp [callForm, Variable.supply, Variable.rename, Variable.ofParts, callArg_fst, Function.comp_def]

theorem callForm_snd_eq_nil {state : Resolution} {declared : Variable} :
    (state.callForm declared).2 = [] ↔
      ∀ inner, .nested inner ∈ declared.arguments → (state.value? inner.identifier).isSome := by
  have listed : (state.callForm declared).2 =
      declared.arguments.flatMap fun arg => (state.callArg arg).2 := by
    simp [callForm, Variable.arguments, List.flatMap_map]
  rw [listed, List.flatMap_eq_nil_iff]
  constructor
  · intro none inner member
    have silent := none _ member
    cases known : state.value? inner.identifier with
    | some value => rfl
    | none => simp [callArg, known] at silent
  · intro known arg member
    cases arg with
    | value json => rfl
    | expect target => rfl
    | nested inner =>
      obtain ⟨value, found⟩ := Option.isSome_iff_exists.1 (known inner member)
      simp [callArg, found]

section Attempts

theorem attempt_declared_eq {state : Resolution} {v : Variable} :
    (state.attempt v).declared = (state.substitute v).1 := rfl

theorem attempt_declared_of_concrete {state : Resolution} {v : Variable}
    (concrete : v.isConcrete = true) : (state.attempt v).declared = v := by
  rw [attempt_declared_eq, state.substitute_of_concrete concrete]

variable (state : Resolution)

theorem substituteArg_of_concrete {arg : Arg} (concrete : arg.expectations = []) :
    (state.substituteArg arg).1 = arg := by
  cases arg with
  | value json => rfl
  | nested inner =>
    have kept := state.substitute_of_concrete (Variable.isConcrete_iff.2 concrete)
    exact congrArg (fun result => Arg.nested result.1) kept
  | expect target => cases concrete

theorem attempt_declared_of_waiting {v : Variable} (waits : v.isConcrete ≠ true) :
    (state.attempt v).declared =
      .ofParts v.path (v.positional.map fun arg => (state.substituteArg arg).1)
        (v.named.map fun entry => (entry.1, (state.substituteArg entry.2).1)) := by
  rw [attempt_declared_eq, state.substitute_of_waiting waits]

theorem attempt_declared_arguments (v : Variable) :
    (state.attempt v).declared.path = v.path ∧
      (state.attempt v).declared.positional =
        v.positional.map (fun arg => (state.substituteArg arg).1) ∧
      (state.attempt v).declared.named =
        v.named.map fun entry => (entry.1, (state.substituteArg entry.2).1) := by
  by_cases concrete : v.isConcrete = true
  · have kept : ∀ arg ∈ v.arguments, (state.substituteArg arg).1 = arg := by
      have none := Variable.isConcrete_iff.1 concrete
      rw [Variable.expectations_eq_flatMap, List.flatMap_eq_nil_iff] at none
      exact fun arg member => state.substituteArg_of_concrete (none arg member)
    obtain ⟨positional, named⟩ := Variable.arguments_unchanged kept
    rw [attempt_declared_of_concrete concrete, positional, named]
    exact ⟨rfl, rfl, rfl⟩
  · rw [state.attempt_declared_of_waiting concrete]
    exact ⟨rfl, rfl, rfl⟩

theorem mem_attempt_declared {v : Variable} {arg : Arg} :
    arg ∈ (state.attempt v).declared.arguments ↔
      ∃ given ∈ v.arguments, (state.substituteArg given).1 = arg := by
  obtain ⟨_, positional, named⟩ := state.attempt_declared_arguments v
  have mapped : (state.attempt v).declared.arguments =
      v.arguments.map fun given => (state.substituteArg given).1 := by
    simp [Variable.arguments, positional, named, Function.comp_def]
  rw [mapped, List.mem_map]

theorem attempt_missing (v : Variable) : (state.attempt v).missing =
    state.unknown v.expectations ++ (state.callForm (state.attempt v).declared).2 := by
  rw [← state.substitute_missing v]
  rfl

theorem attempt_call_supply (v : Variable) :
    (state.attempt v).call = (state.attempt v).declared.supply state.value? :=
  callForm_fst state (state.attempt v).declared

end Attempts

/-- A variable can be computed: its expectations and the variables nested directly in its declared
form have values. -/
def Ready (state : Resolution) (v : Variable) : Prop :=
  (∀ target ∈ v.expectations, (state.value? target).isSome) ∧
    ∀ inner, .nested inner ∈ (v.replace state.value?).arguments →
      (state.value? inner.identifier).isSome

theorem attempt_declared (state : Resolution) {v : Variable} (proper : v.Proper) :
    (state.attempt v).declared = v.replace state.value? := by
  simp [attempt, state.substitute_eq proper]

theorem attempt_call (state : Resolution) {v : Variable} (proper : v.Proper) :
    (state.attempt v).call = (v.replace state.value?).supply state.value? := by
  simp [attempt, state.substitute_eq proper, callForm_fst]

theorem attempt_missing_eq_nil {state : Resolution} {v : Variable} (proper : v.Proper) :
    (state.attempt v).missing = [] ↔ state.Ready v := by
  simp only [attempt, state.substitute_eq proper, List.append_eq_nil_iff, unknown_eq_nil,
    callForm_snd_eq_nil, Ready]

end Resolution
end TwoPhase
