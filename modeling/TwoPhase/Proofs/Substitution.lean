import TwoPhase.Proofs.RelatedLists
import TwoPhase.Proofs.Replacement

/-
Substitution seen from its result. `FilledIn` says what becomes of a variable when the expectations
that have values give way to them: a concrete variable stays as it is, under whatever name it
was given, and everything around it is named anew. Names need not be hashes here, and literals may
be tagged.
-/
namespace TwoPhase

mutual
/-- A variable and what it is once the expectations with values are filled in: itself if it is
concrete, else one of the same path and places for arguments, named by its own definition. -/
inductive Variable.FilledIn (values : String → Option Json) : Variable → Variable → Prop where
  | kept {v : Variable} (concrete : v.expectations = []) : Variable.FilledIn values v v
  | rehashed {v w : Variable} (waits : v.expectations ≠ []) (path : w.path = v.path)
      (count : w.positional.length = v.positional.length)
      (names : w.named.map Prod.fst = v.named.map Prod.fst)
      (arguments : List.Forall₂ (Arg.FilledIn values) v.arguments w.arguments)
      (hashed : w.identifier = identifierOf w.definition) : Variable.FilledIn values v w
inductive Arg.FilledIn (values : String → Option Json) : Arg → Arg → Prop where
  | literal (json : Json) : Arg.FilledIn values (.value json) (.value json)
  | nested {v w : Variable} (inner : Variable.FilledIn values v w) :
      Arg.FilledIn values (.nested v) (.nested w)
  | given {target : String} {value : Json} (known : values target = some value) :
      Arg.FilledIn values (.expect target) (.value value)
  | missing {target : String} (unknown : values target = none) :
      Arg.FilledIn values (.expect target) (.expect target)
end

namespace Variable
variable {values : String → Option Json} {v w u : Variable}

namespace FilledIn

theorem expectations (filled : v.FilledIn values w) :
    w.expectations = v.expectations.filter fun target => (values target).isNone := by
  induction w using nesting_induction generalizing v with
  | step w ih =>
    cases filled with
    | kept concrete => simp [concrete]
    | rehashed _ _ _ _ arguments _ =>
      have each : ∀ given : Arg, ∀ arg ∈ w.arguments, given.FilledIn values arg → arg.expectations =
          given.expectations.filter fun target => (values target).isNone := by
        intro given arg member filled
        cases filled with
        | literal json => rfl
        | nested inner => exact ih _ member inner
        | given known => simp [Arg.expectations, known]
        | missing unknown => simp [Arg.expectations, unknown]
      rw [expectations_eq_flatMap, expectations_eq_flatMap, List.filter_flatMap, List.flatMap_def,
        List.flatMap_def, map_eq_map_of_related arguments each]

theorem concrete_mem (filled : v.FilledIn values w) (member : u ∈ v.family)
    (concrete : u.expectations = []) : u ∈ w.family := by
  induction v using nesting_induction generalizing w with
  | step v ih =>
    cases filled with
    | kept _ => exact member
    | rehashed waits _ _ _ arguments _ =>
      rcases mem_family.1 member with rfl | ⟨inner, inArguments, deeper⟩
      · exact absurd concrete waits
      · obtain ⟨arg, inFilled, argFilled⟩ := exists_of_mem_left arguments inArguments
        cases argFilled with
        | nested innerFilled =>
          exact family_subset (nested_mem_family inFilled) (ih inner inArguments innerFilled deeper)

theorem named (filled : v.FilledIn values w) (member : u ∈ w.family) :
    (u ∈ v.family ∧ u.expectations = []) ∨ u.identifier = identifierOf u.definition := by
  induction w using nesting_induction generalizing v with
  | step w ih =>
    cases filled with
    | kept concrete => exact Or.inl ⟨member, concrete_of_mem_family concrete member⟩
    | rehashed _ _ _ _ arguments hashed =>
      rcases mem_family.1 member with rfl | ⟨inner, inFilled, deeper⟩
      · exact Or.inr hashed
      · obtain ⟨given, inArguments, argFilled⟩ := exists_of_mem_right arguments inFilled
        cases argFilled with
        | nested innerFilled =>
          exact (ih inner inFilled innerFilled deeper).imp_left fun ⟨inGiven, concrete⟩ =>
            ⟨family_subset (nested_mem_family inArguments) inGiven, concrete⟩

end FilledIn
end Variable

namespace Resolution
variable {state : Resolution} {v w : Variable}

theorem substitute_filledIn (state : Resolution) (v : Variable) :
    v.FilledIn state.value? (state.substitute v).1 := by
  induction v using Variable.nesting_induction with
  | step v ih =>
    by_cases concrete : v.isConcrete = true
    · rw [state.substitute_of_concrete concrete]
      exact .kept (Variable.isConcrete_iff.1 concrete)
    · have each : ∀ arg ∈ v.arguments, arg.FilledIn state.value? (state.substituteArg arg).1 := by
        intro arg member
        cases arg with
        | value json => exact .literal json
        | nested inner => exact .nested (ih inner member)
        | expect target =>
          cases known : state.value? target with
          | none => simpa [substituteArg, known] using .missing known
          | some value => simpa [substituteArg, known] using .given known
      rw [state.substitute_of_waiting concrete]
      refine .rehashed (fun none => concrete (Variable.isConcrete_iff.2 none)) rfl ?_ ?_ ?_ ?_
      · exact List.length_map _
      · rw [Variable.ofParts, List.map_map]
        rfl
      · rw [Variable.arguments_ofParts_map fun arg => (state.substituteArg arg).1,
          List.forall₂_map_right_iff, List.forall₂_same]
        exact each
      · simp [Variable.ofParts, Variable.definition]

theorem substitute_of_filledIn (filled : v.FilledIn state.value? w) :
    (state.substitute w).1 = w := by
  induction w using Variable.nesting_induction generalizing v with
  | step w ih =>
    by_cases concrete : w.isConcrete = true
    · rw [state.substitute_of_concrete concrete]
    · cases filled with
      | kept none => exact absurd (Variable.isConcrete_iff.2 none) concrete
      | rehashed _ _ _ _ arguments hashed =>
        have same : ∀ arg ∈ w.arguments, (state.substituteArg arg).1 = arg := by
          intro arg member
          obtain ⟨given, _, argFilled⟩ := exists_of_mem_right arguments member
          cases argFilled with
          | literal json => rfl
          | nested inner => exact congrArg Arg.nested (ih _ member inner)
          | given known => rfl
          | missing unknown => simp [substituteArg, unknown]
        obtain ⟨positional, named⟩ := Variable.arguments_unchanged same
        rw [state.substitute_of_waiting concrete, positional, named]
        exact (Variable.eq_ofParts_of_hashed hashed).symm

/-- What is left to wait for, what became of every argument and every name, and that doing it again
changes nothing. -/
structure Substituted (state : Resolution) (v result : Variable) (missing : List String) :
    Prop where
  remaining : result.expectations = missing
  valueless : ∀ target ∈ missing, state.value? target = none
  filled : v.FilledIn state.value? result
  kept : ∀ u ∈ v.family, u.expectations = [] → u ∈ result.family
  named : ∀ u ∈ result.family,
    (u ∈ v.family ∧ u.expectations = []) ∨ u.identifier = identifierOf u.definition
  complete : missing = [] ↔ result.isConcrete = true
  settled : state.substitute result = (result, missing)

theorem substitute_replaces_known (state : Resolution) (v : Variable) :
    state.Substituted v (state.substitute v).1 (state.substitute v).2 := by
  have filled := state.substitute_filledIn v
  have reported := state.substitute_missing v
  have remaining : (state.substitute v).1.expectations = (state.substitute v).2 := by
    rw [reported, filled.expectations]
    rfl
  have again : (state.substitute (state.substitute v).1).2 = (state.substitute v).2 := by
    rw [substitute_missing, remaining, reported]
    simp [unknown]
  exact {
    remaining
    valueless := by
      intro target member
      rw [reported] at member
      simpa using (List.mem_filter.1 member).2
    filled
    kept := fun u member concrete => filled.concrete_mem member concrete
    named := fun u member => filled.named member
    complete := by rw [Variable.isConcrete_iff, remaining]
    settled := Prod.ext (substitute_of_filledIn filled) again }

example : ((⟨NameMap.empty.insert "x" (.str "1"), {}⟩ : Resolution).substitute
    ⟨"p", [.nested ⟨"q", [], [], "own"⟩, .expect "x", .expect "y"], [], "outer"⟩).1.positional =
      [.nested ⟨"q", [], [], "own"⟩, .value (.str "1"), .expect "y"] := rfl

end Resolution
end TwoPhase
