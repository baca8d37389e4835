import Mathlib.Data.List.Nodup
import TwoPhase.Proofs.Settlement
import TwoPhase.Proofs.VariableSets
import TwoPhase.Quotes

/-
Which names a run can meet. Whatever the order, each is the name of a form: a variable asked
for, with answers of the computation in place of some of its expectations. Where there are
few answers the forms can be listed, and names are trusted once no two of the list agree.
-/
namespace TwoPhase
variable {σ : Type} {compute : Variable → σ → Except Failure Json × σ} {vars : VariableSet}
  {initial : σ} {answers : Json → Prop}
open Progress

/-- A variable asked for, with answers in place of some of its expectations. -/
def Form (vars : VariableSet) (answers : Json → Prop) (v : Variable) : Prop :=
  ∃ u, Requested vars u ∧ ∃ values : String → Option Json,
    (∀ target value, values target = some value → answers value) ∧ v = u.replace values

theorem Settles.table_given {state next : Resolution} {v : Variable} {value : Json}
    (gives : ∀ v before value after, compute v before = (.ok value, after) → answers value)
    (settles : Settles compute state next v value)
    (held : ∀ name value, state.table.get? name = some value → answers value) :
    ∀ name value, next.table.get? name = some value → answers value := by
  intro name found known
  rw [settles.table] at known
  split at known
  · cases known
    rcases settles.source with present | ⟨_, before, after, answer⟩
    · exact held _ _ present
    · exact gives _ before value after answer
  · exact held name found known

theorem Progress.Reached.table_given
    (gives : ∀ v before value after, compute v before = (.ok value, after) → answers value)
    (proper : ∀ v ∈ vars.toList, v.Proper) {progress : Progress} {state : σ}
    (reached : Reached compute vars initial progress state) :
    ∀ name value, progress.resolution.table.get? name = some value → answers value := by
  have seeds : ∀ v ∈ seed vars, v.Proper :=
    fun v seeded => (requested_of_mem_seed seeded).proper proper
  refine reached.settling_induction (motive := fun _ resolution => ∀ name value,
    resolution.table.get? name = some value → answers value) seeds ?_ ?_ ?_
  · intro name value found
    cases found
  · exact fun held => held
  · intro progress before v rest next value reached first settles ih
    exact settles.table_given gives ih

theorem form_of_arises
    (gives : ∀ v before value after, compute v before = (.ok value, after) → answers value)
    (proper : ∀ v ∈ vars.toList, v.Proper) {v : Variable}
    (arises : Arises compute vars initial v) : Form vars answers v := by
  obtain ⟨progress, state, reached, queued | attempted⟩ := arises
  · obtain ⟨u, member, inside⟩ := queued
    obtain ⟨w, asked, deeper⟩ := requested_of_mem_seed (reached.queued_seeded u member)
    have requested : Requested vars v := ⟨w, asked, Variable.family_subset deeper inside⟩
    have kept : v = v.replace fun _ => none :=
      (Variable.replace_of_unknown (requested.proper proper) fun _ _ => rfl).symm
    exact ⟨v, requested, fun _ => none, by simp, kept⟩
  · obtain ⟨u, rest, first, inside⟩ := attempted
    obtain ⟨w, asked, deeper⟩ := requested_of_mem_seed (reached.queued_seeded u (by simp [first]))
    rw [Resolution.attempt_declared _ ((proper w asked).of_mem_family deeper),
      Variable.mem_family_replace] at inside
    obtain ⟨t, inFamily, rfl⟩ := inside
    exact ⟨t, ⟨w, asked, Variable.family_subset deeper inFamily⟩, progress.resolution.value?,
      Resolution.value?_given (reached.table_given gives proper), rfl⟩

theorem unambiguous_of_forms (answers : Json → Prop)
    (gives : ∀ v before value after, compute v before = (.ok value, after) → answers value)
    (proper : ∀ v ∈ vars.toList, v.Proper) (untagged : ∀ value, answers value → ¬ value.IsTagged)
    (distinct : ∀ v w, Form vars answers v → Form vars answers w →
      v.identifier = w.identifier → v.definition = w.definition) :
    Unambiguous compute vars initial where
  proper := proper
  untagged _ _ reached name value found :=
    untagged value (reached.table_given gives proper name value found)
  distinct v w left right :=
    distinct v w (form_of_arises gives proper left) (form_of_arises gives proper right)

namespace Quotes

/-- What the page of the site and its fragments ask for. -/
def asked : List Variable := [count, pick (.nested count), pick (.expect count.identifier)]

def answered : List Json := [(Json.ofInt? quotes.length).getD .null, .int 0, .str ""]

/-- The variables asked for, with the answers that may come to stand in them. -/
def forms : List Variable := asked ++ answered.map fun value => pick (.value value)

theorem count_proper : count.Proper := Variable.ofParts_proper (by simp) (by simp)

theorem pick_proper {limit : Arg} (literal : ∀ json, limit = .value json → ¬ json.IsTagged)
    (nested : ∀ inner, limit = .nested inner → inner.Proper) : (pick limit).Proper := by
  apply Variable.ofParts_proper
  · intro json member
    exact literal json (List.mem_singleton.1 member).symm
  · intro inner member
    exact nested inner (List.mem_singleton.1 member).symm

theorem pick_replace (limit : Arg) (values : String → Option Json) :
    (pick limit).replace values = pick (limit.replace values) :=
  Variable.replace_eq values (pick limit)

theorem asked_proper : ∀ v ∈ asked, v.Proper := by
  intro v member
  simp only [asked, List.mem_cons, List.not_mem_nil, or_false] at member
  rcases member with rfl | rfl | rfl
  · exact count_proper
  · apply pick_proper
    · intro json literal
      cases literal
    · intro inner nested
      cases nested
      exact count_proper
  · apply pick_proper
    · intro json literal
      cases literal
    · intro inner nested
      cases nested

theorem requested_asked {vars : VariableSet} (site : ∀ v ∈ vars.toList, v ∈ asked) {v : Variable}
    (requested : Requested vars v) : v ∈ asked := by
  obtain ⟨u, member, inside⟩ := requested
  have among := site u member
  simp only [asked, List.mem_cons, List.not_mem_nil, or_false] at among ⊢
  have count_family : count.family = [count] := rfl
  rcases among with rfl | rfl | rfl
  · rw [count_family, List.mem_singleton] at inside
    exact Or.inl inside
  · rcases Variable.mem_family.1 inside with same | ⟨inner, nested, deeper⟩
    · exact Or.inr (Or.inl same)
    · cases List.mem_singleton.1 nested
      rw [count_family, List.mem_singleton] at deeper
      exact Or.inl deeper
  · rcases Variable.mem_family.1 inside with same | ⟨inner, nested, deeper⟩
    · exact Or.inr (Or.inr same)
    · cases List.mem_singleton.1 nested

theorem form_listed {vars : VariableSet} (site : ∀ v ∈ vars.toList, v ∈ asked) {v : Variable}
    (form : Form vars (· ∈ answered) v) : v ∈ forms := by
  obtain ⟨u, requested, values, given, rfl⟩ := form
  have among := requested_asked site requested
  have proper := asked_proper u among
  simp only [asked, List.mem_cons, List.not_mem_nil, or_false] at among
  rcases among with rfl | rfl | rfl
  · rw [Variable.replace_of_concrete proper rfl]
    simp [forms, asked]
  · rw [Variable.replace_of_concrete proper rfl]
    simp [forms, asked]
  · rw [pick_replace, Arg.replace]
    split
    · next value known =>
      exact List.mem_append_right _ (List.mem_map_of_mem (given _ value known))
    · simp [forms, asked]

theorem forms_apart : (forms.map Variable.identifier).Nodup := by decide +kernel

theorem asked_apart : (asked.map Variable.identifier).Nodup := by
  have apart := forms_apart
  rw [forms, List.map_append] at apart
  exact apart.of_append_left

theorem pick_answer {ctx : RequestContext} (plain : ctx.metadata = {}) {positional : List Json}
    {named : List (String × Json)} {value : Json}
    (answer : computePick ctx positional named = .ok value) : value ∈ answered := by
  unfold computePick at answer
  split at answer
  · cases answer
  · next limit found =>
    have seed : (ctx.metadata.get? seedName).elim (.ok 0) readWord = .ok 0 := by rw [plain]; rfl
    rw [seed] at answer
    change Except.ok ((Json.ofInt? ((0 % limit : Nat) : Int)).getD .null) = .ok value at answer
    rw [Nat.zero_mod] at answer
    cases answer
    exact List.mem_cons_of_mem _ List.mem_cons_self

theorem answer_listed {ctx : RequestContext} (plain : ctx.metadata = {}) {v : Variable}
    {value : Json} (answer : registry.compute ctx v = .ok value) : value ∈ answered := by
  unfold Registry.compute at answer
  split at answer
  · cases answer
  · next positional named literal =>
    split at answer
    · cases answer
    · next computation found =>
      simp only [registry, Registry.register, NameMap.get?_insert] at found
      split at found
      · cases found
        cases answer
        rw [plain]
        exact List.mem_cons_of_mem _ (List.mem_cons_of_mem _ List.mem_cons_self)
      · split at found
        · cases found
          exact pick_answer plain answer
        · split at found
          · cases found
            cases answer
            exact List.mem_cons_self
          · cases found

theorem unambiguous (ctx : RequestContext) (plain : ctx.metadata = {}) {vars : VariableSet}
    (site : ∀ v ∈ vars.toList, v ∈ asked) :
    Unambiguous (stateless (registry.compute ctx)) vars () := by
  refine unambiguous_of_forms (· ∈ answered) ?_ ?_ ?_ ?_
  · intro v before value after answer
    exact answer_listed plain (congrArg Prod.fst answer)
  · exact fun v member => asked_proper v (site v member)
  · intro value member
    simp only [answered, List.mem_cons, List.not_mem_nil, or_false] at member
    rcases member with rfl | rfl | rfl <;> exact id
  · intro v w left right same
    rw [List.inj_on_of_nodup_map forms_apart (form_listed site left) (form_listed site right) same]

theorem unambiguous_reordered (ctx : RequestContext) (plain : ctx.metadata = {})
    {vars : List Variable} (reordered : vars.Perm asked) :
    (VariableSet.ofList vars).toList = vars ∧
      Unambiguous (stateless (registry.compute ctx)) (.ofList vars) () := by
  have listed : (VariableSet.ofList vars).toList = vars :=
    VariableSet.toList_ofList ((reordered.map _).nodup_iff.2 asked_apart)
  refine ⟨listed, unambiguous ctx plain ?_⟩
  intro v member
  rw [listed] at member
  exact reordered.mem_iff.1 member

end Quotes
end TwoPhase
