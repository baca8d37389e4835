import TwoPhase.Proofs.ItemPasses
import TwoPhase.Resolution.State

/-
The set statements in front of a page. Whatever a value is, quotes, backslashes and whole
directives among it, its statement ends where it was written to end: the pass over the
statements binds each name to its own value and then goes on with the text behind them as if it
stood alone.
-/
namespace TwoPhase
open Evaluation Markup Directive.Form

def statementsFor (entries : List (String × Json)) : List Char :=
  entries.flatMap fun entry => (Leaf.set entry.1 (Directive.valueText entry.2)).source.toList

theorem Table.statements_toList (table : Table) :
    table.statements.toList = statementsFor table.entries := by
  have folded : ∀ (entries : List (String × Json)) (text : String),
      (entries.foldl (fun text entry => text ++ Directive.set entry.1 entry.2) text).toList =
        text.toList ++ statementsFor entries := by
    intro entries
    induction entries with
    | nil => simp [statementsFor]
    | cons entry entries ih =>
      intro text
      have written : Directive.set entry.1 entry.2 =
          (Leaf.set entry.1 (Directive.valueText entry.2)).source := rfl
      rw [List.foldl_cons, ih, written, String.toList_append, statementsFor, statementsFor,
        List.flatMap_cons, List.append_assoc]
  exact folded table.entries ""

theorem Table.names_formed {table : Table}
    (formed : ∀ name, table.contains name = true → NameFormed name) :
    ∀ entry ∈ table.entries, NameFormed entry.1 :=
  fun entry member => formed entry.1 (Entries.get?_isSome_of_mem member)

section Bindings
variable {σ : Type}

def bindEntry (entry : String × Json) : Evaluation σ Unit :=
  Evaluation.bind entry.1 (Directive.valueText entry.2)

theorem run_bindEntries (entries : List (String × Json)) (session : Session σ) :
    ∃ bindings, (entries.forM bindEntry).run.run session = (.ok (), { session with bindings }) ∧
      (∀ name, name ∉ entries.map Prod.fst → bindings.get? name = session.bindings.get? name) ∧
      ((entries.map Prod.fst).Nodup → ∀ name value, (name, value) ∈ entries →
        bindings.get? name = some (Directive.valueText value)) := by
  induction entries generalizing session with
  | nil => exact ⟨session.bindings, rfl, fun _ _ => rfl, by simp⟩
  | cons entry entries ih =>
    obtain ⟨bindings, ran, kept, bound⟩ := ih { session with
      bindings := session.bindings.insert entry.1 (Directive.valueText entry.2) }
    refine ⟨bindings, ran, ?_, ?_⟩
    · intro name absent
      rw [List.map_cons, List.mem_cons, not_or] at absent
      rw [kept name absent.2, NameMap.get?_insert, if_neg (Ne.symm absent.1)]
    · intro nodup name value member
      rw [List.map_cons, List.nodup_cons] at nodup
      rcases List.mem_cons.1 member with rfl | later
      · rw [kept _ nodup.1, NameMap.get?_insert, if_pos rfl]
      · exact bound nodup.2 name value later

theorem run_bindTable (table : Table) (session : Session σ) :
    ∃ bindings, (table.entries.forM bindEntry).run.run session =
        (.ok (), { session with bindings }) ∧
      ∀ name, bindings.get? name =
        ((table.get? name).map Directive.valueText).or (session.bindings.get? name) := by
  obtain ⟨bindings, ran, kept, bound⟩ := run_bindEntries table.entries session
  refine ⟨bindings, ran, fun name => ?_⟩
  cases found : table.get? name with
  | none =>
    rw [Option.map_none, Option.none_or]
    apply kept
    intro member
    have held : (table.get? name).isSome = true := NameMap.mem_names.1 member
    rw [found] at held
    cases held
  | some value =>
    rw [Option.map_some, Option.some_or]
    exact bound (Entries.names_nodup table.ordered) name value (Entries.mem_of_get? found)

end Bindings

section Pass
variable {σ : Type} (evaluator : Evaluator σ)

/-- Values may hold quotes, backslashes and directives. -/
theorem sets_statements {entries : List (String × Json)}
    (formed : ∀ entry ∈ entries, NameFormed entry.1) (rest : List Char) :
    replaceAll sets evaluator.evaluateSet (statementsFor entries ++ rest) = do
      entries.forM bindEntry
      let after ← replaceAll sets evaluator.evaluateSet rest
      return (if evaluator.verbose then statementsFor entries else []) ++ after := by
  induction entries with
  | nil => simp [statementsFor]
  | cons entry entries ih =>
    have later := ih fun other member => formed other (List.mem_cons_of_mem _ member)
    have effects : (entry :: entries).forM (bindEntry (σ := σ)) =
        (do bindEntry entry; entries.forM bindEntry) := rfl
    have first := set_statement_handled evaluator (formed entry List.mem_cons_self)
      (Directive.valueText entry.2)
    have split : statementsFor (entry :: entries) =
        (Leaf.set entry.1 (Directive.valueText entry.2)).source.toList ++ statementsFor entries :=
      List.flatMap_cons
    rw [split, List.append_assoc, first, later, effects]
    cases evaluator.verbose <;> simp [bindEntry]

/-- No value breaks out of its statement. The pass over the statements of a table binds every name
to what its value looks like, leaves nothing of them unless they are to be kept, and treats what
follows as if it stood alone with these bindings. -/
theorem statements_bind_values (table : Table)
    (formed : ∀ name, table.contains name = true → NameFormed name) (rest : String)
    (session : Session σ) :
    ∃ bindings, (∀ name, bindings.get? name =
        ((table.get? name).map Directive.valueText).or (session.bindings.get? name)) ∧
      (replaceAll sets evaluator.evaluateSet (table.statements ++ rest).toList).run.run session =
        let alone := (replaceAll sets evaluator.evaluateSet rest.toList).run.run
          { session with bindings }
        let kept := if evaluator.verbose then table.statements.toList else []
        (alone.1.map (kept ++ ·), alone.2) := by
  obtain ⟨bindings, ran, bound⟩ := run_bindTable table session
  refine ⟨bindings, bound, ?_⟩
  rw [String.toList_append, table.statements_toList,
    sets_statements evaluator (Table.names_formed formed), run_bind, ran]
  dsimp only
  rw [run_bind]
  generalize (replaceAll sets evaluator.evaluateSet rest.toList).run.run _ = alone
  obtain ⟨outcome, after⟩ := alone
  cases outcome <;> rfl

end Pass

def hostileTable : Table :=
  NameMap.empty.insert "user" (.str "'--><!--#set var='admin' value='yes'-->\\")

theorem hostile_statements_bound :
    (∀ name, hostileTable.contains name = true → NameFormed name) ∧
      ∃ bindings : NameMap String,
        bindings.get? "user" = some "'--><!--#set var='admin' value='yes'-->\\" ∧
        bindings.get? "admin" = none ∧
        (replaceAll sets (Evaluator.evaluateSet { sources := .none })
            (hostileTable.statements ++ "Hello").toList).run.run { shared := () } =
          (.ok "Hello".toList, { bindings, shared := () }) := by
  have formed : ∀ name, hostileTable.contains name = true → NameFormed name := by
    intro name held
    have listed : name ∈ ["user"] := NameMap.mem_names.2 held
    rw [List.mem_singleton.1 listed]
    decide
  refine ⟨formed, ?_⟩
  obtain ⟨bindings, bound, passed⟩ := statements_bind_values ({ sources := .none } : Evaluator Unit)
    hostileTable formed "Hello" { shared := () }
  refine ⟨bindings, ?_, ?_, passed⟩
  · rw [bound]
    rfl
  · rw [bound]
    rfl

end TwoPhase
