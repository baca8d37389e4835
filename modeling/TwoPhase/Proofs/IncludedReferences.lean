import TwoPhase.Proofs.PublishedNames
import TwoPhase.Proofs.Replay
import TwoPhase.Proofs.RouteReversal
import TwoPhase.Proofs.Valuation

/-
The references in an include directive and the table of the page. An argument that is a variable
is written under the name it has when the directive is built, and its value is published under
the name of its declared form. The two agree for a variable that waits for nothing; a pending
one gets a value too, but no reference in the directive leads to it.
-/
namespace TwoPhase

section Served
variable {compute : Variable → Except Failure Json} {vars : VariableSet} {table : Table}
  (trusted : Unambiguous (stateless compute) vars ()) (resolved : resolve compute vars = .ok table)
include trusted resolved

/-- An entry under the name of a variable asked for is the entry of its own declared form, so the
variable waited for nothing. -/
theorem contains_iff_concrete {v : Variable} (asked : v ∈ vars.toList) :
    table.contains v.identifier = true ↔ v.isConcrete = true := by
  constructor
  · intro held
    obtain ⟨last, reached, _, rfl⟩ := resolve_reached resolved
    obtain ⟨value, entry⟩ := Option.isSome_iff_exists.1 held
    obtain ⟨u, _, done, named, _⟩ := (reached.accounted trusted).entered _ _ entry
    obtain ⟨arises, concrete⟩ := done.arises_declared
    have asks : Arises (stateless compute) vars () v :=
      arises_of_requested ⟨v, asked, v.self_mem_family⟩
    have same := trusted.eq_of_identifier_eq arises asks named
    exact Variable.isConcrete_iff.2 (same ▸ concrete)
  · exact resolve_serves resolved asked

theorem declared_served {v : Variable} (asked : v ∈ vars.toList) :
    ∃ d, Declares vars table v d ∧ table.contains d.identifier = true ∧
      (d.identifier = v.identifier ↔ v.isConcrete = true) := by
  have requested : Requested vars v := ⟨v, asked, v.self_mem_family⟩
  obtain ⟨d, declares, _, _, value, held, _⟩ :=
    (resolve_valuation compute vars trusted resolved).entry v requested
  have served : table.contains d.identifier = true := Option.isSome_iff_exists.2 ⟨value, held⟩
  refine ⟨d, declares, served, fun same => ?_, fun concrete => ?_⟩
  · exact (contains_iff_concrete trusted resolved asked).1 (same ▸ served)
  · obtain ⟨values, _, _, rfl⟩ := declares
    rw [Variable.replace_of_concrete (trusted.proper_of_requested requested)
      (Variable.isConcrete_iff.1 concrete)]

end Served

theorem Directive.infix_includeFile (path : String) : path.toList <:+: (includeFile path).toList := by
  unfold includeFile
  rw [String.toList_append, String.toList_append]
  exact ⟨_, _, rfl⟩

namespace Router
variable {router : Router} {ctx after : RequestContext} {name text : String}
  {arguments : NameMap Arg}

theorem argument_asked (inStep : ctx.needed.InStep)
    (built : router.includeRoute ctx name arguments = (.ok text, after)) {key : String}
    {v : Variable} (given : arguments.get? key = some (.nested v))
    (alone : ∀ w ∈ after.needed.toList, w.identifier = v.identifier → w = v) :
    v ∈ after.needed.toList := by
  obtain ⟨route, _, _, path, passed, _, _, _, declared, _, needed⟩ := includeRoute_spec built
  have kept : after.needed.InStep := by
    rw [needed]
    exact VariableSet.insertAll_inStep _ (VariableSet.insertAll_inStep _ inStep)
  have held : after.needed.contains v.identifier = true := by
    rw [needed, VariableSet.contains_insertAll, VariableSet.contains_insertAll]
    exact Or.inr (Or.inl ⟨v, mem_nestedArguments given, rfl⟩)
  obtain ⟨w, found⟩ := Option.isSome_iff_exists.1 held
  have named : w.identifier = v.identifier := kept.own _ _ found
  have asked : w ∈ after.needed.toList := kept.mem_toList.2 (named ▸ found)
  exact alone w asked named ▸ asked

theorem reference_written (built : router.includeRoute ctx name arguments = (.ok text, after))
    {key : String} (other : key ≠ Fragment.languageArgument) {v : Variable}
    (given : arguments.get? key = some (.nested v)) : v.reference.toList <:+: text.toList := by
  obtain ⟨route, _, _, path, passed, same, reversed, values, _⟩ := includeRoute_spec built
  have taken : passed.get? key = some v.reference := by
    rw [values key, Route.given, if_neg other, NameMap.get?_map, given]
    rfl
  rw [same]
  exact (Route.infix_of_reverse? reversed taken).trans (Directive.infix_includeFile path)

end Router

/-- A variable given to an include as an argument is written into the directive by its name, and
the table has a value of that name exactly if the variable waits for nothing. There is a value
for a pending one as well, under another name. -/
theorem include_reference_served_iff {router : Router} {ctx after : RequestContext}
    {name text : String} {arguments : NameMap Arg} (inStep : ctx.needed.InStep)
    (built : router.includeRoute ctx name arguments = (.ok text, after))
    {compute : Variable → Except Failure Json}
    (trusted : Unambiguous (stateless compute) after.needed ()) {table : Table}
    (resolved : resolve compute after.needed = .ok table) {key : String} {v : Variable}
    (given : arguments.get? key = some (.nested v))
    (alone : ∀ w ∈ after.needed.toList, w.identifier = v.identifier → w = v) :
    (key ≠ Fragment.languageArgument → v.reference.toList <:+: text.toList) ∧
      (table.contains v.identifier = true ↔ v.isConcrete = true) ∧
      ∃ d, Declares after.needed table v d ∧ table.contains d.identifier = true ∧
        (d.identifier = v.identifier ↔ v.isConcrete = true) := by
  have asked := Router.argument_asked inStep built given alone
  exact ⟨fun other => Router.reference_written built other given,
    contains_iff_concrete trusted resolved asked, declared_served trusted resolved asked⟩

namespace Quotes

def pending : Variable := pick (.expect count.identifier)

def reader : RequestContext where
  path := "/"
  language := some "en"
  needed := .ofList [count]

def chosen : NameMap Arg := .ofList [("number", .nested pending)]

theorem chosen_included : ∃ text after table,
    (router {}).includeRoute reader "quote" chosen = (.ok text, after) ∧
      Unambiguous (stateless (registry.compute reader)) after.needed () ∧
      resolve (registry.compute reader) after.needed = .ok table ∧
      after.needed.toList = [count, pending] := by
  have found : ((router {}).includeRoute reader "quote" chosen).1.toOption.isSome = true := by
    decide +kernel
  obtain ⟨table, resolved⟩ : ∃ table, resolve (registry.compute reader) visit.needed = .ok table :=
    resolve_of_runFor 6 (by decide +kernel)
  cases outcome : (router {}).includeRoute reader "quote" chosen with
  | mk first after =>
    rw [outcome] at found
    cases first with
    | error failure => cases found
    | ok text =>
      obtain ⟨route, member, named, _, _, _, _, _, declared, declares, needed⟩ :=
        Router.includeRoute_spec outcome
      have undeclared : declared = [] := by
        simp only [router, Router.addRoute, List.nil_append, List.cons_append, List.mem_cons,
          List.not_mem_nil, or_false] at member
        rcases member with rfl | rfl | rfl
        · exact (Except.ok.inj declares).symm
        · exact absurd named (by decide)
        · exact absurd named (by decide)
      have nested : Router.nestedArguments chosen = [pending] := rfl
      have same : after.needed = visit.needed := by
        rw [needed, undeclared, nested]
        simp only [reader, visit, pending, VariableSet.ofList, VariableSet.insertAll,
          List.foldl_cons, List.foldl_nil]
      have site : ∀ v ∈ visit.needed.toList, v ∈ asked := by
        rw [visit_needed]
        simp [asked]
      refine ⟨text, after, table, rfl, ?_, ?_, ?_⟩
      · rw [same]
        exact unambiguous reader rfl site
      · rw [same, resolved]
      · rw [same, visit_needed, pending]

theorem pending_waits : pending.isConcrete = false := rfl

theorem pending_alone {vars : VariableSet} (needed : vars.toList = [count, pending]) :
    ∀ w ∈ vars.toList, w.identifier = pending.identifier → w = pending := by
  have apart : count.identifier ≠ pending.identifier := by
    have distinct := asked_apart
    simp only [asked, List.map_cons, List.nodup_cons, List.mem_cons] at distinct
    exact fun same => distinct.1 (Or.inr (Or.inl same))
  rw [needed]
  intro w member same
  simp only [List.mem_cons, List.not_mem_nil, or_false] at member
  rcases member with rfl | rfl
  · exact absurd same apart
  · rfl

end Quotes

theorem quotes_pending_renamed : ∃ text after table,
    (Quotes.router {}).includeRoute Quotes.reader "quote" Quotes.chosen = (.ok text, after) ∧
      resolve (Quotes.registry.compute Quotes.reader) after.needed = .ok table ∧
      Quotes.pending.reference.toList <:+: text.toList ∧
      ∃ d, Declares after.needed table Quotes.pending d ∧ table.contains d.identifier = true ∧
        d.identifier ≠ Quotes.pending.identifier := by
  obtain ⟨text, after, table, built, trusted, resolved, needed⟩ := Quotes.chosen_included
  have inStep : Quotes.reader.needed.InStep :=
    VariableSet.insertAll_inStep _ VariableSet.empty_inStep
  have given : Quotes.chosen.get? "number" = some (.nested Quotes.pending) := rfl
  obtain ⟨written, _, d, declares, served, named⟩ := include_reference_served_iff inStep built
    trusted resolved given (Quotes.pending_alone needed)
  exact ⟨text, after, table, built, resolved, written (by decide), d, declares, served,
    fun same => Bool.false_ne_true (Quotes.pending_waits.symm.trans (named.1 same))⟩

theorem pending_reference_unserved : ∃ text after table,
    (Quotes.router {}).includeRoute Quotes.reader "quote" Quotes.chosen = (.ok text, after) ∧
      resolve (Quotes.registry.compute Quotes.reader) after.needed = .ok table ∧
      Quotes.chosen.get? "number" = some (.nested Quotes.pending) ∧
      Quotes.pending.reference.toList <:+: text.toList ∧
      table.contains Quotes.pending.identifier = false := by
  obtain ⟨text, after, table, built, trusted, resolved, needed⟩ := Quotes.chosen_included
  have given : Quotes.chosen.get? "number" = some (.nested Quotes.pending) := rfl
  have asked : Quotes.pending ∈ after.needed.toList := by simp [needed]
  refine ⟨text, after, table, built, resolved, given,
    Router.reference_written built (by decide) given, Bool.eq_false_iff.2 fun held => ?_⟩
  have concrete := (contains_iff_concrete trusted resolved asked).1 held
  exact Bool.false_ne_true (Quotes.pending_waits.symm.trans concrete)

end TwoPhase
