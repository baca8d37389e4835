import TwoPhase.Proofs.CacheTransparency
import TwoPhase.Proofs.EchoedValues
import TwoPhase.Proofs.RouteReversal

/-
An include directive by itself, evaluated. None of the passes before it finds anything in it,
whatever the quoted path spells, and its path is asked for once, at level 0; what the fragment
includes in turn is asked for at deeper levels. Only a reference spelled in the path stands in
the way: there is nothing bound to fill it in with.
-/
namespace TwoPhase

namespace Directive.Form

/-- A reference stands somewhere in the text. -/
def SpellsReference (text : List Char) : Prop :=
  ∃ name, (name ≠ [] ∧ '\x7d' ∉ name) ∧ referenceSource name <:+: text

theorem SpellsReference.dollar_mem {text : List Char} (spells : SpellsReference text) : '$' ∈ text := by
  obtain ⟨name, _, within⟩ := spells
  apply within.subset
  simp [referenceSource, referenceStart]

theorem reference_of_read? {text name rest : List Char}
    (found : readReference? text = some (name, rest)) : name ≠ [] ∧ '\x7d' ∉ name := by
  simp only [readReference?, Option.bind_eq_bind, Option.bind_eq_some_iff, Prod.exists] at found
  obtain ⟨text₁, _, _, _, named, _, _, pair⟩ := found
  cases pair
  unfold someRun? at named
  split at named
  · cases named
  · next nonempty =>
    cases named
    refine ⟨by simpa using nonempty, fun member => ?_⟩
    have kind : isNotBrace '\x7d' = true := List.all_eq_true.1 List.all_takeWhile _ member
    cases kind

theorem references_silent_iff {text : List Char} :
    references.Silent text [] ↔ ¬ SpellsReference text := by
  apply Pattern.silent_iff_not_infix
  · exact fun _ _ _ found => reference_of_read? found
  · exact fun _ valid rest => Option.isSome_iff_exists.2
      ⟨_, readReference?_source valid.1 valid.2 rest⟩

section Alone
variable {path : List Char} (unquoted : '\'' ∉ path)
include unquoted

theorem silent_include {μ : Type} {pattern : Pattern μ} (word : List Char)
    (opens : pattern.OpensWith [word ++ ['\'']]) (wordUnquoted : '\'' ∉ word)
    (opening : Avoids (word ++ ['\'']) fileStart) (closing : Avoids (word ++ ['\'']) directiveEnd)
    (stops : pattern.read? (word ++ directiveEnd) = none) :
    pattern.Silent (IncludeForm.source ⟨fileWord, path⟩) [] := by
  have outside : ∀ {text}, Avoids (word ++ ['\'']) text → ∀ rest, pattern.Silent text rest :=
    fun avoids => Pattern.silent_of_clean opens (by simpa [Clean] using avoids)
  have inside : pattern.Silent path (directiveEnd ++ []) :=
    silent_quoted word opens wordUnquoted unquoted stops
  unfold IncludeForm.source
  rw [Pattern.silent_append, Pattern.silent_append]
  exact ⟨⟨outside opening _, inside⟩, outside closing _⟩

theorem sets_silent_include : sets.Silent (IncludeForm.source ⟨fileWord, path⟩) [] :=
  silent_include unquoted "<!--#set var=".toList sets_opensWith (by decide) (by decide)
    (by decide) rfl

theorem echoes_silent_include : echoes.Silent (IncludeForm.source ⟨fileWord, path⟩) [] :=
  silent_include unquoted "<!--#echo var=".toList echoes_opensWith (by decide)
    (by decide) (by decide) rfl

theorem ifs_silent_include : ifs.Silent (IncludeForm.source ⟨fileWord, path⟩) [] :=
  silent_include unquoted "<!--#if expr=".toList ifs_opensWith (by decide) (by decide)
    (by decide) rfl

end Alone
end Directive.Form

def Visit.level : Visit → Nat
  | .lookup level _ => level
  | .dispatch level _ => level

namespace Evaluation
open Directive.Form
variable {σ μ α β : Type} {allowed : Visit → Prop} {step : Evaluation σ α}

/-- From the session the step asks for nothing but what is allowed. -/
def AsksOnly (allowed : Visit → Prop) (session : Session σ) (step : Evaluation σ α) : Prop :=
  ∃ more, (step.run.run session).2.visits = session.visits ++ more ∧ ∀ visit ∈ more, allowed visit

namespace AsksOnly
variable {session : Session σ}

theorem mono {wider : Visit → Prop} (asks : AsksOnly allowed session step)
    (implies : ∀ visit, allowed visit → wider visit) : AsksOnly wider session step := by
  obtain ⟨more, visits, each⟩ := asks
  exact ⟨more, visits, fun visit member => implies visit (each visit member)⟩

theorem bind {next : α → Evaluation σ β} (first : AsksOnly allowed session step)
    (later : ∀ value after, step.run.run session = (.ok value, after) →
      AsksOnly allowed after (next value)) : AsksOnly allowed session (step >>= next) := by
  obtain ⟨early, visits, each⟩ := first
  unfold AsksOnly
  rw [run_bind]
  cases answer : step.run.run session with
  | mk outcome after =>
    rw [answer] at visits
    cases outcome with
    | error failure => exact ⟨early, visits, each⟩
    | ok value =>
      obtain ⟨late, visits', each'⟩ := later value after answer
      refine ⟨early ++ late, ?_, fun visit member => ?_⟩
      · dsimp only at visits ⊢
        rw [visits', visits, List.append_assoc]
      · rcases List.mem_append.1 member with inEarly | inLate
        · exact each visit inEarly
        · exact each' visit inLate

end AsksOnly

def Asks (allowed : Visit → Prop) (step : Evaluation σ α) : Prop :=
  ∀ session, AsksOnly allowed session step

namespace Asks

theorem mono {wider : Visit → Prop} (asks : Asks allowed step)
    (implies : ∀ visit, allowed visit → wider visit) : Asks wider step :=
  fun session => (asks session).mono implies

theorem of_visits (kept : ∀ session, (step.run.run session).2.visits = session.visits) :
    Asks allowed step := fun session =>
  ⟨[], by rw [kept, List.append_nil], by simp⟩

theorem pure (value : α) : Asks (σ := σ) allowed (pure value) := of_visits fun _ => rfl

theorem bind {next : α → Evaluation σ β} (first : Asks allowed step)
    (later : ∀ value, Asks allowed (next value)) : Asks allowed (step >>= next) :=
  fun session => (first session).bind fun value after _ => later value after

theorem lookup (place : String) (name : List Char) :
    Asks (σ := σ) allowed (Evaluation.lookup place name) := by
  apply of_visits
  intro session
  rw [run_lookup]
  split <;> rfl

theorem mapM {parts : List α} {action : α → Evaluation σ β}
    (each : ∀ part, Asks allowed (action part)) : Asks allowed (parts.mapM action) := by
  induction parts with
  | nil => exact pure []
  | cons part parts ih =>
    rw [List.mapM_cons]
    exact (each part).bind fun first => ih.bind fun later => pure (first :: later)

theorem replaceAll {pattern : Pattern μ} {replace : μ → Evaluation σ (List Char)}
    (each : ∀ piece, Asks allowed (replace piece)) (text : List Char) :
    Asks allowed (Evaluation.replaceAll pattern replace text) := by
  refine bind (mapM ?_) fun parts => pure parts.flatten
  rintro (c | piece)
  · exact pure [c]
  · exact each piece

theorem fillIn (place : String) (text : List Char) :
    Asks (σ := σ) allowed (Evaluation.fillIn place text) :=
  replaceAll (lookup place) text

end Asks

theorem fillIn_unbound {text : List Char} (place : String) {session : Session σ}
    (empty : session.bindings = {}) (spells : SpellsReference text) :
    ∃ name, referenceSource name <:+: text ∧ (fillIn place text).run.run session =
      (.error (.ofFault (.undeclaredReference (String.ofList name) place none)), session) := by
  have noisy : ¬ references.Silent text [] := fun silent => references_silent_iff.1 silent spells
  clear spells
  unfold fillIn
  induction text using references.scan_induction with
  | nil => exact absurd trivial noisy
  | found name rest read ih =>
    refine ⟨name, List.infix_append' [] _ _, ?_⟩
    rw [replaceAll_read read, run_bind, run_lookup, empty]
    rfl
  | missed c text read ih =>
    have later : ¬ references.Silent text [] := fun silent =>
      noisy ⟨by rwa [List.append_nil], silent⟩
    obtain ⟨name, within, ran⟩ := ih later
    refine ⟨name, within.trans (List.suffix_cons c text).isInfix, ?_⟩
    rw [replaceAll_skip read, run_bind, ran]

end Evaluation

namespace Evaluator
open Evaluation Directive.Form
variable {σ : Type} (evaluator : Evaluator σ)

def prepare (evaluator : Evaluator σ) (text : List Char) : Evaluation σ (List Char) := do
  let text ← replaceAll sets evaluator.evaluateSet text
  let text ← replaceAll echoes evaluator.evaluateEcho text
  replaceAll ifs evaluator.evaluateIf text

theorem passes_eq (included : List Char → Evaluation σ (List Char)) (text : List Char) :
    evaluator.passes included text = (do
      let ready ← evaluator.prepare text
      replaceAll includes (evaluator.evaluateInclude included) ready) := by
  unfold passes prepare
  simp only [bind_assoc]
  rfl

section Asks
variable {allowed : Visit → Prop}

theorem prepare_asks (text : List Char) : Asks allowed (evaluator.prepare text) := by
  unfold prepare
  refine Asks.bind (.replaceAll ?_ text) fun text => .bind (.replaceAll ?_ text) fun text =>
    .replaceAll ?_ text
  · exact fun form => (Asks.of_visits fun _ => rfl).bind fun _ => .pure _
  · exact fun name => (Asks.lookup _ name).bind fun _ => .pure _
  · exact fun form => (Asks.fillIn _ _).bind fun _ => .pure _

theorem passes_asks {included : List Char → Evaluation σ (List Char)}
    (each : ∀ path, Asks allowed (included path)) (text : List Char) :
    Asks allowed (evaluator.passes included text) := by
  rw [passes_eq]
  refine (evaluator.prepare_asks text).bind fun ready => .replaceAll ?_ ready
  exact fun form => (Asks.fillIn _ _).bind fun path => (each path).bind fun _ => .pure _

def IsFetch (ctx : RequestContext) (level : Nat) (path : String) (visit : Visit) : Prop :=
  visit = .lookup level path ∨ visit = .dispatch level (ctx.atLocation path)

theorem IsFetch.level {ctx : RequestContext} {level : Nat} {path : String} {visit : Visit}
    (fetches : IsFetch ctx level path visit) : visit.level = level := by
  rcases fetches with rfl | rfl <;> rfl

theorem fetch_asks (ctx : RequestContext) (level : Nat) (path : String) :
    Asks (IsFetch ctx level path) (evaluator.fetch ctx level path) := by
  intro session
  unfold AsksOnly
  rw [run_fetch]
  split
  · exact ⟨[.lookup level path], rfl, by simp [IsFetch]⟩
  · exact ⟨[.lookup level path, .dispatch level (ctx.atLocation path)], by simp, by
      simp [IsFetch]⟩

theorem evaluate_asks (ctx : RequestContext) (levels : Nat) (text : List Char) :
    Asks (fun visit => evaluator.maxDepth - levels ≤ visit.level)
      (evaluator.evaluate ctx levels text) := by
  induction levels generalizing text with
  | zero => exact evaluator.passes_asks (fun _ => .of_visits fun _ => rfl) text
  | succ levels ih =>
    refine evaluator.passes_asks (fun path => ?_) text
    refine Asks.bind ?_ fun raw => (ih raw.toList).mono fun visit deep => by omega
    exact (evaluator.fetch_asks ctx _ _).mono fun visit fetches => Nat.le_of_eq fetches.level.symm

end Asks

theorem prepare_include {path : List Char} (unquoted : '\'' ∉ path) :
    evaluator.prepare (IncludeForm.source ⟨fileWord, path⟩) =
      pure (IncludeForm.source ⟨fileWord, path⟩) := by
  unfold prepare
  rw [replaceAll_of_silent (sets_silent_include unquoted), pure_bind,
    replaceAll_of_silent (echoes_silent_include unquoted), pure_bind,
    replaceAll_of_silent (ifs_silent_include unquoted)]

theorem passes_include {path : List Char} (nonempty : path ≠ []) (unquoted : '\'' ∉ path)
    (included : List Char → Evaluation σ (List Char)) :
    evaluator.passes included (IncludeForm.source ⟨fileWord, path⟩) =
      evaluator.evaluateInclude included ⟨fileWord, path⟩ := by
  have read := IncludeForm.read?_source nonempty unquoted [] (.inr rfl)
  rw [List.append_nil] at read
  rw [passes_eq, evaluator.prepare_include unquoted, pure_bind,
    replaceAll_read (show includes.read? _ = _ from read), replaceAll_nil]
  simp

theorem toList_includeFile (path : String) : (Directive.includeFile path).toList =
    IncludeForm.source ⟨fileWord, path.toList⟩ := by
  have opening : "<!--#include file='".toList = includeStart ++ fileWord ++ attributeStart := by decide
  have closing : "'-->".toList = directiveEnd := rfl
  unfold Directive.includeFile IncludeForm.source
  rw [String.toList_append, String.toList_append, opening, closing]

section Alone
variable (ctx : RequestContext) {path : String} (nonempty : path ≠ "") (unquoted : '\'' ∉ path.toList)
  (deep : 0 < evaluator.maxDepth) (shared : σ)
include nonempty unquoted deep

theorem evaluateDocument_include : ∃ levels, evaluator.maxDepth = levels + 1 ∧
    evaluator.evaluateDocument ctx (Directive.includeFile path) shared =
      let answer := (evaluator.evaluateInclude (fun path => do
        let raw ← evaluator.fetch ctx 0 (String.ofList path)
        evaluator.evaluate ctx levels raw.toList) ⟨fileWord, path.toList⟩).run.run { shared }
      (answer.1.map String.ofList, answer.2) := by
  obtain ⟨levels, depth⟩ := Nat.exists_eq_succ_of_ne_zero (Nat.pos_iff_ne_zero.1 deep)
  have some_path : path.toList ≠ [] := by simpa using nonempty
  have level : evaluator.maxDepth - (levels + 1) = 0 := by omega
  refine ⟨levels, depth, ?_⟩
  unfold evaluateDocument
  rw [toList_includeFile, depth, evaluate, passes_include evaluator some_path unquoted, level]
  rfl

theorem include_visits (missed : (evaluator.sources.lookup path shared).1 = none)
    (plain : ¬ SpellsReference path.toList) :
    (evaluator.evaluateDocument ctx (Directive.includeFile path) shared).2.visits.filter
        (fun visit => visit.level = 0) =
      [.lookup 0 path, .dispatch 0 (ctx.atLocation path)] := by
  obtain ⟨levels, depth, evaluated⟩ :=
    evaluator.evaluateDocument_include ctx nonempty unquoted deep shared
  have filled : fillIn (σ := σ) "include path" path.toList = pure path.toList :=
    replaceAll_of_silent (references_silent_iff.2 plain)
  have asked := run_fetch evaluator ctx 0 path { shared }
  rw [evaluated]
  unfold evaluateInclude
  simp only [filled, pure_bind, bind_assoc, String.ofList_toList]
  rw [run_bind, asked]
  generalize evaluator.sources.lookup path shared = found at missed ⊢
  obtain ⟨hit, after⟩ := found
  cases missed
  dsimp only
  generalize evaluator.sources.dispatch (ctx.atLocation path) after = answer
  obtain ⟨outcome, last⟩ := answer
  cases outcome with
  | error failure => simp [inFrame, Visit.level]
  | ok raw =>
    simp only [inFrame]
    have later : Asks (fun visit => 1 ≤ visit.level) (do
        let content ← evaluator.evaluate ctx levels raw.toList
        return evaluator.wrap (IncludeForm.source ⟨fileWord, path.toList⟩) content) :=
      ((evaluator.evaluate_asks ctx levels raw.toList).mono fun visit deep => by omega).bind
        fun _ => .pure _
    obtain ⟨more, visits, levels⟩ := later { visits := _, shared := last }
    have none : more.filter (fun visit => visit.level = 0) = [] := by
      rw [List.filter_eq_nil_iff]
      intro visit member surface
      have below := levels visit member
      simp only [decide_eq_true_eq] at surface
      omega
    rw [visits, List.filter_append, none]
    simp [Visit.level]

theorem include_unbound (spells : SpellsReference path.toList) :
    ∃ name, referenceSource name <:+: path.toList ∧
      evaluator.evaluateDocument ctx (Directive.includeFile path) shared =
        (.error (.ofFault (.undeclaredReference (String.ofList name) "include path" none)),
          { shared }) := by
  obtain ⟨levels, depth, evaluated⟩ :=
    evaluator.evaluateDocument_include ctx nonempty unquoted deep shared
  have unbound : ({ shared } : Session σ).bindings = {} := rfl
  obtain ⟨name, within, ran⟩ := fillIn_unbound "include path" unbound spells
  refine ⟨name, within, ?_⟩
  rw [evaluated]
  unfold evaluateInclude
  dsimp only
  rw [run_bind, ran]
  rfl

end Alone

/-- What evaluating an include for a path comes to. The fragment is rendered for the path itself,
unless a reference is spelled in it. -/
structure ReadsInclude (evaluator : Evaluator σ) (ctx : RequestContext) (text path : String)
    (shared : σ) : Prop where
  location : (ctx.atLocation path).path = path ∧ (ctx.atLocation path).query = ""
  asked : (evaluator.sources.lookup path shared).1 = none → ¬ SpellsReference path.toList →
    (evaluator.evaluateDocument ctx text shared).2.visits.filter (fun visit => visit.level = 0) =
      [.lookup 0 path, .dispatch 0 (ctx.atLocation path)]
  unbound : SpellsReference path.toList → ∃ name, referenceSource name <:+: path.toList ∧
    evaluator.evaluateDocument ctx text shared =
      (.error (.ofFault (.undeclaredReference (String.ofList name) "include path" none)), { shared })

end Evaluator

theorem RequestContext.atLocation_query_of_plain (ctx : RequestContext) {location : String}
    (plain : '?' ∉ location.toList) : (ctx.atLocation location).query = "" := by
  have none : location.toList.dropWhile (· ≠ '?') = [] := by
    rw [List.dropWhile_eq_nil_iff]
    intro c member
    have differs : c ≠ '?' := fun same => plain (same ▸ member)
    simpa using differs
  unfold atLocation splitLocation
  rw [List.span_eq_takeWhile_dropWhile, none]
  rfl

namespace Route
open Directive.Form
variable {route : Route} {pattern path : String} {arguments : NameMap String}

/-- The route has a pattern that starts at the root, without the characters that end an attribute or
a path and the one that opens a reference. -/
structure Patterned (route : Route) (pattern : String) : Prop where
  segments : route.segments = (segmentsOf pattern).map Segment.ofText
  rooted : pattern.toList.head? = some '/'
  plain : ∀ c ∈ pattern.toList, c ≠ '\'' ∧ c ≠ '?' ∧ c ≠ '$'

namespace Patterned
variable (patterned : route.Patterned pattern) (reversed : route.reverse? arguments = some path)
include patterned reversed

theorem mem_path {c : Char} (member : c ∈ path.toList) : c = '/' ∨ c ∈ pattern.toList ∨
    ∃ key value, arguments.get? key = some value ∧ isSegment value = true ∧ c ∈ value.toList := by
  obtain ⟨_, parts, filled, rfl⟩ := reverse?_parts reversed
  rcases mem_joined member with slash | ⟨part, inParts, inside⟩
  · exact Or.inl (List.mem_singleton.1 slash)
  · rcases part_origin filled inParts with fixed | ⟨key, given, segment⟩
    · rw [patterned.segments] at fixed
      exact Or.inr (Or.inl (mem_segment (fixed_of_pattern fixed) inside).1)
    · exact Or.inr (Or.inr ⟨key, part, given, segment, inside⟩)

theorem path_rooted : ∃ rest, path.toList = '/' :: rest := by
  obtain ⟨_, parts, filled, rfl⟩ := reverse?_parts reversed
  obtain ⟨tail, split⟩ : ∃ tail, pattern.toList = '/' :: tail := by
    cases text : pattern.toList with
    | nil =>
      have rooted := patterned.rooted
      rw [text] at rooted
      cases rooted
    | cons c tail =>
      have rooted := patterned.rooted
      rw [text] at rooted
      exact ⟨tail, by rw [Option.some.inj rooted]⟩
  obtain ⟨second, more, behind⟩ := List.exists_cons_of_ne_nil (splitWhere_ne_nil (· = '/') tail)
  have segments : route.segments = .fixed "" :: Segment.ofText (String.ofList second) ::
      (more.map String.ofList).map Segment.ofText := by
    have first : splitWhere (· = '/') ('/' :: tail) = [] :: splitWhere (· = '/') tail := by
      simp [splitWhere]
    rw [patterned.segments, segmentsOf, split, first, behind]
    rfl
  rw [segments] at filled
  obtain ⟨part, rest, rfl, own, later⟩ := filled_cons filled
  obtain ⟨next, rest, rfl, _, _⟩ := filled_cons later
  cases own
  refine ⟨(joined "/" (next :: rest)).toList, ?_⟩
  simp [joined]

theorem path_plain : '\'' ∉ path.toList ∧ '?' ∉ path.toList := by
  have each : ∀ c ∈ path.toList, c ≠ '\'' ∧ c ≠ '?' := by
    intro c member
    rcases patterned.mem_path reversed member with rfl | inPattern | ⟨_, value, _, segment, inside⟩
    · decide
    · exact ⟨(patterned.plain c inPattern).1, (patterned.plain c inPattern).2.1⟩
    · have special := (isSegment_iff.1 segment).2 c inside
      exact ⟨special.2.2.1, special.2.1⟩
  exact ⟨fun quote => (each _ quote).1 rfl, fun mark => (each _ mark).2 rfl⟩

theorem not_spellsReference
    (free : ∀ key value, arguments.get? key = some value → '$' ∉ value.toList) :
    ¬ SpellsReference path.toList := by
  intro spells
  rcases patterned.mem_path reversed spells.dollar_mem with slash | inPattern |
    ⟨key, value, given, _, inside⟩
  · cases slash
  · exact (patterned.plain _ inPattern).2.2 rfl
  · exact free key value given inside

end Patterned
end Route

/-- An include directive reads back as it was built: its path is matched by the route chosen, with
the arguments given, and evaluating it asks for that path, unless the arguments spell a
reference in it. -/
theorem include_reads_back {router : Router}
    (patterned : ∀ route ∈ router.routes, ∃ pattern, route.Patterned pattern)
    {ctx after : RequestContext} {name text : String} {arguments : NameMap Arg}
    (built : router.includeRoute ctx name arguments = (.ok text, after)) :
    ∃ route ∈ router.routes, route.name = name ∧ ∃ path passed,
      text = Directive.includeFile path ∧ route.matches? path = some passed ∧
      (∀ key, passed.get? key =
        route.given ctx.language (arguments.map fun _ arg => Router.argumentText arg) key) ∧
      ((∀ key value, passed.get? key = some value → '$' ∉ value.toList) →
        ¬ Directive.Form.SpellsReference path.toList) ∧
      ∀ {σ : Type} (evaluator : Evaluator σ) (visitor : RequestContext) (shared : σ),
        0 < evaluator.maxDepth → evaluator.ReadsInclude visitor text path shared := by
  obtain ⟨route, member, named, path, passed, rfl, reversed, given, _⟩ :=
    Router.includeRoute_spec built
  obtain ⟨pattern, ofPattern⟩ := patterned route member
  obtain ⟨unquoted, plain⟩ := ofPattern.path_plain reversed
  obtain ⟨rest, rooted⟩ := ofPattern.path_rooted reversed
  have nonempty : path ≠ "" := by
    rintro rfl
    cases rooted
  refine ⟨route, member, named, path, passed, rfl,
    Route.matches?_of_reverse? (.of_pattern ofPattern.segments) reversed, given,
    ofPattern.not_spellsReference reversed, fun evaluator visitor shared deep => ?_⟩
  exact {
    location := ⟨visitor.atLocation_path_of_plain plain, visitor.atLocation_query_of_plain plain⟩
    asked := evaluator.include_visits visitor nonempty unquoted deep shared
    unbound := evaluator.include_unbound visitor nonempty unquoted deep shared }

namespace Quotes

def numbered (number : String) : NameMap Arg := NameMap.empty.insert "number" (.str number)

theorem plain_of_all {text : List Char}
    (all : text.all (fun c => c ≠ '\'' ∧ c ≠ '?' ∧ c ≠ '$') = true) :
    ∀ c ∈ text, c ≠ '\'' ∧ c ≠ '?' ∧ c ≠ '$' :=
  fun c member => of_decide_eq_true (List.all_eq_true.1 all c member)

theorem router_patterned (caches : CacheSet) :
    ∀ route ∈ (router caches).routes, ∃ pattern, route.Patterned pattern := by
  intro route member
  simp only [router, Router.addRoute, List.nil_append, List.cons_append, List.mem_cons,
    List.not_mem_nil, or_false] at member
  rcases member with rfl | rfl | rfl <;> exact ⟨_, rfl, by decide, plain_of_all (by decide)⟩

theorem given_numbered {route : Route} {number key value : String}
    (given : route.given english.language
      ((numbered number).map fun _ arg => Router.argumentText arg) key = some value) :
    value = number ∨ value = "en" := by
  have texts : ((numbered number).map fun _ arg => Router.argumentText arg).get? key =
      if "number" = key then some number else none := by
    rw [NameMap.get?_map, numbered, NameMap.get?_insert]
    split <;> rfl
  have own : ∀ {text : String}, (if "number" = key then some number else none) = some text →
      text = number := by
    intro text found
    split at found
    · exact (Option.some.inj found).symm
    · cases found
  unfold Route.given at given
  rw [texts] at given
  split at given
  · split at given
    · rcases Option.or_eq_some_iff.1 given with found | ⟨_, spoken⟩
      · exact Or.inl (own found)
      · exact Or.inr (Option.some.inj spoken).symm
    · cases given
  · exact Or.inl (own given)

end Quotes

theorem quotes_include_reads_back : ∃ text after path,
    (Quotes.router {}).includeRoute Quotes.english "quote" (Quotes.numbered "0") = (.ok text, after) ∧
      text = Directive.includeFile path ∧
      (((Quotes.router {}).evaluator false 16).evaluateDocument Quotes.english text
          {}).2.visits.filter (fun visit => visit.level = 0) =
        [.lookup 0 path, .dispatch 0 (Quotes.english.atLocation path)] := by
  have found : ((Quotes.router {}).includeRoute Quotes.english "quote"
      (Quotes.numbered "0")).1.toOption.isSome = true := by decide
  cases outcome : (Quotes.router {}).includeRoute Quotes.english "quote" (Quotes.numbered "0") with
  | mk first after =>
    rw [outcome] at found
    cases first with
    | error failure => cases found
    | ok text =>
      obtain ⟨route, _, _, path, passed, written, _, given, free, reads⟩ :=
        include_reads_back (Quotes.router_patterned {}) outcome
      refine ⟨text, after, path, rfl, written, ?_⟩
      have read := reads ((Quotes.router {}).evaluator false 16) Quotes.english {} (by decide)
      refine read.asked rfl (free fun key value passes => ?_)
      rcases Quotes.given_numbered (passes.symm.trans (given key)).symm with rfl | rfl <;> decide

theorem reference_argument_unbound :
    (∀ route ∈ (Quotes.router {}).routes, ∃ pattern, route.Patterned pattern) ∧ ∃ text after,
    (Quotes.router {}).includeRoute Quotes.english "quote" (Quotes.numbered "$\x7ba\x7d") =
        (.ok text, after) ∧
      (((Quotes.router {}).evaluator false 16).evaluateDocument Quotes.english text
        {}).2.visits = [] := by
  have silent : ((Quotes.router {}).includeRoute Quotes.english "quote"
      (Quotes.numbered "$\x7ba\x7d")).1.toOption.map (fun text =>
        (((Quotes.router {}).evaluator false 16).evaluateDocument Quotes.english text
          {}).2.visits.length) = some 0 := by decide +kernel
  cases outcome : (Quotes.router {}).includeRoute Quotes.english "quote"
      (Quotes.numbered "$\x7ba\x7d") with
  | mk first after =>
    rw [outcome] at silent
    cases first with
    | error failure => cases silent
    | ok text =>
      exact ⟨Quotes.router_patterned {}, text, after, rfl,
        List.length_eq_zero_iff.1 (Option.some.inj silent)⟩

end TwoPhase
