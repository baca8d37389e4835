import Mathlib.Data.List.Basic
import TwoPhase.Proofs.RelatedLists
import TwoPhase.Route.Router

/-
Paths built from arguments, and what an include directive is built of. A path that a pattern
builds has one part for each segment, so the pattern matches it and gets the arguments back.
The arguments of an include are those of the caller, except that the language of the request
fills in for a missing one and a language that the route does not take is left out.
-/
namespace TwoPhase

section Parts
variable {α : Type} {kind : α → Bool} {part : List α}

theorem splitWhere_free (free : ∀ a ∈ part, kind a = false) : splitWhere kind part = [part] := by
  induction part with
  | nil => rfl
  | cons a part ih =>
    have plain : kind a = false := free a List.mem_cons_self
    have rest := ih fun b member => free b (List.mem_cons_of_mem _ member)
    simp [splitWhere, plain, rest]

theorem segmentsOf_joined {parts : List String} (some_part : parts ≠ [])
    (free : ∀ part ∈ parts, '/' ∉ part.toList) : segmentsOf (joined "/" parts) = parts := by
  induction parts with
  | nil => exact absurd rfl some_part
  | cons part rest ih =>
    have plain : ∀ c ∈ part.toList, decide (c = '/') = false := by
      intro c member
      have differs : c ≠ '/' := fun same => free part List.mem_cons_self (same ▸ member)
      simp [differs]
    cases rest with
    | nil =>
      change (splitWhere (· = '/') part.toList).map String.ofList = [part]
      rw [splitWhere_free plain]
      simp
    | cons second rest =>
      have later := ih (List.cons_ne_nil _ _) fun other member =>
        free other (List.mem_cons_of_mem _ member)
      have text : (joined "/" (part :: second :: rest)).toList =
          part.toList ++ '/' :: (joined "/" (second :: rest)).toList := by
        simp [joined]
      unfold segmentsOf at later ⊢
      rw [text, splitWhere_append (by simp), splitWhere_free plain, List.singleton_append,
        List.map_cons, later, String.ofList_toList]

theorem infix_joined {separator text : String} {parts : List String} (member : text ∈ parts) :
    text.toList <:+: (joined separator parts).toList := by
  induction parts with
  | nil => cases member
  | cons first rest ih =>
    cases rest with
    | nil => exact List.mem_singleton.1 member ▸ List.infix_rfl
    | cons second rest =>
      rw [joined, String.toList_append, String.toList_append, List.append_assoc]
      · rcases List.mem_cons.1 member with rfl | later
        · exact List.infix_append [] _ _
        · exact (ih later).trans (List.suffix_append _ _ |>.trans (List.suffix_append _ _)).isInfix
      · exact List.cons_ne_nil _ _

theorem mem_joined {separator : String} {parts : List String} {c : Char}
    (member : c ∈ (joined separator parts).toList) :
    c ∈ separator.toList ∨ ∃ part ∈ parts, c ∈ part.toList := by
  induction parts with
  | nil => cases member
  | cons first rest ih =>
    cases rest with
    | nil => exact Or.inr ⟨first, List.mem_cons_self, member⟩
    | cons second rest =>
      rw [joined, String.toList_append, String.toList_append, List.mem_append, List.mem_append]
        at member
      · rcases member with (inFirst | between) | later
        · exact Or.inr ⟨first, List.mem_cons_self, inFirst⟩
        · exact Or.inl between
        · exact (ih later).imp_right fun ⟨part, inRest, inPart⟩ =>
            ⟨part, List.mem_cons_of_mem _ inRest, inPart⟩
      · exact List.cons_ne_nil _ _

theorem mem_of_splitWhere {items : List α} (split : part ∈ splitWhere kind items) {a : α}
    (inside : a ∈ part) : a ∈ items := by
  induction items generalizing part with
  | nil =>
    rw [splitWhere, List.mem_singleton] at split
    rw [split] at inside
    cases inside
  | cons b rest ih =>
    unfold splitWhere at split
    split at split
    · rcases List.mem_cons.1 split with rfl | later
      · cases inside
      · exact List.mem_cons_of_mem _ (ih later inside)
    · split at split
      · next first more found =>
        rcases List.mem_cons.1 split with rfl | later
        · rcases List.mem_cons.1 inside with rfl | inFirst
          · exact List.mem_cons_self
          · exact List.mem_cons_of_mem _ (ih (found ▸ List.mem_cons_self) inFirst)
        · exact List.mem_cons_of_mem _ (ih (found ▸ List.mem_cons_of_mem _ later) inside)
      · next found => exact absurd found (splitWhere_ne_nil kind rest)

theorem mem_segment {path text : String} (member : text ∈ segmentsOf path) {c : Char}
    (inside : c ∈ text.toList) : c ∈ path.toList ∧ c ≠ '/' := by
  obtain ⟨part, split, rfl⟩ := List.mem_map.1 member
  rw [String.toList_ofList] at inside
  refine ⟨mem_of_splitWhere split inside, ?_⟩
  rintro rfl
  have plain := not_mem_of_splitWhere split '/' inside
  simp at plain

end Parts

namespace Route
variable {route : Route} {arguments : NameMap String} {path : String}

theorem mem_params {name : String} : name ∈ route.params ↔ Segment.param name ∈ route.segments := by
  unfold params
  rw [List.mem_filterMap]
  constructor
  · rintro ⟨segment, member, found⟩
    cases segment with
    | fixed text => cases found
    | param own =>
      cases found
      exact member
  · exact fun member => ⟨_, member, rfl⟩

theorem reverse?_parts (reversed : route.reverse? arguments = some path) :
    (∀ name, (arguments.get? name).isSome = true ↔ name ∈ route.params) ∧
      ∃ parts, route.segments.mapM (fillSegment? arguments) = some parts ∧
        path = joined "/" parts := by
  unfold reverse? at reversed
  split at reversed
  · next names =>
    obtain ⟨parts, filled, built⟩ := Option.map_eq_some_iff.1 reversed
    refine ⟨fun name => ?_, parts, filled, built.symm⟩
    rw [← NameMap.mem_names, names, NameMap.mem_names_ofList]
  · cases reversed

theorem isSegment_iff {value : String} : isSegment value = true ↔
    value ≠ "" ∧ ∀ c ∈ value.toList, c ≠ '/' ∧ c ≠ '?' ∧ c ≠ '\'' ∧ c ≠ '\\' := by
  unfold isSegment
  simp [List.all_eq_true, and_assoc]

theorem filled_cons {segment : Segment} {segments : List Segment} {parts : List String}
    (filled : (segment :: segments).mapM (fillSegment? arguments) = some parts) :
    ∃ part rest, parts = part :: rest ∧ fillSegment? arguments segment = some part ∧
      segments.mapM (fillSegment? arguments) = some rest := by
  rw [List.mapM_cons] at filled
  obtain ⟨part, own, more⟩ := Option.bind_eq_some_iff.1 filled
  obtain ⟨rest, later, same⟩ := Option.bind_eq_some_iff.1 more
  exact ⟨part, rest, (Option.some.inj same).symm, own, later⟩

theorem fillSegment?_param {name part : String}
    (filled : fillSegment? arguments (.param name) = some part) :
    arguments.get? name = some part ∧ isSegment part = true :=
  Option.filter_eq_some_iff.1 filled

theorem filled_param {segments : List Segment} {parts : List String} {name : String}
    (filled : segments.mapM (fillSegment? arguments) = some parts)
    (taken : .param name ∈ segments) :
    ∃ part ∈ parts, arguments.get? name = some part ∧ isSegment part = true := by
  obtain ⟨part, member, own⟩ := exists_of_mem_left (mapM_eq_some_iff.1 filled) taken
  exact ⟨part, member, fillSegment?_param own⟩

theorem matchSegments_filled {segments : List Segment} {parts : List String}
    (filled : segments.mapM (fillSegment? arguments) = some parts) (before : NameMap String) :
    ∃ after, matchSegments segments parts before = some after ∧ ∀ name, after.get? name =
      if .param name ∈ segments then arguments.get? name else before.get? name := by
  induction segments generalizing parts before with
  | nil =>
    cases filled
    exact ⟨before, rfl, fun name => by simp⟩
  | cons segment segments ih =>
    obtain ⟨part, rest, rfl, own, later⟩ := filled_cons filled
    cases segment with
    | fixed text =>
      cases own
      obtain ⟨after, matched, values⟩ := ih later before
      refine ⟨after, by simp [matchSegments, matched], fun name => ?_⟩
      simp [values name]
    | param own_name =>
      obtain ⟨given, segment⟩ := fillSegment?_param own
      obtain ⟨after, matched, values⟩ := ih later (before.insert own_name part)
      refine ⟨after, by simp [matchSegments, (isSegment_iff.1 segment).1, matched], fun name => ?_⟩
      rw [values name, NameMap.get?_insert]
      by_cases same : own_name = name
      · subst same
        simp [given]
      · simp [same, Ne.symm same]

/-- There is at least one segment, and fixed ones hold no slash, as in every pattern. -/
structure OfSegments (route : Route) : Prop where
  some_segment : route.segments ≠ []
  undivided : ∀ text, Segment.fixed text ∈ route.segments → '/' ∉ text.toList

theorem fixed_of_pattern {pattern text : String}
    (member : Segment.fixed text ∈ (segmentsOf pattern).map Segment.ofText) :
    text ∈ segmentsOf pattern := by
  obtain ⟨own, inPattern, same⟩ := List.mem_map.1 member
  have kept : own = text := by
    unfold Segment.ofText at same
    split at same
    · split at same
      · cases same
      · exact Segment.fixed.inj same
    · exact Segment.fixed.inj same
  exact kept ▸ inPattern

theorem OfSegments.of_pattern {pattern : String}
    (segments : route.segments = (segmentsOf pattern).map Segment.ofText) : route.OfSegments where
  some_segment := by simp [segments, segmentsOf, splitWhere_ne_nil]
  undivided text member slash := by
    rw [segments] at member
    exact (mem_segment (fixed_of_pattern member) slash).2 rfl

theorem part_origin {segments : List Segment} {parts : List String}
    (filled : segments.mapM (fillSegment? arguments) = some parts) {part : String}
    (member : part ∈ parts) : Segment.fixed part ∈ segments ∨
      ∃ name, arguments.get? name = some part ∧ isSegment part = true := by
  obtain ⟨segment, inSegments, own⟩ := exists_of_mem_right (mapM_eq_some_iff.1 filled) member
  cases segment with
  | fixed text =>
    cases own
    exact Or.inl inSegments
  | param name => exact Or.inr ⟨name, fillSegment?_param own⟩

theorem parts_undivided (segments : route.OfSegments) {parts : List String}
    (filled : route.segments.mapM (fillSegment? arguments) = some parts) :
    ∀ part ∈ parts, '/' ∉ part.toList := by
  intro part member slash
  rcases part_origin filled member with fixed | ⟨name, _, segment⟩
  · exact segments.undivided part fixed slash
  · exact ((isSegment_iff.1 segment).2 _ slash).1 rfl

theorem filled_of_reverse? (segments : route.OfSegments)
    (reversed : route.reverse? arguments = some path) :
    route.segments.mapM (fillSegment? arguments) = some (segmentsOf path) := by
  obtain ⟨_, parts, filled, rfl⟩ := reverse?_parts reversed
  have some_part : parts ≠ [] := by
    rintro rfl
    exact segments.some_segment (List.forall₂_nil_right_iff.1 (mapM_eq_some_iff.1 filled))
  rw [filled, segmentsOf_joined some_part (parts_undivided segments filled)]

theorem matches?_of_reverse? (segments : route.OfSegments)
    (reversed : route.reverse? arguments = some path) : route.matches? path = some arguments := by
  obtain ⟨names, _⟩ := reverse?_parts reversed
  obtain ⟨after, matched, values⟩ := matchSegments_filled (filled_of_reverse? segments reversed) {}
  have same : after = arguments := by
    apply NameMap.ext_get?
    intro name
    rw [values name]
    split
    · rfl
    · next other =>
      rw [← mem_params, ← names name, Option.not_isSome_iff_eq_none] at other
      exact other.symm
  rw [matches?, matched, same]

theorem infix_of_reverse? (reversed : route.reverse? arguments = some path) {name text : String}
    (given : arguments.get? name = some text) : text.toList <:+: path.toList := by
  obtain ⟨names, parts, filled, rfl⟩ := reverse?_parts reversed
  have taken : Segment.param name ∈ route.segments :=
    mem_params.1 ((names name).1 (Option.isSome_iff_exists.2 ⟨text, given⟩))
  obtain ⟨part, member, own, _⟩ := filled_param filled taken
  cases given.symm.trans own
  exact infix_joined member

/-- The argument that an include passes to a route under a name. -/
def given (route : Route) (language : Option String) (arguments : NameMap String) (name : String) :
    Option String :=
  if name = Fragment.languageArgument then
    if name ∈ route.params then (arguments.get? name).or language else none
  else arguments.get? name

end Route

namespace Router
variable {router : Router} {ctx : RequestContext} {name : String}

theorem reverseRoute?_spec {arguments : NameMap String} {route : Route} {path : String}
    (found : router.reverseRoute? name arguments = some (route, path)) :
    route ∈ router.routes ∧ route.name = name ∧ route.reverse? arguments = some path := by
  obtain ⟨own, member, tried⟩ := List.exists_of_findSome?_eq_some found
  split at tried
  · next named =>
    obtain ⟨built, reversed, same⟩ := Option.map_eq_some_iff.1 tried
    cases same
    exact ⟨member, named, reversed⟩
  · cases tried

theorem passed_eq_given {arguments passed : NameMap String} {route : Route} {path : String}
    (reversed : route.reverse? passed = some path)
    (others : ∀ key, key ≠ Fragment.languageArgument → passed.get? key = arguments.get? key)
    (own : ∀ text, passed.get? Fragment.languageArgument = some text →
      (arguments.get? Fragment.languageArgument).or ctx.language = some text) (key : String) :
    passed.get? key = route.given ctx.language arguments key := by
  have taken := (Route.reverse?_parts reversed).1 Fragment.languageArgument
  unfold Route.given
  split
  · next same =>
    subst same
    cases found : passed.get? Fragment.languageArgument with
    | some text =>
      rw [found] at taken
      rw [if_pos (taken.1 rfl), own text found]
    | none =>
      rw [found] at taken
      rw [if_neg fun param => Bool.false_ne_true (taken.2 param)]
  · next differs => exact others key differs

/-- Whichever of the three attempts finds a route, it takes the arguments as given. -/
theorem reverseWithLanguage?_spec {arguments : NameMap String} {route : Route} {path : String}
    (found : router.reverseWithLanguage? ctx name arguments = some (route, path)) :
    route ∈ router.routes ∧ route.name = name ∧ ∃ passed, route.reverse? passed = some path ∧
      ∀ key, passed.get? key = route.given ctx.language arguments key := by
  have held : ∀ text, arguments.get? Fragment.languageArgument = some text →
      (arguments.get? Fragment.languageArgument).or ctx.language = some text := by
    intro text own
    rw [own, Option.some_or]
  unfold reverseWithLanguage? at found
  rcases Option.or_eq_some_iff.1 found with bound | ⟨_, unbound⟩
  · obtain ⟨language, spoken, found⟩ := Option.bind_eq_some_iff.1 bound
    obtain ⟨member, named, reversed⟩ := reverseRoute?_spec found
    refine ⟨member, named, _, reversed, passed_eq_given reversed ?_ ?_⟩
    · intro key differs
      split
      · rfl
      · rw [NameMap.get?_insert, if_neg (Ne.symm differs)]
    · split
      · exact held
      · next absent =>
        intro text own
        rw [NameMap.get?_insert, if_pos rfl] at own
        rw [NameMap.contains, Option.not_isSome_iff_eq_none] at absent
        rw [absent, Option.none_or, spoken, own]
  · rcases Option.or_eq_some_iff.1 unbound with plain | ⟨_, dropped⟩
    · obtain ⟨member, named, reversed⟩ := reverseRoute?_spec plain
      exact ⟨member, named, _, reversed, passed_eq_given reversed (fun _ _ => rfl) held⟩
    · split at dropped
      · obtain ⟨member, named, reversed⟩ := reverseRoute?_spec dropped
        refine ⟨member, named, _, reversed, passed_eq_given reversed ?_ ?_⟩
        · intro key differs
          rw [NameMap.get?_erase, if_neg (Ne.symm differs)]
        · intro text own
          rw [NameMap.get?_erase, if_pos rfl] at own
          cases own
      · cases dropped

def nestedArguments (arguments : NameMap Arg) : List Variable :=
  arguments.values.flatMap fun
    | .nested inner => [inner]
    | _ => []

theorem mem_nestedArguments {arguments : NameMap Arg} {key : String} {v : Variable}
    (given : arguments.get? key = some (.nested v)) : v ∈ nestedArguments arguments := by
  have member : (key, Arg.nested v) ∈ arguments.entries := Entries.mem_of_get? given
  exact List.mem_flatMap.2 ⟨_, List.mem_map_of_mem member, List.mem_singleton.2 rfl⟩

theorem foldl_need (vars : List Variable) (ctx : RequestContext) :
    vars.foldl RequestContext.need ctx = { ctx with needed := ctx.needed.insertAll vars } := by
  induction vars generalizing ctx with
  | nil => rfl
  | cons v vars ih => exact ih (ctx.need v)

theorem needArguments_eq (ctx : RequestContext) (arguments : NameMap Arg) :
    needArguments ctx arguments =
      { ctx with needed := ctx.needed.insertAll (nestedArguments arguments) } := by
  rw [← foldl_need]
  unfold needArguments nestedArguments
  generalize arguments.values = args
  induction args generalizing ctx with
  | nil => rfl
  | cons arg args ih =>
    rw [List.foldl_cons, ih, List.flatMap_cons, List.foldl_append]
    cases arg <;> rfl

theorem includeRoute_reversed {arguments : NameMap Arg} {text : String} {after : RequestContext}
    (built : router.includeRoute ctx name arguments = (.ok text, after)) :
    ∃ route path, router.reverseWithLanguage? (needArguments ctx arguments) name
        (arguments.map fun _ arg => argumentText arg) = some (route, path) ∧
      text = Directive.includeFile path ∧
      ∃ declared, route.fragment.declared arguments = .ok declared ∧ after.needed =
        (ctx.needed.insertAll (nestedArguments arguments)).insertAll declared := by
  unfold includeRoute at built
  dsimp only at built
  split at built
  · cases built
  · next route path found =>
    split at built
    · cases built
    · next declared declares =>
      rw [foldl_need, needArguments_eq] at built
      cases built
      exact ⟨route, path, found, rfl, declared, declares, rfl⟩

theorem includeRoute_spec {arguments : NameMap Arg} {text : String} {after : RequestContext}
    (built : router.includeRoute ctx name arguments = (.ok text, after)) :
    ∃ route ∈ router.routes, route.name = name ∧ ∃ path passed,
      text = Directive.includeFile path ∧ route.reverse? passed = some path ∧
      (∀ key, passed.get? key =
        route.given ctx.language (arguments.map fun _ arg => argumentText arg) key) ∧
      ∃ declared, route.fragment.declared arguments = .ok declared ∧ after.needed =
        (ctx.needed.insertAll (nestedArguments arguments)).insertAll declared := by
  obtain ⟨route, path, found, written, takes_over⟩ := includeRoute_reversed built
  obtain ⟨member, named, passed, reversed, given⟩ := reverseWithLanguage?_spec found
  rw [needArguments_eq] at given
  exact ⟨route, member, named, path, passed, written, reversed, given, takes_over⟩

end Router
end TwoPhase
