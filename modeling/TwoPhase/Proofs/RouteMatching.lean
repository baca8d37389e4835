import TwoPhase.Proofs.RouteReversal
import TwoPhase.Quotes

/-
Reading arguments from a path against building the path from arguments. A path that a pattern
matches is the one built from what was read, when no value holds a character that ends an attribute
or a path, and all parts that one parameter stands for are equal; the last of them is the one kept.
Where parameters are distinct, building and matching undo each other.
-/
namespace TwoPhase

theorem joined_segmentsOf (path : String) : joined "/" (segmentsOf path) = path := by
  -- Over lists of characters: a slash begins a part, any other character extends the first one.
  suffices glued : ∀ text : List Char,
      (joined "/" ((splitWhere (· = '/') text).map String.ofList)).toList = text from
    String.toList_inj.1 (glued path.toList)
  intro text
  induction text with
  | nil => rfl
  | cons c rest ih =>
    obtain ⟨first, more, parts⟩ := List.exists_cons_of_ne_nil (splitWhere_ne_nil (· = '/') rest)
    rw [parts] at ih
    by_cases slash : c = '/'
    · subst slash
      rw [splitWhere, if_pos (by decide), parts]
      simpa [joined] using ih
    · have plain : ¬ decide (c = '/') = true := by simpa using slash
      rw [splitWhere, if_neg plain, parts]
      cases more with
      | nil => simpa [joined] using ih
      | cons second more => simpa [joined] using ih

namespace Route
variable {route : Route} {arguments : NameMap String} {path : String}

/-- Values that an include attribute can hold, and that do not cut a path short. -/
def Writable (arguments : NameMap String) : Prop :=
  ∀ value ∈ arguments.values, ∀ c ∈ value.toList, c ≠ '?' ∧ c ≠ '\'' ∧ c ≠ '\\'

instance (arguments : NameMap String) : Decidable (Writable arguments) :=
  decidable_of_iff (arguments.values.all fun value =>
    value.toList.all fun c => c ≠ '?' && c ≠ '\'' && c ≠ '\\')
    (by simp [Writable, List.all_eq_true, and_assoc])

/-- The segments of a pattern beside the parts of a path. -/
def pairs (route : Route) (path : String) : List (Segment × String) :=
  route.segments.zip (segmentsOf path)

def Consistent (route : Route) (path : String) : Prop :=
  ∀ name part other, (.param name, part) ∈ route.pairs path →
    (.param name, other) ∈ route.pairs path → part = other

theorem consistent_of_distinct (distinct : route.params.Nodup) (path : String) :
    route.Consistent path := by
  obtain ⟨own, segments, fragment⟩ := route
  unfold Consistent pairs
  generalize segmentsOf path = parts
  induction segments generalizing parts with
  | nil =>
    intro name part other member
    cases member
  | cons segment segments ih =>
    cases parts with
    | nil =>
      intro name part other member
      cases member
    | cons head parts =>
      intro name part other first second
      have later : (params ⟨own, segments, fragment⟩).Nodup := by
        cases segment with
        | fixed text => exact distinct
        | param key => exact (List.nodup_cons.1 distinct).2
      have not_again : segment = .param name →
          ∀ value, (Segment.param name, value) ∉ segments.zip parts := by
        rintro rfl value member
        have repeated : name ∈ params ⟨own, segments, fragment⟩ :=
          mem_params.2 (List.of_mem_zip member).1
        exact (List.nodup_cons.1 distinct).1 repeated
      simp only [List.zip_cons_cons, List.mem_cons, Prod.mk.injEq] at first second
      rcases first with ⟨here, rfl⟩ | first <;> rcases second with ⟨again, rfl⟩ | second
      · rfl
      · exact absurd second (not_again here.symm other)
      · exact absurd first (not_again again.symm part)
      · exact ih later parts name part other first second

end Route

def Segment.Fits : Segment → String → Prop
  | .fixed text, part => text = part
  | .param _, part => part ≠ ""

namespace Route
variable {route : Route} {arguments : NameMap String} {path : String}

theorem matchSegments_spec {segments : List Segment} {parts : List String}
    {before after : NameMap String} (matched : matchSegments segments parts before = some after) :
    List.Forall₂ Segment.Fits segments parts ∧ ∀ name,
      (.param name ∉ segments ∧ after.get? name = before.get? name) ∨
        ∃ part, (.param name, part) ∈ segments.zip parts ∧ after.get? name = some part := by
  induction segments generalizing parts before with
  | nil =>
    cases parts with
    | nil =>
      cases matched
      exact ⟨.nil, fun name => .inl ⟨List.not_mem_nil, rfl⟩⟩
    | cons part parts => simp [matchSegments] at matched
  | cons segment segments ih =>
    cases parts with
    | nil => cases segment <;> simp [matchSegments] at matched
    | cons part parts =>
      cases segment with
      | fixed text =>
        rw [matchSegments] at matched
        split at matched
        · next same =>
          obtain ⟨fits, origin⟩ := ih matched
          refine ⟨.cons same fits, fun name => ?_⟩
          rcases origin name with ⟨absent, kept⟩ | ⟨value, member, taken⟩
          · exact .inl ⟨by simpa using absent, kept⟩
          · exact .inr ⟨value, List.mem_cons_of_mem _ member, taken⟩
        · cases matched
      | param key =>
        rw [matchSegments] at matched
        split at matched
        · cases matched
        · next some_text =>
          obtain ⟨fits, origin⟩ := ih matched
          refine ⟨.cons some_text fits, fun name => ?_⟩
          rcases origin name with ⟨absent, kept⟩ | ⟨value, member, taken⟩
          · rw [NameMap.get?_insert] at kept
            by_cases here : key = name
            · subst here
              rw [if_pos rfl] at kept
              exact .inr ⟨part, List.mem_cons_self, kept⟩
            · rw [if_neg here] at kept
              refine .inl ⟨?_, kept⟩
              simpa [absent] using fun same : name = key => here same.symm
          · exact .inr ⟨value, List.mem_cons_of_mem _ member, taken⟩

theorem matches?_names (matched : route.matches? path = some arguments) (name : String) :
    name ∈ arguments.names ↔ name ∈ route.params := by
  rw [NameMap.mem_names, mem_params]
  rcases (matchSegments_spec matched).2 name with ⟨absent, kept⟩ | ⟨part, member, taken⟩
  · have nothing : arguments.get? name = none := kept
    simp [absent, nothing]
  · simp [(List.of_mem_zip member).1, taken]

theorem fillSegment?_of_matches? (matched : route.matches? path = some arguments)
    (consistent : route.Consistent path) (writable : Writable arguments) {segment : Segment}
    {part : String} (member : (segment, part) ∈ route.pairs path) :
    fillSegment? arguments segment = some part := by
  obtain ⟨fits, origin⟩ := matchSegments_spec matched
  have fit : segment.Fits part := List.forall₂_zip fits member
  cases segment with
  | fixed text => exact congrArg some fit
  | param name =>
    have given : arguments.get? name = some part := by
      rcases origin name with ⟨absent, _⟩ | ⟨other, taken, value⟩
      · exact absurd (List.of_mem_zip member).1 absent
      · rw [value, consistent name other part taken member]
    have single : isSegment part = true := by
      have noSlash : ∀ c ∈ part.toList, c ≠ '/' := fun c inside =>
        (mem_segment (List.of_mem_zip member).2 inside).2
      have plain := writable part (NameMap.mem_values.2 ⟨name, given⟩)
      exact isSegment_iff.2 ⟨fit, fun c inside => ⟨noSlash c inside, plain c inside⟩⟩
    exact Option.filter_eq_some_iff.2 ⟨given, single⟩

theorem reverse?_of_matches? (matched : route.matches? path = some arguments)
    (consistent : route.Consistent path) (writable : Writable arguments) :
    route.reverse? arguments = some path := by
  have names : arguments.names = (NameMap.ofList (route.params.map (·, ()))).names :=
    NameMap.names_congr fun name => by rw [matches?_names matched, NameMap.mem_names_ofList]
  have parts : route.segments.mapM (fillSegment? arguments) = some (segmentsOf path) :=
    mapM_eq_some_iff.2 (List.forall₂_iff_zip.2 ⟨(matchSegments_spec matched).1.length_eq,
      fillSegment?_of_matches? matched consistent writable⟩)
  rw [reverse?, if_pos names, parts, Option.map_some, joined_segmentsOf]

theorem reverse?_eq_some_iff (segments : route.OfSegments) : route.reverse? arguments = some path ↔
    route.matches? path = some arguments ∧ route.Consistent path ∧ Writable arguments := by
  constructor
  · intro reversed
    have filled := filled_of_reverse? segments reversed
    refine ⟨matches?_of_reverse? segments reversed, ?_, ?_⟩
    · intro name part other first second
      have filling := mapM_eq_some_iff.1 filled
      have one := (fillSegment?_param (List.forall₂_zip filling first)).1
      have two := (fillSegment?_param (List.forall₂_zip filling second)).1
      exact Option.some.inj (one.symm.trans two)
    · intro value held c inside
      obtain ⟨name, given⟩ := NameMap.mem_values.1 held
      obtain ⟨names, _⟩ := reverse?_parts reversed
      have taken := mem_params.1 ((names name).1 (Option.isSome_iff_exists.2 ⟨value, given⟩))
      obtain ⟨part, _, own, segment⟩ := filled_param filled taken
      cases given.symm.trans own
      exact ((isSegment_iff.1 segment).2 c inside).2
  · rintro ⟨matched, consistent, writable⟩
    exact reverse?_of_matches? matched consistent writable

example : let route := ofPattern "twice" "/\x7btag\x7d//\x7btag\x7d" { view := Quotes.quoteView }
    (route.matches? "/a//b").bind route.reverse? = some "/b//b" := by decide

/-- Building a path and matching it are inverse. A path that is built is read as the arguments it
was built from. One that is read is built again if the parameters of the pattern are distinct,
for just the values that an include attribute can hold. -/
theorem pattern_reversal_inverts_matching (name pattern : String) (fragment : Fragment)
    (arguments : NameMap String) (path : String) :
    ((ofPattern name pattern fragment).reverse? arguments = some path →
      (ofPattern name pattern fragment).matches? path = some arguments) ∧
    ((ofPattern name pattern fragment).params.Nodup →
      ((ofPattern name pattern fragment).reverse? arguments = some path ↔
        (ofPattern name pattern fragment).matches? path = some arguments ∧
          Writable arguments)) := by
  have segments : (ofPattern name pattern fragment).OfSegments := .of_pattern rfl
  refine ⟨matches?_of_reverse? segments, fun distinct => ?_⟩
  have consistent := consistent_of_distinct distinct path
  rw [reverse?_eq_some_iff segments, and_iff_right consistent]

theorem quote_path_reversed :
    let quote :=
      ofPattern "quote" "/\x7blang\x7d/quote/\x7bnumber\x7d/" { view := Quotes.quoteView }
    let asked := NameMap.ofList [("lang", "en"), ("number", "0")]
    let twice := ofPattern "twice" "/\x7btag\x7d//\x7btag\x7d" { view := Quotes.quoteView }
    let tagged := NameMap.ofList [("tag", "a")]
    (quote.params.Nodup ∧ quote.matches? "/en/quote/0/" = some asked ∧ Writable asked ∧
      quote.reverse? asked = some "/en/quote/0/") ∧
    twice.reverse? tagged = some "/a//a" ∧ twice.matches? "/a//a" = some tagged := by
  intro quote asked twice tagged
  have distinct : quote.params.Nodup := by decide
  have matched : quote.matches? "/en/quote/0/" = some asked := rfl
  have writable : Writable asked := by decide
  have built : twice.reverse? tagged = some "/a//a" := by decide
  exact ⟨⟨distinct, matched, writable,
    ((pattern_reversal_inverts_matching _ _ _ asked _).2 distinct).2 ⟨matched, writable⟩⟩,
    built, (pattern_reversal_inverts_matching _ _ _ tagged _).1 built⟩

end Route
end TwoPhase
