import TwoPhase.Proofs.RequestIsolation
import TwoPhase.Proofs.RouteReversal

/-
What the declaration function of a fragment is asked for, on the page that includes the fragment
and when the fragment is rendered. The page asks for the arguments of the caller; the fragment
asks for those in its address without the language. The difference is a language that the
caller names.
-/
namespace TwoPhase

/-- All that the run learns from its declaration function is the answer for these arguments, and
it does make use of it. -/
structure Consults {α : Type} (run : Declaration → α) (asked : NameMap Arg) : Prop where
  determined : ∀ declares other : Declaration, declares asked = other asked →
    run declares = run other
  heard : ∃ declares other, run declares ≠ run other

theorem Consults.unique {α : Type} {run : Declaration → α} {asked told : NameMap Arg}
    (first : Consults run asked) (second : Consults run told) : asked = told := by
  classical
  obtain ⟨declares, other, differ⟩ := first.heard
  refine Classical.byContradiction fun apart => differ ?_
  -- Agrees with the one function on the one question, and with the other on the other.
  let mixed : Declaration := fun arguments =>
    if arguments = asked then declares asked else other told
  have left : run declares = run mixed := first.determined _ _ (by simp [mixed])
  have right : run mixed = run other := second.determined _ _ (by simp [mixed, Ne.symm apart])
  exact left.trans right

theorem Consults.of_failures {α : Type} {run : Declaration → α} {asked : NameMap Arg}
    (result : α → Except Failure String)
    (determined : ∀ declares other : Declaration, declares asked = other asked →
      run declares = run other)
    (fails : ∀ failure, result (run fun _ => .error failure) = .error failure) :
    Consults run asked where
  determined := determined
  heard := by
    refine ⟨fun _ => .error ⟨.io, []⟩, fun _ => .error ⟨.io, [""]⟩, fun same => ?_⟩
    have outcomes := congrArg result same
    rw [fails, fails] at outcomes
    simp at outcomes

def literalArguments (texts : NameMap String) : NameMap Arg := texts.map fun _ text => Arg.str text

section Literals
variable {texts : NameMap String}

theorem literalArguments_erase (texts : NameMap String) (name : String) :
    literalArguments (texts.erase name) = (literalArguments texts).erase name := by
  apply NameMap.ext_get?
  intro key
  unfold literalArguments
  rw [NameMap.get?_map, NameMap.get?_erase, NameMap.get?_erase, NameMap.get?_map]
  split <;> rfl

theorem erase_eq_self_iff {name : String} :
    (literalArguments texts).erase name = literalArguments texts ↔ texts.contains name = false := by
  have value : ∀ key, (literalArguments texts).get? key = (texts.get? key).map Arg.str := fun key =>
    NameMap.get?_map _ _ key
  rw [NameMap.contains, Option.isSome_eq_false_iff, Option.isNone_iff_eq_none]
  constructor
  · intro same
    have missing := congrArg (NameMap.get? · name) same
    rw [NameMap.get?_erase, if_pos rfl, value] at missing
    exact Option.map_eq_none_iff.1 missing.symm
  · intro missing
    apply NameMap.ext_get?
    intro key
    rw [NameMap.get?_erase]
    split
    · next same => rw [← same, value, missing, Option.map_none]
    · rfl

theorem argumentText_literals :
    ((literalArguments texts).map fun _ arg => Router.argumentText arg) = texts := by
  apply NameMap.ext_get?
  intro key
  unfold literalArguments
  rw [NameMap.get?_map, NameMap.get?_map, Option.map_map]
  cases texts.get? key <;> rfl

theorem needArguments_literals (ctx : RequestContext) :
    Router.needArguments ctx (literalArguments texts) = ctx := by
  have none_nested : Router.nestedArguments (literalArguments texts) = [] := by
    refine List.flatMap_eq_nil_iff.2 fun arg member => ?_
    obtain ⟨entry, listed, rfl⟩ := List.mem_map.1 member
    obtain ⟨text, _, rfl⟩ := List.mem_map.1 listed
    rfl
  rw [Router.needArguments_eq, none_nested]
  rfl

end Literals

namespace Fragment

def declaring (fragment : Fragment) (declares : Declaration) : Fragment :=
  { fragment with declares := some declares }

variable {fragment : Fragment} {languages : List String} {caches : CacheSet}
  {ctx inner : RequestContext} {arguments rest : NameMap String} {backend : Backend}

@[simp] theorem declared_declaring (declares : Declaration) (given : NameMap Arg) :
    (fragment.declaring declares).declared given = declares given := rfl

theorem check_declaring {declares other : Declaration}
    (same : declares (literalArguments rest) = other (literalArguments rest)) :
    (fragment.declaring declares).check ctx rest = (fragment.declaring other).check ctx rest := by
  unfold literalArguments at same
  simp only [check, declared_declaring, same]

theorem finish_declaring {declares other : Declaration}
    (same : declares (literalArguments rest) = other (literalArguments rest))
    (answer : Except Failure String × RequestContext) :
    (fragment.declaring declares).finish caches ctx rest backend answer =
      (fragment.declaring other).finish caches ctx rest backend answer := by
  unfold finish
  dsimp only
  rw [check_declaring same]
  rfl

theorem render_consults
    (found : fragment.bindLanguage languages ctx arguments = .ok (inner, rest)) {output : String}
    (viewed : (fragment.view inner rest).1 = .ok output) :
    Consults (fun declares => (fragment.declaring declares).render languages caches ctx arguments
      backend) (literalArguments rest) := by
  have rendered : ∀ declares, (fragment.declaring declares).render languages caches ctx arguments
      backend = (fragment.declaring declares).finish caches ctx rest backend
        (fragment.view inner rest) := by
    intro declares
    have spoken : (fragment.declaring declares).bindLanguage languages ctx arguments =
        .ok (inner, rest) := found
    exact render_eq_finish spoken
  apply Consults.of_failures Rendering.outcome
  · intro declares other same
    rw [rendered, rendered, finish_declaring same]
  · intro failure
    rw [rendered]
    unfold finish
    rw [viewed]
    rfl

theorem bindLanguage_rest (bound : fragment.usesLanguage = true)
    (found : fragment.bindLanguage languages ctx arguments = .ok (inner, rest)) :
    rest = arguments.erase languageArgument := by
  unfold bindLanguage at found
  rw [if_pos bound] at found
  split at found
  · cases found
  · split at found
    · cases found
      rfl
    · cases found

end Fragment

namespace Route

def declaring (route : Route) (declares : Declaration) : Route :=
  { route with fragment := route.fragment.declaring declares }

section Declaring
variable (route : Route) (declares : Declaration)

@[simp] theorem declaring_name : (route.declaring declares).name = route.name := rfl

@[simp] theorem declaring_fragment :
    (route.declaring declares).fragment = route.fragment.declaring declares := rfl

@[simp] theorem declaring_matches? (path : String) :
    (route.declaring declares).matches? path = route.matches? path := rfl

@[simp] theorem declaring_reverse? (arguments : NameMap String) :
    (route.declaring declares).reverse? arguments = route.reverse? arguments := rfl

end Declaring
end Route

namespace Router

def declaring (router : Router) (declares : Declaration) : Router :=
  { router with routes := router.routes.map (·.declaring declares) }

def routeFor? (router : Router) (path : String) : Option Route :=
  router.routes.find? fun route => (route.matches? path).isSome

/-- The fragment at the path of the context has a language it can use, and its view answers. -/
def Answers (router : Router) (ctx : RequestContext) : Prop :=
  ∃ fragment arguments inner rest output,
    router.resolve? ctx.path = some (fragment, arguments) ∧
    fragment.bindLanguage router.languages ctx arguments = .ok (inner, rest) ∧
    (fragment.view inner rest).1 = .ok output

variable {router : Router} {ctx : RequestContext} {name path : String}

theorem resolve?_of_routeFor? {route : Route} {arguments : NameMap String}
    (found : router.routeFor? path = some route) (matched : route.matches? path = some arguments) :
    router.resolve? path = some (route.fragment, arguments) := by
  unfold routeFor? at found
  unfold resolve?
  generalize router.routes = routes at found
  induction routes with
  | nil => cases found
  | cons first routes ih =>
    cases tried : first.matches? path with
    | some own =>
      rw [List.find?_cons_of_pos (by simp [tried])] at found
      cases found
      simp [matched]
    | none =>
      rw [List.find?_cons_of_neg (by simp [tried])] at found
      simp [tried, ih found]

section Declaring
variable (declares : Declaration)

theorem resolve?_declaring : (router.declaring declares).resolve? path =
    (router.resolve? path).map fun served => (served.1.declaring declares, served.2) := by
  unfold resolve? declaring
  rw [List.findSome?_map, List.map_findSome?]
  congr 1
  funext route
  simp [Function.comp_def]

theorem reverseRoute?_declaring (arguments : NameMap String) :
    (router.declaring declares).reverseRoute? name arguments =
      (router.reverseRoute? name arguments).map fun found =>
        (found.1.declaring declares, found.2) := by
  unfold reverseRoute? declaring
  rw [List.findSome?_map, List.map_findSome?]
  congr 1
  funext route
  by_cases named : route.name = name <;> simp [Function.comp_def, named]

theorem reverseWithLanguage?_declaring (arguments : NameMap String) :
    (router.declaring declares).reverseWithLanguage? ctx name arguments =
      (router.reverseWithLanguage? ctx name arguments).map fun found =>
        (found.1.declaring declares, found.2) := by
  unfold reverseWithLanguage?
  simp only [reverseRoute?_declaring]
  cases ctx.language <;> split <;> simp [Option.map_or]

end Declaring

/-- What an include comes to, by declaration function. -/
def including (router : Router) (ctx : RequestContext) (name : String) (arguments : NameMap Arg)
    (declares : Declaration) : Except Failure String × RequestContext :=
  (router.declaring declares).includeRoute ctx name arguments

/-- What a request for a fragment comes to, by declaration function. -/
def dispatching (router : Router) (ctx : RequestContext) (backend : Backend)
    (declares : Declaration) : Rendering :=
  (router.declaring declares).dispatch ctx backend

theorem including_consults {arguments : NameMap Arg} {route : Route}
    (reversed : router.reverseWithLanguage? (needArguments ctx arguments) name
      (arguments.map fun _ arg => argumentText arg) = some (route, path)) :
    Consults (router.including ctx name arguments) arguments := by
  have found : ∀ declares, (router.declaring declares).reverseWithLanguage?
      (needArguments ctx arguments) name (arguments.map fun _ arg => argumentText arg) =
        some (route.declaring declares, path) := by
    intro declares
    rw [reverseWithLanguage?_declaring, reversed]
    rfl
  apply Consults.of_failures Prod.fst
  · intro declares other same
    simp only [including, includeRoute, found, Route.declaring_fragment,
      Fragment.declared_declaring, same]
  · intro failure
    simp only [including, includeRoute, found, Route.declaring_fragment,
      Fragment.declared_declaring]

theorem dispatching_consults {route : Route} {passed : NameMap String}
    (found : router.routeFor? ctx.path = some route)
    (matched : route.matches? ctx.path = some passed)
    (bound : route.fragment.usesLanguage = true) (answers : router.Answers ctx)
    (backend : Backend) :
    Consults (router.dispatching ctx backend)
      (literalArguments (passed.erase Fragment.languageArgument)) := by
  obtain ⟨fragment, arguments, inner, rest, output, served, spoken, viewed⟩ := answers
  have own := resolve?_of_routeFor? found matched
  rw [own] at served
  cases served
  have dispatched : router.dispatching ctx backend = fun declares =>
      (route.fragment.declaring declares).render router.languages router.caches ctx passed
        backend := by
    funext declares
    unfold dispatching dispatch
    rw [resolve?_declaring, own]
    rfl
  rw [dispatched, ← Fragment.bindLanguage_rest bound spoken]
  exact Fragment.render_consults spoken viewed

theorem passed_erase {texts passed : NameMap String} {route : Route}
    (given : ∀ key, passed.get? key = route.given ctx.language texts key) :
    passed.erase Fragment.languageArgument = texts.erase Fragment.languageArgument := by
  apply NameMap.ext_get?
  intro key
  rw [NameMap.get?_erase, NameMap.get?_erase, given key, Route.given]
  split
  · rfl
  · next differs => rw [if_neg (Ne.symm differs)]

end Router

theorem Directive.includeFile_inj {path other : String}
    (same : includeFile path = includeFile other) : path = other := by
  have characters := congrArg String.toList same
  unfold includeFile at characters
  simpa [String.toList_append, String.toList_inj] using characters

/-- Where a route is included with texts as arguments, the page asks the declaration function for
these arguments, and a fragment with its language in its address asks for the same without
the language. So both ask for the same exactly if the caller names no language. -/
theorem include_declares_alike_iff {router : Router}
    (patterns : ∀ route ∈ router.routes, ∃ pattern,
      route.segments = (segmentsOf pattern).map Segment.ofText)
    {ctx after : RequestContext} {name text : String} {texts : NameMap String}
    (built : router.includeRoute ctx name (literalArguments texts) = (.ok text, after)) :
    ∃ route ∈ router.routes, route.name = name ∧ ∃ path, text = Directive.includeFile path ∧
      Consults (router.including ctx name (literalArguments texts)) (literalArguments texts) ∧
      (router.routeFor? path = some route → route.fragment.usesLanguage = true →
        ∀ visitor backend, visitor.path = path → router.Answers visitor →
          Consults (router.dispatching visitor backend)
            ((literalArguments texts).erase Fragment.languageArgument) ∧
          ∀ asked told, Consults (router.including ctx name (literalArguments texts)) asked →
            Consults (router.dispatching visitor backend) told →
            (asked = told ↔ texts.contains Fragment.languageArgument = false)) := by
  obtain ⟨route, path, reversed, rfl, _⟩ := Router.includeRoute_reversed built
  obtain ⟨member, named, passed, written, given⟩ := Router.reverseWithLanguage?_spec reversed
  have page := Router.including_consults reversed
  rw [needArguments_literals, argumentText_literals] at given
  refine ⟨route, member, named, path, rfl, page, ?_⟩
  rintro found bound visitor backend rfl answers
  obtain ⟨pattern, ofPattern⟩ := patterns route member
  have matched := Route.matches?_of_reverse? (.of_pattern ofPattern) written
  have fragment := Router.dispatching_consults found matched bound answers backend
  rw [Router.passed_erase given, literalArguments_erase] at fragment
  refine ⟨fragment, fun asked told asks tells => ?_⟩
  rw [asks.unique page, tells.unique fragment, eq_comm, erase_eq_self_iff]

namespace Router

def echoingFragment : Fragment where
  view ctx _ := (.ok "Q", ctx)
  declares := some fun arguments => .ok [.ofParts "p" [] arguments.entries]

def echoing : Router :=
  addRoute { languages := ["en"] } "q" "/\x7blang\x7d/q/\x7bn\x7d/" echoingFragment

def echoingRoute : Route := .ofPattern "q" "/\x7blang\x7d/q/\x7bn\x7d/" echoingFragment

def addressed : RequestContext where
  path := "/en/q/1/"

theorem echoing_patterns : ∀ route ∈ echoing.routes, ∃ pattern,
    route.segments = (segmentsOf pattern).map Segment.ofText := by
  intro route member
  rw [List.mem_singleton.1 member]
  exact ⟨_, rfl⟩

theorem echoing_serves : echoing.routeFor? addressed.path = some echoingRoute := rfl

theorem echoing_answers : echoing.Answers addressed := ⟨_, _, _, _, _, rfl, rfl, rfl⟩

end Router

open Router

theorem echoing_declares_alike : ∃ after,
    echoing.includeRoute Quotes.english "q" (literalArguments (.ofList [("n", "1")])) =
      (.ok (Directive.includeFile addressed.path), after) ∧
    ∀ asked told,
      Consults (echoing.including Quotes.english "q"
        (literalArguments (.ofList [("n", "1")]))) asked →
      Consults (echoing.dispatching addressed {}) told → asked = told := by
  obtain ⟨after, built⟩ : ∃ after,
      echoing.includeRoute Quotes.english "q" (literalArguments (.ofList [("n", "1")])) =
        (.ok (Directive.includeFile addressed.path), after) := ⟨_, rfl⟩
  obtain ⟨route, member, _, path, written, _, alike⟩ :=
    include_declares_alike_iff echoing_patterns built
  cases List.mem_singleton.1 member
  cases Directive.includeFile_inj written
  obtain ⟨_, same⟩ := alike echoing_serves rfl addressed {} rfl echoing_answers
  exact ⟨after, built, fun asked told asks tells => (same asked told asks tells).2 rfl⟩

theorem named_language_withheld :
    let texts : NameMap String := .ofList [("lang", "en"), ("n", "1")]
    let others : NameMap String := .ofList [("n", "1")]
    (∃ after, echoing.includeRoute Quotes.english "q" (literalArguments texts) =
      (.ok (Directive.includeFile addressed.path), after)) ∧
    echoing.routeFor? addressed.path = some echoingRoute ∧
    echoingRoute.fragment.usesLanguage = true ∧ echoing.Answers addressed ∧
    Consults (echoing.including Quotes.english "q" (literalArguments texts))
      (literalArguments texts) ∧
    Consults (echoing.dispatching addressed {}) (literalArguments others) ∧
    literalArguments texts ≠ literalArguments others := by
  intro texts others
  have reversed : echoing.reverseWithLanguage?
      (needArguments Quotes.english (literalArguments texts)) "q"
      ((literalArguments texts).map fun _ arg => argumentText arg) =
        some (echoingRoute, addressed.path) := rfl
  have fragment : Consults (echoing.dispatching addressed {})
      (literalArguments (texts.erase Fragment.languageArgument)) :=
    dispatching_consults echoing_serves rfl rfl echoing_answers {}
  have apart : literalArguments texts ≠ literalArguments others := by
    intro same
    cases congrArg NameMap.size same
  exact ⟨⟨_, rfl⟩, echoing_serves, rfl, echoing_answers, including_consults reversed, fragment,
    apart⟩

end TwoPhase
