import TwoPhase.Delivery
import TwoPhase.Proofs.HeaderRoundTrip
import TwoPhase.Proofs.OrderIndependence

/-
A page replayed from a cache. The fresh page takes its variables from the request, the
replayed one from the header that was stored with it; these are the same variables in another
order, so the two get the same values or both get none. Nothing else differs: fragments are
rendered for a context of their own that has no variables yet.
-/
namespace TwoPhase
variable {σ : Type}

/-- No computation looks at the variables used so far. -/
def Registry.IgnoresNeeded (registry : Registry) : Prop :=
  ∀ path computation, registry.computations.get? path = some computation →
    ∀ (ctx : RequestContext) (needed : VariableSet) (positional : List Json)
      (named : List (String × Json)),
      computation { ctx with needed } positional named = computation ctx positional named

theorem Registry.IgnoresNeeded.compute {registry : Registry} (blind : registry.IgnoresNeeded)
    (ctx : RequestContext) (needed : VariableSet) :
    registry.compute { ctx with needed } = registry.compute ctx := by
  funext v
  unfold Registry.compute
  split
  · rfl
  · split
    · rfl
    · next computation found => exact blind _ computation found ctx needed _ _

theorem eq_ok_of_toOption {α : Type} {value : α} {outcome : Except Failure α}
    (found : outcome.toOption = some value) : outcome = .ok value := by
  cases outcome with
  | error failure => cases found
  | ok result => exact congrArg Except.ok (Option.some.inj found)

/-- Both succeed with equal results, or both fail. -/
inductive SameSuccess {α : Type} : Except Failure α → Except Failure α → Prop where
  | success (value : α) : SameSuccess (.ok value) (.ok value)
  | failure (left right : Failure) : SameSuccess (.error left) (.error right)

theorem SameSuccess.refl {α : Type} (outcome : Except Failure α) : SameSuccess outcome outcome := by
  cases outcome with
  | ok value => exact .success value
  | error failure => exact .failure failure failure

theorem SameSuccess.eq_ok {α : Type} {value : α} {outcome : Except Failure α}
    (same : SameSuccess (.ok value) outcome) : outcome = .ok value := by
  cases same
  rfl

theorem SameSuccess.map {α β : Type} {left right : Except Failure α} (same : SameSuccess left right)
    (f : α → β) : SameSuccess (left.map f) (right.map f) := by
  cases same with
  | success value => exact .success (f value)
  | failure left right => exact .failure left right

theorem SameSuccess.inFrame {α : Type} {left right : Except Failure α}
    (same : SameSuccess left right) (frame other : String) :
    SameSuccess (inFrame frame left) (TwoPhase.inFrame other right) := by
  cases same with
  | success value => exact .success value
  | failure left right => exact .failure _ _

theorem OutcomesAgree.sameSuccess {compute : Variable → Except Failure Json}
    {left right : Except Failure Table} (agree : OutcomesAgree compute left right) :
    SameSuccess left right := by
  cases agree with
  | resolved table => exact .success table
  | stalled same => exact .failure _ _
  | failed first second =>
    obtain ⟨_, _, _, _, _, rfl⟩ := first
    obtain ⟨_, _, _, _, _, rfl⟩ := second
    exact .failure _ _

theorem Response.header_setHeader {response : Response} {name : String} (value : String)
    (plain : response.header name = none) :
    (response.setHeader name value).header name = some value := by
  have absent : response.findHeader name = none := Option.map_eq_none_iff.1 plain
  have others : ∀ entry ∈ response.headers.entries, sameHeaderName entry.1 name = false := by
    intro entry member
    exact Bool.eq_false_iff.2 (List.find?_eq_none.1 absent entry member)
  have hit : sameHeaderName name name = true := by simp [sameHeaderName]
  have kept : response.removeHeader name = response := by
    unfold removeHeader
    rw [absent]
  unfold setHeader
  rw [kept]
  exact congrArg (Option.map Prod.snd) (Entries.find?_insert others hit)

def RequestContext.replayed (ctx : RequestContext) : RequestContext := { ctx with needed := {} }

theorem Evaluator.evaluate_replayed (evaluator : Evaluator σ) (ctx : RequestContext) (levels : Nat)
    (text : List Char) :
    evaluator.evaluate ctx.replayed levels text = evaluator.evaluate ctx levels text := by
  induction levels generalizing text with
  | zero => rfl
  | succ levels ih =>
    have fetched : evaluator.fetch ctx.replayed = evaluator.fetch ctx := rfl
    simp only [evaluate, fetched, ih]

theorem VariableSet.toList_of_isEmpty {set : VariableSet} (empty : set.isEmpty = true) :
    set.toList = [] := by
  unfold toList
  rw [List.isEmpty_iff.1 empty]
  rfl

theorem provide_of_isEmpty (registry : Registry) (ctx : RequestContext) {needed : VariableSet}
    (empty : needed.isEmpty = true) : provide registry ctx needed = .ok "" := by
  have queue : Progress.seed needed = [] := by
    unfold Progress.seed
    rw [VariableSet.toList_of_isEmpty empty]
    rfl
  have resolved : resolve (registry.compute ctx) needed = .ok {} := by
    unfold resolve resolveWith Progress.start
    rw [queue, Progress.run]
    rfl
  unfold provide
  rw [resolved]
  rfl

namespace Delivery
variable (delivery : Delivery σ) (ctx : RequestContext) (response : Response) (shared : σ)

theorem finish_replayed :
    delivery.finish ctx.replayed response shared = delivery.finish ctx response shared := by
  unfold finish Evaluator.evaluateDocument
  rw [Evaluator.evaluate_replayed]
  rfl

theorem provideFor_eq {header : Option String} {needed : VariableSet}
    (found : neededVariables ctx header = .ok needed) :
    delivery.provideFor ctx response header =
      (provide delivery.registry ctx needed).map fun statements =>
        { response with body := statements ++ response.body } := by
  unfold provideFor
  rw [found]
  change (if needed.isEmpty then pure response else _) = _
  split
  · next empty =>
    rw [provide_of_isEmpty _ _ empty]
    simp [Except.map, pure, Except.pure]
  · cases provide delivery.registry ctx needed <;> rfl

theorem provide_replayed {needed decoded : VariableSet} (blind : delivery.registry.IgnoresNeeded)
    (same : ∀ v, v ∈ needed.toList ↔ v ∈ decoded.toList)
    (trusted : Unambiguous (stateless (delivery.registry.compute ctx)) needed ())
    (trusted' : Unambiguous (stateless (delivery.registry.compute ctx.replayed)) decoded ()) :
    SameSuccess (provide delivery.registry ctx needed)
      (provide delivery.registry ctx.replayed decoded) := by
  have compute : delivery.registry.compute ctx.replayed = delivery.registry.compute ctx :=
    blind.compute ctx {}
  rw [compute] at trusted'
  have agree := resolve_agree_of_same_members _ same trusted trusted'
  unfold provide
  rw [compute]
  exact (agree.sameSuccess.map Table.statements).inFrame _ _

theorem deliver_replayed_of_decoded {decoded : VariableSet} {header : String}
    (needs : ctx.needed.isEmpty = false) (carried : response.header Header.name = some header)
    (decodes : Header.decode header = .ok decoded)
    (provided : SameSuccess (provide delivery.registry ctx ctx.needed)
      (provide delivery.registry ctx.replayed decoded)) :
    SameSuccess (delivery.deliver ctx response shared).1
        (delivery.deliver ctx.replayed response shared).1 ∧
      (delivery.deliver ctx response shared).2 = (delivery.deliver ctx.replayed response shared).2 := by
  have fresh : neededVariables ctx (some header) = .ok ctx.needed := by
    simp [neededVariables, needs]
  have replayed : neededVariables ctx.replayed (some header) = .ok decoded := by
    simp [neededVariables, RequestContext.replayed, VariableSet.isEmpty, decodes, inFrame]
  unfold deliver
  rw [carried]
  dsimp only
  generalize (if delivery.debug = true then response else response.removeHeader Header.name) = bare
  rw [delivery.provideFor_eq ctx bare fresh, delivery.provideFor_eq ctx.replayed bare replayed]
  generalize provide delivery.registry ctx ctx.needed = left at provided ⊢
  generalize provide delivery.registry ctx.replayed decoded = right at provided ⊢
  cases provided with
  | failure left right => exact ⟨.failure left right, rfl⟩
  | success statements =>
    simp only [Except.map, finish_replayed, and_true]
    exact SameSuccess.refl _

theorem deliver_of_resolved {table : Table}
    (fresh : ctx.needed.isEmpty = true → response.header Header.name = none)
    (resolved : resolve (delivery.registry.compute ctx) ctx.needed = .ok table) :
    delivery.deliver ctx response shared =
      let bare := if delivery.debug then response else response.removeHeader Header.name
      delivery.finish ctx { bare with body := table.statements ++ bare.body } shared := by
  have provided : provide delivery.registry ctx ctx.needed = .ok table.statements := by
    unfold provide
    rw [resolved]
    rfl
  have asked : ∃ needed, neededVariables ctx (response.header Header.name) = .ok needed ∧
      provide delivery.registry ctx needed = .ok table.statements := by
    cases empty : ctx.needed.isEmpty with
    | false => exact ⟨ctx.needed, by simp [neededVariables, empty], provided⟩
    | true =>
      have nothing := provide_of_isEmpty delivery.registry ctx empty
      rw [provided] at nothing
      refine ⟨{}, by simp [neededVariables, empty, fresh empty], ?_⟩
      rw [nothing]
      exact provide_of_isEmpty _ _ rfl
  obtain ⟨needed, found, statements⟩ := asked
  unfold deliver
  dsimp only
  rw [delivery.provideFor_eq ctx _ found, statements]
  rfl

end Delivery

theorem deliver_replayed (delivery : Delivery σ) (ctx : RequestContext) (response : Response)
    (shared : σ) (needs : ctx.needed.isEmpty = false)
    (plain : response.header Header.name = none)
    (blind : delivery.registry.IgnoresNeeded)
    (readsBack : Json.parse? (Header.encode ctx.needed) = some (.obj (Header.fields ctx.needed)))
    (trusted : Unambiguous (stateless (delivery.registry.compute ctx)) ctx.needed ())
    (trusted' : ∀ decoded, Header.decode (Header.encode ctx.needed) = .ok decoded →
      Unambiguous (stateless (delivery.registry.compute ctx.replayed)) decoded ()) :
    let fresh := delivery.deliver ctx (Delivery.recordNeeded ctx response) shared
    let replayed := delivery.deliver ctx.replayed (Delivery.recordNeeded ctx response) shared
    SameSuccess fresh.1 replayed.1 ∧ fresh.2 = replayed.2 := by
  have stored : Delivery.recordNeeded ctx response =
      response.setHeader Header.name (Header.encode ctx.needed) := by
    simp [Delivery.recordNeeded, plain, needs]
  have proper := fun v member => trusted.proper v member
  have decodes := Header.decode_encode readsBack fun v member => (proper v member).readable
  have same : ∀ v, v ∈ ctx.needed.toList ↔ v ∈ (VariableSet.ofList (Header.sorted ctx.needed)).toList := by
    intro v
    rw [Header.toList_sorted, Header.mem_sorted]
    intro u left w right named
    exact trusted.eq_of_identifier_eq (arises_of_requested ⟨u, left, u.self_mem_family⟩)
      (arises_of_requested ⟨w, right, w.self_mem_family⟩) named
  rw [stored]
  exact delivery.deliver_replayed_of_decoded ctx _ shared needs
    (Response.header_setHeader _ plain) decodes
    (delivery.provide_replayed ctx blind same trusted (trusted' _ decodes))

namespace Quotes

def visit : RequestContext where
  path := "/"
  needed := .ofList [count, pick (.expect count.identifier)]

def rendering : Delivery Unit where
  registry := registry
  evaluator := { sources := .none }
  render := true

/-- The pick is shown under the name that it gets once the count is known. -/
def pageResponse : Response where
  body := "<h1>" ++ count.echo ++ " quotes</h1><p>" ++
    (pick (.value ((Json.ofInt? quotes.length).getD .null))).echo ++ "</p>"

theorem visit_needed : visit.needed.toList = [count, pick (.expect count.identifier)] := by
  apply VariableSet.toList_ofList
  have apart := asked_apart
  simp only [asked, List.map_cons, List.map_nil, List.nodup_cons, List.mem_cons] at apart ⊢
  exact ⟨fun same => apart.1 (Or.inr same), by simp, List.nodup_nil⟩

theorem registry_ignoresNeeded : registry.IgnoresNeeded := by
  intro path computation found
  simp only [registry, Registry.register, NameMap.get?_insert] at found
  split at found
  · cases found
    intros
    rfl
  · split at found
    · cases found
      intros
      rfl
    · split at found
      · cases found
        intros
        rfl
      · cases found

set_option maxRecDepth 4000 in
theorem visit_header_readsBack :
    Json.parse? (Header.encode visit.needed) = some (.obj (Header.fields visit.needed)) := by
  have countName : count.identifier = "vb57a5815e29b4f0e60deb78301f839dc" := by decide
  have pickName : (pick (.expect count.identifier)).identifier =
      "v8ff75867614a9a94c960c06afeca1f97" := by decide
  have fields : Header.fields visit.needed =
      [("v8ff75867614a9a94c960c06afeca1f97", .arr [.str "quotes.pick", .arr [],
          .obj [("limit", .obj [("__expect__", .str "vb57a5815e29b4f0e60deb78301f839dc")])]]),
        ("vb57a5815e29b4f0e60deb78301f839dc", .arr [.str "quotes.count"])] := by
    unfold Header.fields
    rw [visit_needed, List.map_cons, List.map_cons, pickName, countName]
    rfl
  have text : Header.encode visit.needed = (Json.obj (Header.fields visit.needed)).text := rfl
  rw [text, fields]
  cbv

theorem visit_needs : visit.needed.isEmpty = false := by
  cases empty : visit.needed.isEmpty with
  | false => rfl
  | true =>
    have none := VariableSet.toList_of_isEmpty empty
    rw [visit_needed] at none
    cases none

theorem visit_delivered : ∃ response : Response, response.body = "<h1>4 quotes</h1><p>0</p>" ∧
    (rendering.deliver visit (Delivery.recordNeeded visit pageResponse) ()).1 = .ok response := by
  let bare := (Delivery.recordNeeded visit pageResponse).removeHeader Header.name
  obtain ⟨table, resolved, checked⟩ : ∃ table,
      resolve (registry.compute visit) visit.needed = .ok table ∧
        decide ((rendering.finish visit { bare with body := table.statements ++ bare.body }
          ()).1.toOption.map Response.body = some "<h1>4 quotes</h1><p>0</p>") = true :=
    resolve_checked_of_runFor 6 (by decide +kernel)
  have fresh : visit.needed.isEmpty = true →
      (Delivery.recordNeeded visit pageResponse).header Header.name = none := by
    intro empty
    rw [visit_needs] at empty
    cases empty
  have silent : rendering.debug = false := rfl
  have delivered := rendering.deliver_of_resolved visit _ () fresh resolved
  simp only [silent, Bool.false_eq_true, if_false] at delivered
  rw [delivered]
  obtain ⟨response, finished, body⟩ := Option.map_eq_some_iff.1 (of_decide_eq_true checked)
  exact ⟨response, body, eq_ok_of_toOption finished⟩

end Quotes

theorem quotes_replayed : ∃ response : Response, response.body = "<h1>4 quotes</h1><p>0</p>" ∧
    (Quotes.rendering.deliver Quotes.visit
      (Delivery.recordNeeded Quotes.visit Quotes.pageResponse) ()).1 = .ok response ∧
    (Quotes.rendering.deliver Quotes.visit.replayed
      (Delivery.recordNeeded Quotes.visit Quotes.pageResponse) ()).1 = .ok response ∧
    (Quotes.rendering.deliver Quotes.visit
        (Delivery.recordNeeded Quotes.visit Quotes.pageResponse) ()).2 =
      (Quotes.rendering.deliver Quotes.visit.replayed
        (Delivery.recordNeeded Quotes.visit Quotes.pageResponse) ()).2 := by
  have site : ∀ v ∈ Quotes.visit.needed.toList, v ∈ Quotes.asked := by
    rw [Quotes.visit_needed]
    simp [Quotes.asked]
  have trusted := Quotes.unambiguous Quotes.visit rfl site
  have trusted' : ∀ decoded, Header.decode (Header.encode Quotes.visit.needed) = .ok decoded →
      Unambiguous (stateless (Quotes.rendering.registry.compute Quotes.visit.replayed)) decoded () := by
    intro decoded decodes
    apply Quotes.unambiguous Quotes.visit.replayed rfl
    have known := Header.decode_encode Quotes.visit_header_readsBack
      fun v member => (trusted.proper v member).readable
    have equal : decoded = .ofList (Header.sorted Quotes.visit.needed) :=
      Except.ok.inj (decodes.symm.trans known)
    intro v member
    rw [equal, Header.toList_sorted] at member
    exact site v (Header.mem_of_mem_sorted member)
  obtain ⟨same, shared⟩ := deliver_replayed Quotes.rendering Quotes.visit Quotes.pageResponse ()
    Quotes.visit_needs rfl Quotes.registry_ignoresNeeded Quotes.visit_header_readsBack trusted trusted'
  obtain ⟨response, body, delivered⟩ := Quotes.visit_delivered
  rw [delivered] at same
  exact ⟨response, body, delivered, same.eq_ok, shared⟩

end TwoPhase
