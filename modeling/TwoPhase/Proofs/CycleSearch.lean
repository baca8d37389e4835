import Mathlib.Data.List.Chain
import Mathlib.Data.List.Nodup
import Mathlib.Data.List.Perm.Subperm
import Mathlib.Logic.Relation
import TwoPhase.WaitGraph

/-
What the search for a cycle finds. The names on the path are linked by waits and differ, so a wait
for one of them closes a cycle. A name is cleared after everything it waits for, hence from
a cleared name all ways end. The path never holds more names than the graph, and for that
reason the levels suffice.
-/
namespace TwoPhase

/-- A way that repeats no name, except that it ends where it began. -/
def Cycle (waits : String → String → Prop) (names : List String) : Prop :=
  ∃ first between, names = first :: between ++ [first] ∧ (first :: between).Nodup ∧
    names.IsChain waits

theorem Cycle.imp {waits others : String → String → Prop} {names : List String}
    (every : ∀ name target, waits name target → others name target) (cycle : Cycle waits names) :
    Cycle others names := by
  obtain ⟨first, between, listed, distinct, linked⟩ := cycle
  exact ⟨first, between, listed, distinct, linked.imp every⟩

theorem Cycle.comes_back {waits : String → String → Prop} {names : List String}
    (cycle : Cycle waits names) : ∃ name, Relation.TransGen waits name name := by
  obtain ⟨first, between, rfl, _, linked⟩ := cycle
  obtain ⟨next, rest, split⟩ : ∃ next rest, between ++ [first] = next :: rest :=
    List.exists_cons_of_ne_nil (by simp)
  rw [List.cons_append, split, List.isChain_cons_cons] at linked
  have last : (next :: rest).getLast (List.cons_ne_nil next rest) = first := by
    simp only [← split, List.getLast_append_singleton]
  have back := List.relationReflTransGen_of_exists_isChain_cons rest linked.2 last
  exact ⟨first, .head' linked.1 back⟩

namespace WaitGraph
variable {graph : WaitGraph} {path names cleared : List String} {node name : String} {levels : Nat}

def Waits (graph : WaitGraph) (name target : String) : Prop := (name, target) ∈ graph.edges

theorem mem_targets {target : String} : target ∈ graph.targets name ↔ graph.Waits name target := by
  unfold targets Waits
  rw [List.mem_filterMap]
  constructor
  · rintro ⟨⟨source, other⟩, member, same⟩
    dsimp only at same
    split at same
    · next own =>
      subst own
      cases same
      exact member
    · cases same
  · intro member
    exact ⟨_, member, if_pos rfl⟩

def Closed (graph : WaitGraph) : Prop :=
  ∀ name target, graph.Waits name target → name ∈ graph.nodes ∧ target ∈ graph.nodes

section Construction

theorem mem_addNode (graph : WaitGraph) (node : String) :
    name ∈ (graph.addNode node).nodes ↔ name = node ∨ name ∈ graph.nodes := by
  unfold addNode
  split
  · next held => exact ⟨Or.inr, fun either => either.elim (fun same => same ▸ held) id⟩
  · rw [List.mem_append, List.mem_singleton, or_comm]

@[simp] theorem addNode_edges (graph : WaitGraph) (node : String) :
    (graph.addNode node).edges = graph.edges := by
  unfold addNode
  split <;> rfl

theorem addWait_waits (graph : WaitGraph) (source goal : String) {target : String} :
    (graph.addWait source goal).Waits name target ↔
      (name, target) = (source, goal) ∨ graph.Waits name target := by
  unfold addWait Waits
  dsimp only
  split
  · next held =>
    simp only [addNode_edges] at held ⊢
    exact ⟨Or.inr, fun either => either.elim (fun same => same ▸ held) id⟩
  · simp

theorem mem_addWait (graph : WaitGraph) (source goal : String) :
    name ∈ (graph.addWait source goal).nodes ↔
      name = goal ∨ name = source ∨ name ∈ graph.nodes := by
  have nodes : (graph.addWait source goal).nodes = ((graph.addNode source).addNode goal).nodes := by
    unfold addWait
    dsimp only
    split <;> rfl
  rw [nodes, mem_addNode, mem_addNode]

theorem Closed.addWait (closed : graph.Closed) (source goal : String) :
    (graph.addWait source goal).Closed := by
  intro name target waits
  rw [mem_addWait, mem_addWait]
  rcases (addWait_waits graph source goal).1 waits with new | old
  · cases new
    exact ⟨Or.inr (Or.inl rfl), Or.inl rfl⟩
  · obtain ⟨own, other⟩ := closed name target old
    exact ⟨Or.inr (Or.inr own), Or.inr (Or.inr other)⟩

theorem foldl_addWait (waits : List (String × String)) (closed : graph.Closed) :
    (waits.foldl (fun graph wait => graph.addWait wait.1 wait.2) graph).Closed ∧
      ∀ name target,
        (waits.foldl (fun graph wait => graph.addWait wait.1 wait.2) graph).Waits name target ↔
          (name, target) ∈ waits ∨ graph.Waits name target := by
  induction waits generalizing graph with
  | nil => exact ⟨closed, fun name target => by simp⟩
  | cons wait waits ih =>
    obtain ⟨still, members⟩ := ih (closed.addWait wait.1 wait.2)
    refine ⟨still, ?_⟩
    intro name target
    rw [List.foldl_cons, members, addWait_waits, List.mem_cons, or_left_comm, or_assoc]

theorem ofWaits_spec (waits : List (String × String)) : (ofWaits waits).Closed ∧
    ∀ name target, (ofWaits waits).Waits name target ↔ (name, target) ∈ waits := by
  have empty : ∀ name target, ¬ Waits {} name target := fun _ _ => List.not_mem_nil
  obtain ⟨closed, members⟩ := foldl_addWait waits fun name target waits =>
    absurd waits (empty name target)
  refine ⟨closed, fun name target => ?_⟩
  exact (members name target).trans (or_iff_left (empty name target))

end Construction

def Ends (graph : WaitGraph) (name : String) : Prop :=
  Acc (fun target name => graph.Waits name target) name

theorem Ends.not_endless {left : String → Prop}
    (ends : graph.Ends name)
    (onward : ∀ name, left name → ∃ target, graph.Waits name target ∧ left target) :
    ¬ left name := by
  induction ends with
  | intro name _ ih =>
    intro here
    obtain ⟨target, waits, still⟩ := onward name here
    exact ih target waits still

theorem Ends.not_comes_back (ends : graph.Ends name) :
    ¬ Relation.TransGen graph.Waits name name := by
  induction ends with
  | intro name _ ih =>
    intro back
    obtain ⟨target, waits, rest⟩ := Relation.TransGen.head'_iff.1 back
    exact ih target waits (.tail' rest waits)

structure OnPath (graph : WaitGraph) (path : List String) : Prop where
  distinct : path.Nodup
  known : path ⊆ graph.nodes
  linked : path.IsChain fun target name => graph.Waits name target

theorem OnPath.length_le (way : graph.OnPath path) : path.length ≤ graph.nodes.length :=
  (way.distinct.subperm way.known).length_le

theorem OnPath.cons (way : graph.OnPath (node :: path)) (closed : graph.Closed)
    (waits : graph.Waits node name) (new : name ∉ node :: path) :
    graph.OnPath (name :: node :: path) where
  distinct := List.nodup_cons.2 ⟨new, way.distinct⟩
  known := List.cons_subset.2 ⟨(closed node name waits).2, way.known⟩
  linked := List.isChain_cons_cons.2 ⟨waits, way.linked⟩

theorem takeWhile_ne_prefix (met : name ∈ path) :
    path.takeWhile (· ≠ name) ++ [name] <+: path := by
  induction path with
  | nil => cases met
  | cons head rest ih =>
    by_cases same : head = name
    · simp [same]
    · have later : name ∈ rest := (List.mem_cons.1 met).resolve_left (Ne.symm same)
      simpa [same] using ih later

theorem OnPath.closeCycle (way : graph.OnPath (node :: path)) (waits : graph.Waits node name)
    (met : name ∈ node :: path) : Cycle graph.Waits (closeCycle (node :: path) name) := by
  have inner := takeWhile_ne_prefix met
  have reversed : WaitGraph.closeCycle (node :: path) name =
      (name :: ((node :: path).takeWhile (· ≠ name) ++ [name])).reverse := by
    simp [WaitGraph.closeCycle]
  refine ⟨name, ((node :: path).takeWhile (· ≠ name)).reverse, rfl, ?_, ?_⟩
  · have distinct := way.distinct.sublist inner.sublist
    rwa [← List.nodup_reverse, List.reverse_append] at distinct
  · rw [reversed, List.isChain_reverse]
    have linked : (name :: node :: path).IsChain fun target name => graph.Waits name target :=
      List.isChain_cons_cons.2 ⟨waits, way.linked⟩
    exact linked.prefix (List.cons_prefix_cons.2 ⟨rfl, inner⟩)

/-- What the search may answer when it has been through some names: a cycle, or cleared names with
these among them. -/
inductive Searched (graph : WaitGraph) (names : List String) :
    Except (List String) (List String) → Prop where
  | met {cycle : List String} (found : Cycle graph.Waits cycle) :
      Searched graph names (.error cycle)
  | cleared {cleared : List String} (all : names ⊆ cleared)
      (ends : ∀ name ∈ cleared, graph.Ends name) : Searched graph names (.ok cleared)

theorem Searched.mono {fewer : List String} {answer : Except (List String) (List String)}
    (part : fewer ⊆ names) (searched : graph.Searched names answer) :
    graph.Searched fewer answer := by
  cases searched with
  | met found => exact .met found
  | cleared all ends => exact .cleared (List.Subset.trans part all) ends

theorem Searched.foldlM {step : List String → String → Except (List String) (List String)}
    (each : ∀ name ∈ names, ∀ cleared, (∀ other ∈ cleared, graph.Ends other) →
      graph.Searched (name :: cleared) (step cleared name))
    (ends : ∀ name ∈ cleared, graph.Ends name) :
    graph.Searched (names ++ cleared) (names.foldlM step cleared) := by
  induction names generalizing cleared with
  | nil => exact .cleared (List.Subset.refl _) ends
  | cons name names ih =>
    rw [List.foldlM_cons]
    have first := each name List.mem_cons_self cleared ends
    generalize step cleared name = answer at first
    cases first with
    | met found => exact .met found
    | @cleared next all nextEnds =>
      have later := ih (fun other member => each other (List.mem_cons_of_mem _ member)) nextEnds
      apply later.mono
      intro other member
      rcases List.mem_cons.1 member with rfl | rest
      · exact List.mem_append_right _ (all List.mem_cons_self)
      · rcases List.mem_append.1 rest with inNames | before
        · exact List.mem_append_left _ inNames
        · exact List.mem_append_right _ (all (List.mem_cons_of_mem _ before))

theorem Searched.clear {answer : Except (List String) (List String)}
    (below : graph.Searched (graph.targets node ++ cleared) answer) :
    graph.Searched (node :: cleared) (answer >>= fun cleared => return node :: cleared) := by
  cases below with
  | met found => exact .met found
  | @cleared next all ends =>
    obtain ⟨targets, before⟩ := List.append_subset.1 all
    refine .cleared (List.cons_subset_cons node before) ?_
    intro name member
    rcases List.mem_cons.1 member with rfl | earlier
    · exact Acc.intro _ fun target waits => ends target (targets (mem_targets.2 waits))
    · exact ends name earlier

/-- A visit finds a cycle, or clears its name and keeps what was cleared before. The levels left and
the names on the path are as many as the names of the graph. -/
theorem visit_searched (closed : graph.Closed) (way : graph.OnPath (node :: path))
    (enough : levels + path.length = graph.nodes.length)
    (ends : ∀ name ∈ cleared, graph.Ends name) :
    graph.Searched (node :: cleared) (graph.visit levels path cleared node) := by
  induction levels generalizing path cleared node with
  | zero =>
    have short := way.length_le
    rw [List.length_cons] at short
    omega
  | succ levels ih =>
    rw [visit]
    refine Searched.clear (Searched.foldlM ?_ ends)
    intro next member cleared ends
    have waits := mem_targets.1 member
    split
    · next met => exact .met (way.closeCycle waits met)
    · next new =>
      split
      · next before => exact .cleared (List.cons_subset.2 ⟨before, List.Subset.refl _⟩) ends
      · apply ih (way.cons closed waits new) _ ends
        rw [List.length_cons]
        omega

theorem search_searched (closed : graph.Closed) :
    graph.Searched graph.nodes (graph.nodes.foldlM (fun cleared node =>
      if node ∈ cleared then .ok cleared
      else graph.visit graph.nodes.length [] cleared node) []) := by
  refine Searched.mono (List.subset_append_left _ []) (Searched.foldlM ?_ nofun)
  intro node member cleared ends
  split
  · next before => exact .cleared (List.cons_subset.2 ⟨before, List.Subset.refl _⟩) ends
  · have way : graph.OnPath [node] :=
      ⟨by simp, List.cons_subset.2 ⟨member, List.nil_subset _⟩, .singleton node⟩
    exact visit_searched closed way rfl ends

theorem findCycle_spec (closed : graph.Closed) :
    (∀ cycle, graph.findCycle = some cycle → Cycle graph.Waits cycle) ∧
      (graph.findCycle = none → ∀ name ∈ graph.nodes, graph.Ends name) := by
  unfold findCycle
  dsimp only
  split
  · next cycle answered =>
    have searched := search_searched closed
    rw [answered] at searched
    cases searched with
    | met found =>
      refine ⟨?_, nofun⟩
      intro cycle same
      cases same
      exact found
  · next cleared answered =>
    have searched := search_searched closed
    rw [answered] at searched
    cases searched with
    | cleared all ends => exact ⟨nofun, fun _ name member => ends name (all member)⟩

/-- A cycle is found exactly if some name waits for itself in the end, maybe at once. What is found
ends where it begins, holds no name twice otherwise, and follows the waits recorded. -/
theorem findCycle_isSome_iff (waits : List (String × String)) :
    ((ofWaits waits).findCycle.isSome = true ↔
      ∃ name, Relation.TransGen (fun source target => (source, target) ∈ waits) name name) ∧
    ∀ names, (ofWaits waits).findCycle = some names →
      2 ≤ names.length ∧ names.head? = names.getLast? ∧ names.dropLast.Nodup ∧
        names.IsChain fun source target => (source, target) ∈ waits := by
  obtain ⟨closed, recorded⟩ := ofWaits_spec waits
  have same : (ofWaits waits).Waits = fun source target => (source, target) ∈ waits :=
    funext fun source => funext fun target => propext (recorded source target)
  obtain ⟨sound, complete⟩ := findCycle_spec closed
  rw [← same]
  constructor
  · constructor
    · intro found
      obtain ⟨names, answer⟩ := Option.isSome_iff_exists.1 found
      exact (sound names answer).comes_back
    · rintro ⟨name, back⟩
      by_contra missed
      have none : (ofWaits waits).findCycle = none := by simpa using missed
      obtain ⟨target, first, _⟩ := Relation.TransGen.head'_iff.1 back
      exact (complete none name (closed name target first).1).not_comes_back back
  · intro names answer
    obtain ⟨first, between, rfl, distinct, linked⟩ := sound names answer
    have last : (first :: between ++ [first]).getLast? = some first := List.getLast?_concat
    refine ⟨by simp, last.symm, ?_, linked⟩
    rwa [List.dropLast_concat]

example : (ofWaits [("a", "b"), ("b", "c"), ("c", "b")]).findCycle = some ["b", "c", "b"] := by decide

end WaitGraph
end TwoPhase
