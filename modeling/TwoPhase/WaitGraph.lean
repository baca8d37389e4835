/-
Who waits for whom. The search for a cycle is depth first and keeps the names on the current
path apart from those known to lead to no cycle. Roots are tried in the order in which names
were first mentioned, and from a name the edge added last is followed first.
-/
namespace TwoPhase

structure WaitGraph where
  nodes : List String := []
  edges : List (String × String) := []

namespace WaitGraph

def addNode (graph : WaitGraph) (node : String) : WaitGraph :=
  if node ∈ graph.nodes then graph else { graph with nodes := graph.nodes ++ [node] }

/-- Records that `source` waits for `target`; a wait recorded before is not repeated. -/
def addWait (graph : WaitGraph) (source target : String) : WaitGraph :=
  let graph := (graph.addNode source).addNode target
  if (source, target) ∈ graph.edges then graph
  else { graph with edges := (source, target) :: graph.edges }

def ofWaits (waits : List (String × String)) : WaitGraph :=
  waits.foldl (fun graph (source, target) => graph.addWait source target) {}

def targets (graph : WaitGraph) (node : String) : List String :=
  graph.edges.filterMap fun (source, target) => if source = node then some target else none

def closeCycle (path : List String) (node : String) : List String :=
  node :: (path.takeWhile (· ≠ node)).reverse ++ [node]

/-- Visits a name below the given path. The error is a cycle; else the answer lists all names
known to lead to none. No path is longer than the number of names, so that many levels
are enough. -/
def visit (graph : WaitGraph) :
    Nat → List String → List String → String → Except (List String) (List String)
  | 0, _, cleared, _ => .ok cleared
  | levels + 1, path, cleared, node => do
    let path := node :: path
    let cleared ← (graph.targets node).foldlM (fun cleared next =>
      if next ∈ path then .error (closeCycle path next)
      else if next ∈ cleared then .ok cleared
      else graph.visit levels path cleared next) cleared
    return node :: cleared

def findCycle (graph : WaitGraph) : Option (List String) :=
  let search := graph.nodes.foldlM (fun cleared node =>
    if node ∈ cleared then .ok cleared
    else graph.visit graph.nodes.length [] cleared node) []
  match search with
  | .error cycle => some cycle
  | .ok _ => none

end WaitGraph
end TwoPhase
