import TwoPhase.NameMap

/-
The defined name closest to one that is not defined, by edit distance. A name further away
than half the length of the missing one is no suggestion; of names equally close the first in
ascending order is one.
-/
namespace TwoPhase

/-- One row of the distance table from the row above, whose first entry is `diagonal`. -/
def distanceRow (c : Char) : List Char → Nat → List Nat → Nat → List Nat
  | d :: text, diagonal, above :: row, left =>
    let here := min (min (left + 1) (above + 1)) (diagonal + if c = d then 0 else 1)
    here :: distanceRow c text above row here
  | _, _, _, _ => []

def editDistance (a b : List Char) : Nat :=
  let start := (List.range b.length).map (· + 1)
  let (last, _) := a.foldl (fun (row, index) c =>
    (distanceRow c b index row (index + 1), index + 1)) (start, 0)
  last.getLastD a.length

def closestName? (target : String) (names : List String) : Option String :=
  let limit := target.utf8ByteSize * 50 / 100
  let close := names.filterMap fun name =>
    let distance := editDistance target.toList name.toList
    if distance ≤ limit then some (distance, name) else none
  let best := close.foldl (fun best candidate =>
    match best with
    | some (distance, _) => if candidate.1 < distance then some candidate else best
    | none => some candidate) none
  best.map Prod.snd

end TwoPhase
