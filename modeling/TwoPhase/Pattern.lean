/-
Patterns that recognise a piece of text at its start, and the scan that finds all pieces from
left to right, none overlapping another. A piece can be written back as it stood, which is
all the scan has to know about it.
-/
namespace TwoPhase

def literal? : List Char → List Char → Option (List Char)
  | [], text => some text
  | _ :: _, [] => none
  | w :: word, c :: text => if w = c then literal? word text else none

theorem literal?_eq_some {word text rest : List Char} :
    literal? word text = some rest ↔ text = word ++ rest := by
  induction word generalizing text with
  | nil => simp [literal?, eq_comm]
  | cons w word ih =>
    cases text with
    | nil => simp [literal?]
    | cons c text =>
      by_cases same : w = c
      · simp [literal?, same, ih]
      · simp [literal?, same, Ne.symm same]

def breakAt? (mark : List Char) : List Char → Option (List Char × List Char)
  | [] => (literal? mark []).map ([], ·)
  | c :: text =>
    match literal? mark (c :: text) with
    | some rest => some ([], rest)
    | none => (breakAt? mark text).map fun (before, rest) => (c :: before, rest)

theorem eq_of_breakAt? {mark text before rest : List Char}
    (found : breakAt? mark text = some (before, rest)) : text = before ++ mark ++ rest := by
  induction text generalizing before with
  | nil =>
    obtain ⟨_, matched, pair⟩ := Option.map_eq_some_iff.1 found
    cases pair
    simpa using literal?_eq_some.1 matched
  | cons c text ih =>
    simp only [breakAt?] at found
    split at found
    · next matched =>
      cases found
      simpa using literal?_eq_some.1 matched
    · obtain ⟨⟨_, _⟩, later, pair⟩ := Option.map_eq_some_iff.1 found
      cases pair
      simp [ih later]

structure Pattern (μ : Type) where
  read? : List Char → Option (μ × List Char)
  source : μ → List Char
  source_ne_nil : ∀ piece, source piece ≠ []
  eq_of_read? : ∀ {text piece rest}, read? text = some (piece, rest) → text = source piece ++ rest

namespace Pattern
variable {μ : Type}

def ofLiteral (word : List Char) (word_ne_nil : word ≠ []) : Pattern Unit where
  read? text := (literal? word text).map ((), ·)
  source _ := word
  source_ne_nil _ := word_ne_nil
  eq_of_read? found := by
    obtain ⟨_, matched, pair⟩ := Option.map_eq_some_iff.1 found
    cases pair
    exact literal?_eq_some.1 matched

/-- Scans after the next `skip` characters, which belong to the piece found last. -/
def scanAfter (pattern : Pattern μ) : Nat → List Char → List (Char ⊕ μ)
  | _, [] => []
  | skip + 1, _ :: text => pattern.scanAfter skip text
  | 0, c :: text =>
    match pattern.read? (c :: text) with
    | some (piece, _) => .inr piece :: pattern.scanAfter ((pattern.source piece).length - 1) text
    | none => .inl c :: pattern.scanAfter 0 text

def scan (pattern : Pattern μ) (text : List Char) : List (Char ⊕ μ) := pattern.scanAfter 0 text

theorem scanAfter_append (pattern : Pattern μ) (skipped text : List Char) :
    pattern.scanAfter skipped.length (skipped ++ text) = pattern.scan text := by
  induction skipped with
  | nil => rfl
  | cons c skipped ih => exact ih

theorem scan_of_read? (pattern : Pattern μ) {text rest : List Char} {piece : μ}
    (found : pattern.read? text = some (piece, rest)) :
    pattern.scan text = .inr piece :: pattern.scan rest := by
  have split := pattern.eq_of_read? found
  cases body : pattern.source piece with
  | nil => exact absurd body (pattern.source_ne_nil piece)
  | cons c tail =>
    rw [body] at split
    subst split
    rw [List.cons_append] at found ⊢
    simp only [scan, scanAfter, found, body, List.length_cons, Nat.add_sub_cancel]
    rw [scanAfter_append, scan]

theorem scan_of_none (pattern : Pattern μ) {c : Char} {text : List Char}
    (missed : pattern.read? (c :: text) = none) :
    pattern.scan (c :: text) = .inl c :: pattern.scan text := by
  simp [scan, scanAfter, missed]

def replace (pattern : Pattern μ) (f : μ → List Char) (text : List Char) : List Char :=
  (pattern.scan text).flatMap fun
    | .inl c => [c]
    | .inr piece => f piece

end Pattern
end TwoPhase
