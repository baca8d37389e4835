import Mathlib.Algebra.Order.Field.Power
import Mathlib.Tactic.NormNum
import TwoPhase.Proofs.TypedArguments

/-
A literal that is coerced comes out with the declared type and is left as it is from then on,
with one exception: where a text writes a number that is not finite, a float is wanted and null
is what comes out.
-/
namespace TwoPhase

namespace Double
variable {negative : Bool}

theorem limit_eq_mul : (limit : ℚ) = (2 ^ 1024 - 2 ^ 970) * one := by
  obtain ⟨top, last, half⟩ := limit_eq
  obtain ⟨places, bound, unit⟩ := one_eq
  have room : 1 ≤ Nat.pow 2 54 := by decide
  rw [half, unit, Nat.cast_mul, Nat.cast_sub room]
  simp only [Nat.pow_eq, Nat.cast_pow, Nat.cast_ofNat, Nat.cast_one]
  have exponent : top = 970 + places := by omega
  have largest : (2 ^ 1024 : ℚ) = 2 ^ 54 * 2 ^ 970 := pow_add 2 54 970
  rw [exponent, pow_add, largest]
  generalize (2 ^ 970 : ℚ) = step
  ring

theorem ofDecimal?_eq_none_iff {digits : Nat} {exponent : Int} :
    ofDecimal? negative digits exponent = none ↔
      (2 ^ 1024 - 2 ^ 970 : ℚ) ≤ digits * 10 ^ exponent := by
  have parts : (10 : ℚ) ^ exponent * 10 ^ (-exponent).toNat = 10 ^ exponent.toNat := by
    rw [← zpow_natCast, ← zpow_natCast, ← zpow_add₀ (by norm_num)]
    congr 1
    omega
  have scale : (0 : ℚ) < one * 10 ^ (-exponent).toNat :=
    mul_pos (Nat.cast_pos.2 one_pos) (by positivity)
  have positive : 0 < Nat.pow 10 (-exponent).toNat := Nat.pow_pos (by decide)
  rw [ofDecimal?_eq_round?, round?_eq_none_iff positive, ← Nat.cast_le (α := ℚ)]
  simp only [Nat.pow_eq, Nat.cast_mul, Nat.cast_pow, Nat.cast_ofNat]
  have moved : (digits : ℚ) * (10 ^ exponent * 10 ^ (-exponent).toNat) * one =
      digits * 10 ^ exponent * (one * 10 ^ (-exponent).toNat) := by ring
  rw [limit_eq_mul, ← parts, moved, mul_assoc, mul_le_mul_iff_of_pos_right scale]

theorem round?_word (negative : Bool) {n : Nat} (small : n ≤ Nat.pow 2 64) :
    ∃ x, round? negative (n * one) 1 = some x := by
  obtain ⟨top, last, half⟩ := limit_eq
  obtain ⟨places, bound, unit⟩ := one_eq
  rw [← Option.ne_none_iff_exists', Ne, round?_eq_none_iff Nat.one_pos, Nat.not_le, Nat.mul_one]
  calc n * one ≤ Nat.pow 2 64 * Nat.pow 2 places := unit ▸ Nat.mul_le_mul_right _ small
    _ = Nat.pow 2 (64 + places) := (pow_add_two ..).symm
    _ < Nat.pow 2 (53 + top) := Nat.pow_lt_pow_right (by decide) (by omega)
    _ = Nat.pow 2 53 * Nat.pow 2 top := pow_add_two ..
    _ ≤ limit := half ▸ Nat.mul_le_mul_right _ (by decide)

end Double

namespace ArgType
variable {type : ArgType} {value result : Json} {s : String}

def admits : ArgType → Json → Bool
  | int, .int _ => true
  | float, .float _ => true
  | str, .str _ => true
  | bool, .bool _ => true
  | _, _ => false

/-- The text is a name for an infinity or for no number at all, or a numeral that is past the range
of binary64 by half a unit or more. -/
def WritesUnbounded (s : String) : Prop :=
  isUnboundedName (trimBlank s.toList) = true ∨
    ∃ n, Numeral.read? (trimBlank s.toList) = some n ∧
      (2 ^ 1024 - 2 ^ 970 : ℚ) ≤ n.digits * 10 ^ n.exponent

def Overflows (type : ArgType) (value : Json) : Prop :=
  type = float ∧ ∃ s, value = .str s ∧ WritesUnbounded s

theorem ofFloat_eq_null_iff {x : Option Double} : Json.ofFloat x = .null ↔ x = none := by
  cases x with
  | none => exact iff_of_true rfl rfl
  | some x => exact iff_of_false (fun same => nomatch same) (fun same => nomatch same)

theorem readFloat?_eq_null_iff : readFloat? s = some .null ↔ WritesUnbounded s := by
  unfold readFloat? WritesUnbounded Double.read?
  by_cases named : isUnboundedName (trimBlank s.toList) = true
  · rw [if_pos named]
    exact iff_of_true rfl (Or.inl named)
  · rw [if_neg named]
    cases Numeral.read? (trimBlank s.toList) with
    | none => simp [named]
    | some n => simp [named, ofFloat_eq_null_iff, Double.ofDecimal?_eq_none_iff]

theorem ofFloat_word (negative : Bool) {n : Nat} (small : n ≤ Nat.pow 2 64) :
    Json.ofFloat (Double.round? negative (n * Double.one) 1) ≠ .null := by
  obtain ⟨x, rounded⟩ := Double.round?_word negative small
  rw [rounded]
  exact fun same => nomatch same

theorem coerce?_eq_null_iff : type.coerce? value = some .null ↔ type.Overflows value := by
  constructor
  · intro coerced
    cases coerce?_answers coerced
    refine ⟨rfl, ?_⟩
    cases value with
    | int i =>
      have lower := i.lower
      have upper := i.upper
      have small : i.value.natAbs ≤ Nat.pow 2 64 := by
        simp only [Nat.pow_eq] at *
        omega
      exact absurd (Option.some.inj coerced) (ofFloat_word _ small)
    | bool b => exact absurd (Option.some.inj coerced) (ofFloat_word _ (by cases b <;> decide))
    | str s => exact ⟨s, rfl, readFloat?_eq_null_iff.1 coerced⟩
    | _ => cases coerced
  · rintro ⟨rfl, s, rfl, unbounded⟩
    exact readFloat?_eq_null_iff.2 unbounded

theorem coerce?_of_admits (admitted : type.admits result = true) :
    type.coerce? result = some result := by
  unfold admits at admitted
  split at admitted
  · rfl
  · rfl
  · rfl
  · rfl
  · cases admitted

theorem admits_of_answers (answers : Answers type result) (something : result ≠ .null) :
    type.admits result = true := by
  cases answers with
  | unbounded => exact absurd rfl something
  | _ => rfl

end ArgType

/-- What a literal is coerced to is of the wanted type and stays as it is when it is coerced again,
except where a float is wanted and the text writes a number that is not finite. There, always, null
comes out, which is of no type and is refused the next time. -/
theorem coercion_typed_iff (type : ArgType) (value : Json) :
    ((∀ result, type.coerce value = .ok result →
        type.admits result = true ∧ type.coerce result = .ok result) ↔ ¬ type.Overflows value) ∧
      (type.Overflows value → type.coerce value = .ok .null ∧ type.admits .null = false ∧
        ∃ failure, type.coerce .null = .error failure) := by
  have lost : type.Overflows value → type.coerce value = .ok .null := by
    intro overflows
    exact ArgType.coerce_eq_ok_iff.2 (ArgType.coerce?_eq_null_iff.2 overflows)
  refine ⟨⟨?_, ?_⟩, ?_⟩
  · intro typed overflows
    obtain ⟨admitted, _⟩ := typed .null (lost overflows)
    cases type <;> cases admitted
  · intro bounded result coerced
    have found := ArgType.coerce_eq_ok_iff.1 coerced
    have something : result ≠ .null := by
      rintro rfl
      exact bounded (ArgType.coerce?_eq_null_iff.1 found)
    have admitted := ArgType.admits_of_answers (ArgType.coerce?_answers found) something
    exact ⟨admitted, ArgType.coerce_eq_ok_iff.2 (ArgType.coerce?_of_admits admitted)⟩
  · intro overflows
    refine ⟨lost overflows, ?_⟩
    obtain ⟨rfl, _⟩ := overflows
    exact ⟨rfl, _, rfl⟩

theorem infinity_coerced_to_null :
    ArgType.float.coerce (.str "inf") = .ok .null ∧ ArgType.float.admits .null = false ∧
      ArgType.float.coerce .null ≠ .ok .null := by
  refine ⟨rfl, rfl, fun kept => ?_⟩
  cases kept

end TwoPhase
