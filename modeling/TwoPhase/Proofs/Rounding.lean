import Mathlib.Tactic.Positivity
import Mathlib.Tactic.Ring
import TwoPhase.Number.Shortest

/-
Rounding to binary64. It depends on the quotient alone and leaves a number on the grid where it
is, so all decimals of one value round alike; there is no number exactly from half a unit past
the largest one on; the shortcuts for exponents out of range give what rounding would. Hence
the decimal chosen for a number stands for that number.
-/
namespace TwoPhase

section Rounding
variable {num den : Nat}

theorem roundHalfEven_mul_right (num den : Nat) {factor : Nat} (positive : 0 < factor) :
    roundHalfEven (num * factor) (den * factor) = roundHalfEven num den := by
  have below : 2 * (num % den) * factor < den * factor ↔ 2 * (num % den) < den :=
    Nat.mul_lt_mul_right positive
  have half : 2 * (num % den) * factor = den * factor ↔ 2 * (num % den) = den :=
    Nat.mul_left_inj positive.ne'
  unfold roundHalfEven
  simp only [Nat.mul_div_mul_right _ _ positive, Nat.mul_mod_mul_right, ← Nat.mul_assoc, below, half]

theorem roundHalfEven_exact (n : Nat) (positive : 0 < den) : roundHalfEven (n * den) den = n := by
  unfold roundHalfEven
  simp [Nat.mul_div_cancel _ positive, positive]

theorem roundHalfEven_eq_zero (small : 2 * num < den) : roundHalfEven num den = 0 := by
  have less : num < den := by omega
  unfold roundHalfEven
  simp [Nat.div_eq_of_lt less, Nat.mod_eq_of_lt less, small]

theorem lt_roundHalfEven_iff {n : Nat} (odd : n % 2 = 1) (positive : 0 < den) :
    n < roundHalfEven num den ↔ (2 * n + 1) * den ≤ 2 * num := by
  have whole := Nat.div_add_mod num den
  have rest := Nat.mod_lt num positive
  have spread : (2 * n + 1) * den = 2 * (den * n) + den := by ring
  rw [spread]
  unfold roundHalfEven
  dsimp only
  generalize num / den = below at *
  generalize num % den = left at *
  by_cases less : below < n
  · have room : den * below + den ≤ den * n := Nat.mul_le_mul_left den less
    split <;> omega
  · by_cases same : below = n
    · subst same
      split <;> omega
    · have room : den * n + den ≤ den * below :=
        Nat.mul_le_mul_left den (Nat.lt_of_le_of_ne (by omega) (Ne.symm same))
      split <;> omega

theorem roundHalfEven_bounds (num den : Nat) :
    num / den ≤ roundHalfEven num den ∧ roundHalfEven num den ≤ num / den + 1 := by
  unfold roundHalfEven
  dsimp only
  split <;> omega

end Rounding

namespace Double
variable {num den other : Nat} {negative : Bool}

/-- With the exponent as a variable, no step computes the power. -/
theorem one_eq : ∃ places, places = 1074 ∧ one = Nat.pow 2 places := by
  refine ⟨1074, rfl, ?_⟩
  delta one
  rfl

theorem pow_succ_two (n : Nat) : Nat.pow 2 (n + 1) = 2 * Nat.pow 2 n := Nat.pow_succ' ..

theorem pow_add_two (m n : Nat) : Nat.pow 2 (m + n) = Nat.pow 2 m * Nat.pow 2 n := Nat.pow_add ..

theorem one_pos : 0 < one := by
  obtain ⟨places, _, unit⟩ := one_eq
  exact unit ▸ Nat.pow_pos (by decide)

theorem round?_mul_right (negative : Bool) (num den : Nat) {factor : Nat} (positive : 0 < factor) :
    round? negative (num * factor) (den * factor) = round? negative num den := by
  unfold round?
  simp only [Nat.mul_div_mul_right _ _ positive, Nat.mul_right_comm den factor,
    roundHalfEven_mul_right _ _ positive]

theorem round?_congr {num' den' : Nat} (left : 0 < den) (right : 0 < den')
    (same : num * den' = num' * den) : round? negative num den = round? negative num' den' := by
  rw [← round?_mul_right negative num den right, same, Nat.mul_comm den,
    round?_mul_right negative num' den' left]

theorem ofParts?_self (x : Double) : ofParts? x.negative x.mantissa x.scale = some x := by
  unfold ofParts?
  rw [dif_pos ⟨x.mantissa_lt, x.scale_le, x.normal⟩]

theorem scale_eq (x : Double) : x.units.log2 - 52 = x.scale := by
  have small := x.mantissa_lt
  have normal := x.normal
  unfold units
  rw [Nat.pow_eq] at small ⊢
  by_cases zero : x.mantissa = 0
  · rw [zero, Nat.pow_eq] at normal
    have flat : x.scale = 0 := normal.elim id fun large => absurd large (by decide)
    simp [zero, flat]
  · have power : 0 < 2 ^ x.scale := Nat.two_pow_pos _
    have size : (x.mantissa * 2 ^ x.scale).log2 = x.mantissa.log2 + x.scale := by
      rw [Nat.log2_eq_iff (by positivity)]
      constructor
      · rw [Nat.pow_add]
        exact Nat.mul_le_mul_right _ (Nat.log2_self_le zero)
      · rw [Nat.add_right_comm, Nat.pow_add]
        exact Nat.mul_lt_mul_of_pos_right Nat.lt_log2_self power
    have most : x.mantissa.log2 < 53 := (Nat.log2_lt zero).2 small
    rw [size]
    rcases normal with flat | large
    · omega
    · have least : 52 ≤ x.mantissa.log2 := (Nat.le_log2 zero).2 large
      omega

theorem round?_exact (x : Double) (positive : 0 < den) :
    round? x.negative (x.units * den) den = some x := by
  have whole : x.units * den / den = x.units := Nat.mul_div_cancel _ positive
  have rounded : roundHalfEven (x.units * den) (den * Nat.pow 2 x.scale) = x.mantissa := by
    have unit : 0 < den * Nat.pow 2 x.scale := Nat.mul_pos positive (Nat.pow_pos (by decide))
    rw [units, Nat.mul_assoc, Nat.mul_comm _ den]
    exact roundHalfEven_exact _ unit
  unfold round?
  simp only [whole, scale_eq, rounded]
  rw [if_neg (Nat.ne_of_lt x.mantissa_lt), ofParts?_self]

theorem round?_of_small (small : 2 * num < den) : round? negative num den = some (zero negative) := by
  have nothing : num / den = 0 := Nat.div_eq_of_lt (by omega)
  have scale : (0 : Nat).log2 - 52 = 0 := by decide
  unfold round?
  simp only [nothing, scale, Nat.pow_eq, Nat.pow_zero, Nat.mul_one, roundHalfEven_eq_zero small]
  rfl

theorem ofParts?_eq_none_iff {mantissa scale : Nat} :
    ofParts? negative mantissa scale = none ↔
      ¬ (mantissa < Nat.pow 2 53 ∧ scale ≤ 2045 ∧ (scale = 0 ∨ Nat.pow 2 52 ≤ mantissa)) := by
  unfold ofParts?
  split
  · next fits => simp [fits]
  · next past => simp only [past, not_false_eq_true]

/-- Half a unit of the last place past the largest number. -/
def limit : Nat := (Nat.pow 2 54 - 1) * Nat.pow 2 2044

theorem limit_eq : ∃ top, top = 2044 ∧ limit = (Nat.pow 2 54 - 1) * Nat.pow 2 top := by
  refine ⟨2044, rfl, ?_⟩
  delta limit
  rfl

theorem limit_le : ∃ places ≤ 1025, limit ≤ Nat.pow 2 places * one := by
  obtain ⟨top, last, half⟩ := limit_eq
  obtain ⟨places, bound, unit⟩ := one_eq
  have sum : 54 + top = 54 + top - places + places := by omega
  refine ⟨54 + top - places, by omega, ?_⟩
  calc limit ≤ Nat.pow 2 54 * Nat.pow 2 top := half ▸ Nat.mul_le_mul_right _ (Nat.sub_le ..)
    _ = Nat.pow 2 (54 + top) := (pow_add_two ..).symm
    _ = Nat.pow 2 (54 + top - places) * one := by rw [sum, pow_add_two, ← unit, ← sum]

theorem round?_mantissa (num den : Nat) :
    let scale := (num / den).log2 - 52
    let mantissa := roundHalfEven num (den * Nat.pow 2 scale)
    mantissa ≤ Nat.pow 2 53 ∧ (scale = 0 ∨ Nat.pow 2 52 ≤ mantissa) := by
  intro scale mantissa
  have whole : num / (den * Nat.pow 2 scale) = num / den / Nat.pow 2 scale :=
    (Nat.div_div_eq_div_mul ..).symm
  obtain ⟨above, near⟩ := roundHalfEven_bounds num (den * Nat.pow 2 scale)
  have power : 0 < Nat.pow 2 scale := Nat.pow_pos (by decide)
  have less : num / den < Nat.pow 2 53 * Nat.pow 2 scale := by
    rw [← pow_add_two]
    exact Nat.lt_of_lt_of_le Nat.lt_log2_self (Nat.pow_le_pow_right (by decide) (by omega))
  have short : num / (den * Nat.pow 2 scale) < Nat.pow 2 53 :=
    whole ▸ (Nat.div_lt_iff_lt_mul power).2 less
  refine ⟨Nat.le_trans near short, ?_⟩
  by_cases least : scale = 0
  · exact Or.inl least
  · right
    refine Nat.le_trans ?_ above
    rw [whole, Nat.le_div_iff_mul_le power, ← pow_add_two]
    have size : 52 + scale = (num / den).log2 := by omega
    have nonzero : num / den ≠ 0 := by
      intro nothing
      rw [nothing, Nat.log2_zero] at size
      omega
    rw [size]
    exact Nat.log2_self_le nonzero

/-- There is no number for half a unit past the largest one, nor for anything beyond. -/
theorem round?_eq_none_iff (positive : 0 < den) :
    round? negative num den = none ↔ limit * den ≤ num := by
  obtain ⟨few, large⟩ := round?_mantissa num den
  obtain ⟨top, last, unit⟩ := limit_eq
  have odd : (Nat.pow 2 53 - 1) % 2 = 1 := by decide
  have outside : round? negative num den = none ↔ 2045 < (num / den).log2 - 52 ∨
      (num / den).log2 - 52 = 2045 ∧
        Nat.pow 2 53 - 1 < roundHalfEven num (den * Nat.pow 2 ((num / den).log2 - 52)) := by
    unfold round?
    dsimp only
    split
    · next carry =>
      have room : Nat.pow 2 52 < Nat.pow 2 53 := by decide
      rw [ofParts?_eq_none_iff, carry]
      omega
    · next fits =>
      rw [ofParts?_eq_none_iff]
      omega
  rw [outside, unit]
  -- The scale settles it, except at the largest one, where the mantissa may still carry.
  by_cases above : 2045 < (num / den).log2 - 52
  · have nonzero : num / den ≠ 0 := by
      intro nothing
      rw [nothing, Nat.log2_zero] at above
      omega
    have past : (Nat.pow 2 54 - 1) * Nat.pow 2 top ≤ num / den := by
      calc (Nat.pow 2 54 - 1) * Nat.pow 2 top ≤ Nat.pow 2 54 * Nat.pow 2 top :=
            Nat.mul_le_mul_right _ (Nat.sub_le ..)
        _ = Nat.pow 2 (54 + top) := (pow_add_two ..).symm
        _ ≤ Nat.pow 2 (num / den).log2 := Nat.pow_le_pow_right (by decide) (by omega)
        _ ≤ num / den := Nat.log2_self_le nonzero
    exact iff_of_true (Or.inl above) ((Nat.le_div_iff_mul_le positive).1 past)
  · by_cases same : (num / den).log2 - 52 = 2045
    · have scale : (num / den).log2 - 52 = top + 1 := by omega
      have step : 0 < den * Nat.pow 2 (top + 1) := Nat.mul_pos positive (Nat.pow_pos (by decide))
      have half : (2 * (Nat.pow 2 53 - 1) + 1) * (den * Nat.pow 2 (top + 1)) =
          2 * ((Nat.pow 2 54 - 1) * Nat.pow 2 top * den) := by
        have digits : 2 * (Nat.pow 2 53 - 1) + 1 = Nat.pow 2 54 - 1 := by decide
        rw [digits, pow_succ_two top]
        ring
      have tie : Nat.pow 2 53 - 1 < roundHalfEven num (den * Nat.pow 2 (top + 1)) ↔ _ :=
        lt_roundHalfEven_iff odd step
      rw [half] at tie
      rw [scale, tie]
      omega
    · have room : num / den < (Nat.pow 2 54 - 1) * Nat.pow 2 top := by
        calc num / den < Nat.pow 2 ((num / den).log2 + 1) := Nat.lt_log2_self
          _ ≤ Nat.pow 2 (53 + top) := Nat.pow_le_pow_right (by decide) (by omega)
          _ = Nat.pow 2 53 * Nat.pow 2 top := pow_add_two ..
          _ ≤ (Nat.pow 2 54 - 1) * Nat.pow 2 top := Nat.mul_le_mul_right _ (by decide)
      have short := (Nat.div_lt_iff_lt_mul positive).1 room
      exact iff_of_false (by omega) (Nat.not_le_of_lt short)

theorem two_pow_le_ten_pow {places exponent : Nat} (count : Nat) (few : places ≤ 205 * count)
    (high : 62 * count ≤ exponent) : Nat.pow 2 places ≤ Nat.pow 10 exponent := by
  have short : Nat.pow 2 205 ≤ Nat.pow 10 62 := by decide
  calc Nat.pow 2 places ≤ Nat.pow 2 (205 * count) := Nat.pow_le_pow_right (by decide) few
    _ = Nat.pow (Nat.pow 2 205) count := Nat.pow_mul ..
    _ ≤ Nat.pow (Nat.pow 10 62) count := Nat.pow_le_pow_left short count
    _ = Nat.pow 10 (62 * count) := (Nat.pow_mul ..).symm
    _ ≤ Nat.pow 10 exponent := Nat.pow_le_pow_right (by decide) high

theorem power_past_smallest (length : Nat) :
    Nat.pow 2 (length + 1) * (2 * one) ≤ Nat.pow 10 (length + 401) := by
  obtain ⟨places, bound, unit⟩ := one_eq
  rw [unit]
  calc Nat.pow 2 (length + 1) * (2 * Nat.pow 2 places)
      = Nat.pow 2 (length + 1 + (places + 1)) := by
        rw [pow_add_two _ (places + 1), pow_succ_two places]
    _ ≤ Nat.pow 2 (3 * (length + 401)) := Nat.pow_le_pow_right (by decide) (by omega)
    _ = Nat.pow (Nat.pow 2 3) (length + 401) := Nat.pow_mul ..
    _ ≤ Nat.pow 10 (length + 401) := Nat.pow_le_pow_left (by decide) _

theorem ofDecimal?_eq_round? (negative : Bool) (digits : Nat) (exponent : Int) :
    ofDecimal? negative digits exponent =
      round? negative (digits * Nat.pow 10 exponent.toNat * one) (Nat.pow 10 (-exponent).toNat) := by
  have flat : Nat.pow 10 0 = 1 := rfl
  unfold ofDecimal?
  split
  · next nothing =>
    have power : 0 < Nat.pow 10 (-exponent).toNat := Nat.pow_pos (by decide)
    rw [nothing, Nat.zero_mul, Nat.zero_mul, round?_of_small power]
  split
  · next positive high =>
    have plain : (-exponent).toNat = 0 := by omega
    obtain ⟨places, few, within⟩ := limit_le
    have past : limit ≤ digits * Nat.pow 10 exponent.toNat * one := by
      calc limit ≤ Nat.pow 2 places * one := within
        _ ≤ Nat.pow 10 exponent.toNat * one :=
          Nat.mul_le_mul_right _ (two_pow_le_ten_pow 5 few (by omega))
        _ ≤ digits * Nat.pow 10 exponent.toNat * one :=
          Nat.mul_le_mul_right _ (Nat.le_mul_of_pos_left _ (Nat.pos_of_ne_zero positive))
    rw [plain, flat, Eq.comm, round?_eq_none_iff Nat.one_pos, Nat.mul_one]
    exact past
  split
  · next positive _ low =>
    have plain : exponent.toNat = 0 := by omega
    have tiny : digits.log2 + 401 ≤ (-exponent).toNat := by omega
    have units : 0 < 2 * one := Nat.mul_pos (by decide) one_pos
    rw [plain, flat, Nat.mul_one, round?_of_small]
    calc 2 * (digits * one) = digits * (2 * one) := by ring
      _ < Nat.pow 2 (digits.log2 + 1) * (2 * one) :=
        Nat.mul_lt_mul_of_pos_right Nat.lt_log2_self units
      _ ≤ Nat.pow 10 (digits.log2 + 401) := power_past_smallest _
      _ ≤ Nat.pow 10 (-exponent).toNat := Nat.pow_le_pow_right (by decide) tiny
  split
  · next whole =>
    have plain : (-exponent).toNat = 0 := by omega
    rw [plain, flat]
  · next fraction =>
    have plain : exponent.toNat = 0 := by omega
    rw [plain, flat, Nat.mul_one]

theorem ofDecimal?_zeros (negative : Bool) (digits zeros : Nat) (exponent : Int) :
    ofDecimal? negative (digits * Nat.pow 10 zeros) exponent =
      ofDecimal? negative digits (exponent + zeros) := by
  rw [ofDecimal?_eq_round?, ofDecimal?_eq_round?]
  apply round?_congr (Nat.pow_pos (by decide)) (Nat.pow_pos (by decide))
  have places : zeros + exponent.toNat + (-(exponent + zeros)).toNat =
      (exponent + zeros).toNat + (-exponent).toNat := by omega
  have powers := congrArg (fun n => 10 ^ n) places
  simp only [Nat.pow_add] at powers
  simp only [Nat.pow_eq]
  calc digits * 10 ^ zeros * 10 ^ exponent.toNat * one * 10 ^ (-(exponent + zeros)).toNat
      = digits * one * (10 ^ zeros * 10 ^ exponent.toNat * 10 ^ (-(exponent + zeros)).toNat) := by ring
    _ = digits * one * (10 ^ (exponent + zeros).toNat * 10 ^ (-exponent).toNat) := by rw [powers]
    _ = digits * 10 ^ (exponent + zeros).toNat * one * 10 ^ (-exponent).toNat := by ring

theorem ofDecimal?_exact (x : Double) :
    ofDecimal? x.negative x.exact.digits x.exact.exponent = some x := by
  obtain ⟨places, bound, unit⟩ := one_eq
  have same : x.exact = ⟨x.units * Nat.pow 5 places, -places⟩ := by
    subst bound
    rfl
  have powers : Nat.pow 5 places * one = Nat.pow 10 places :=
    unit ▸ (Nat.mul_pow 5 2 places).symm
  have whole : (-(places : Int)).toNat = 0 := by omega
  have fraction : (-(-(places : Int))).toNat = places := by omega
  have flat : Nat.pow 10 0 = 1 := rfl
  rw [same, ofDecimal?_eq_round?, whole, fraction, flat, Nat.mul_one, Nat.mul_assoc, powers]
  exact round?_exact x (Nat.pow_pos (by decide))

theorem readsBack_of_onGrid? {x : Double} {exponent : Int} {d : Decimal}
    (found : x.onGrid? exponent = some d) : x.readsBack d.digits d.exponent = true := by
  simp only [onGrid?] at found
  grind

theorem ofDecimal?_shortest (x : Double) :
    ofDecimal? x.negative x.shortest.digits x.shortest.exponent = some x := by
  cases found : (List.range 17).findSome? fun (count : Nat) =>
      x.onGrid? (x.leadingExponent - count) with
  | none =>
    have chosen : x.shortest = x.exact := by
      simp only [shortest, found, Option.getD_none]
    rw [chosen, ofDecimal?_exact]
  | some d =>
    have chosen : x.shortest = d := by
      simp only [shortest, found, Option.getD_some]
    obtain ⟨count, _, onGrid⟩ := List.exists_of_findSome?_eq_some found
    rw [chosen]
    exact of_decide_eq_true (readsBack_of_onGrid? onGrid)

end Double

end TwoPhase
