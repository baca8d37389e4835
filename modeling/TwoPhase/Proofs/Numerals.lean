import Mathlib.Data.List.DropRight
import Mathlib.Data.List.TakeDrop
import Mathlib.Data.List.TakeWhile
import TwoPhase.Number.Numeral
import TwoPhase.Proofs.Rounding

/-
Numerals read back as they were written. The significant digits and their exponent carry the
value of a decimal; wherever the point is put and whatever zeros are added, the numeral stands
for a decimal of that value, and these all round to the same number.
-/
namespace TwoPhase

section Digits

theorem digitsValue_eq (digits : List Char) : digitsValue digits = Nat.ofDigitChars 10 digits 0 := by
  unfold digitsValue Nat.ofDigitChars
  simp only [Nat.mul_comm]

theorem digitsValue_toDigits (n : Nat) : digitsValue (Nat.toDigits 10 n) = n := by
  rw [digitsValue_eq, Nat.ofDigitChars_ten_toDigits]

theorem digitsValue_zeros (digits : List Char) (zeros : Nat) :
    digitsValue (digits ++ List.replicate zeros '0') = digitsValue digits * Nat.pow 10 zeros := by
  rw [digitsValue_eq, digitsValue_eq, Nat.ofDigitChars_append, Nat.ofDigitChars_replicate_zero,
    Nat.mul_comm]
  rfl

theorem digitsValue_leading_zeros (zeros : Nat) (digits : List Char) :
    digitsValue (List.replicate zeros '0' ++ digits) = digitsValue digits := by
  rw [digitsValue_eq, digitsValue_eq, Nat.ofDigitChars_append, Nat.ofDigitChars_replicate_zero,
    Nat.mul_zero]

theorem toDigits_isDigit (n : Nat) : ∀ c ∈ Nat.toDigits 10 n, c.isDigit = true := fun _ member =>
  Nat.isDigit_of_mem_toDigits (by decide) (by decide) member

theorem toDigits_ne_nil (n : Nat) : Nat.toDigits 10 n ≠ [] :=
  List.ne_nil_of_length_pos Nat.length_toDigits_pos

end Digits

theorem takeSign_written (negative : Bool) {c : Char} (digit : c.isDigit = true)
    (text : List Char) :
    takeSign ((if negative then ['-'] else []) ++ c :: text) = (negative, c :: text) := by
  cases negative with
  | true => rfl
  | false =>
    rw [if_neg Bool.false_ne_true, List.nil_append]
    unfold takeSign
    split
    · next same =>
      cases same
      cases digit
    · next same =>
      cases same
      cases digit
    · rfl

theorem readInt?_toDigits (n : Nat) : readInt? (Nat.toDigits 10 n) = some (n : Int) ∧
    readInt? ('+' :: Nat.toDigits 10 n) = some (n : Int) ∧
    readInt? ('-' :: Nat.toDigits 10 n) = some (-(n : Int)) := by
  have all : (Nat.toDigits 10 n).all Char.isDigit = true :=
    List.all_eq_true.2 (toDigits_isDigit n)
  have value := digitsValue_toDigits n
  cases digits : Nat.toDigits 10 n with
  | nil => exact absurd digits (toDigits_ne_nil n)
  | cons c rest =>
    rw [digits] at all value
    have first : c.isDigit = true := List.all_eq_true.1 all c List.mem_cons_self
    have unsigned : takeSign (c :: rest) = (false, c :: rest) := takeSign_written false first rest
    have plus : takeSign ('+' :: c :: rest) = (false, c :: rest) := rfl
    have minus : takeSign ('-' :: c :: rest) = (true, c :: rest) := rfl
    simp [readInt?, unsigned, plus, minus, all, value]

namespace Numeral
variable {whole fraction rest : List Char} {exponent : Int}

def Ends (rest : List Char) : Prop := ∀ c, rest.head? = some c → c.isDigit = false ∧ c ≠ '.'

theorem span_digits {digits : List Char} (all : ∀ c ∈ digits, c.isDigit = true)
    (ends : ∀ c, rest.head? = some c → c.isDigit = false) :
    (digits ++ rest).span Char.isDigit = (digits, rest) := by
  have stop : rest.takeWhile Char.isDigit = [] ∧ rest.dropWhile Char.isDigit = rest := by
    cases rest with
    | nil => exact ⟨rfl, rfl⟩
    | cons c rest => simp [ends c rfl]
  rw [List.span_eq_takeWhile_dropWhile, List.takeWhile_append_of_pos all,
    List.dropWhile_append_of_pos all, stop.1, stop.2, List.append_nil]

theorem unsigned?_whole (nonempty : whole ≠ []) (all : ∀ c ∈ whole, c.isDigit = true)
    (ends : Ends rest) (read : exponentPart? rest = some exponent) :
    unsigned? (whole ++ rest) = some (digitsValue whole, exponent) := by
  have taken := span_digits all fun c first => (ends c first).1
  unfold unsigned?
  simp only [taken]
  cases rest with
  | nil => simp [nonempty, read]
  | cons c rest =>
    have other : c ≠ '.' := (ends c rfl).2
    simp [nonempty, read, other]

theorem unsigned?_point (nonempty : whole ≠ []) (inWhole : ∀ c ∈ whole, c.isDigit = true)
    (inFraction : ∀ c ∈ fraction, c.isDigit = true) (ends : Ends rest)
    (read : exponentPart? rest = some exponent) :
    unsigned? (whole ++ '.' :: (fraction ++ rest)) =
      some (digitsValue (whole ++ fraction), exponent - fraction.length) := by
  have taken : (whole ++ '.' :: (fraction ++ rest)).span Char.isDigit =
      (whole, '.' :: (fraction ++ rest)) := span_digits inWhole (by simp)
  have after := span_digits inFraction fun c first => (ends c first).1
  unfold unsigned?
  simp only [taken, after]
  simp [nonempty, read]

end Numeral

namespace Decimal

/-- The significant digits are all digits but the zeros at the end, and the exponent is that of
the first digit. -/
theorem significant_parts (d : Decimal) : ∃ zeros : Nat,
    Nat.toDigits 10 d.digits = d.significant.1 ++ List.replicate zeros '0' ∧
      d.significant.2 = d.exponent + d.significant.1.length + zeros - 1 := by
  have parts : (Nat.toDigits 10 d.digits).rdropWhile (· = '0') ++
      (Nat.toDigits 10 d.digits).rtakeWhile (· = '0') = Nat.toDigits 10 d.digits :=
    List.rdropWhile_append_rtakeWhile
  have ending : (Nat.toDigits 10 d.digits).rtakeWhile (· = '0') =
      List.replicate ((Nat.toDigits 10 d.digits).rtakeWhile (· = '0')).length '0' := by
    apply List.eq_replicate_of_mem
    intro c member
    simpa using List.mem_rtakeWhile_imp member
  have kept : d.significant.1 = (Nat.toDigits 10 d.digits).rdropWhile (· = '0') := rfl
  have length := congrArg List.length parts
  rw [List.length_append] at length
  refine ⟨((Nat.toDigits 10 d.digits).rtakeWhile (· = '0')).length, ?_, ?_⟩
  · rw [kept, ← ending, parts]
  · have places : d.significant.2 = d.exponent + (Nat.toDigits 10 d.digits).length - 1 := rfl
    rw [places, kept]
    omega

theorem significant_isDigit (d : Decimal) : ∀ c ∈ d.significant.1, c.isDigit = true := by
  obtain ⟨zeros, parts, _⟩ := d.significant_parts
  intro c member
  exact toDigits_isDigit _ c (parts ▸ List.mem_append_left _ member)

theorem significant_value (d : Decimal) : ∃ zeros : Nat,
    d.digits = digitsValue d.significant.1 * Nat.pow 10 zeros ∧
      d.exponent + zeros = d.significant.2 + 1 - d.significant.1.length := by
  obtain ⟨zeros, parts, places⟩ := d.significant_parts
  refine ⟨zeros, ?_, by omega⟩
  rw [← digitsValue_zeros, ← parts, digitsValue_toDigits]

theorem significant_ne_nil {d : Decimal} (positive : d.digits ≠ 0) : d.significant.1 ≠ [] := by
  obtain ⟨zeros, value, _⟩ := d.significant_value
  intro empty
  rw [empty] at value
  exact positive (value.trans (Nat.zero_mul _))

end Decimal
namespace Decimal
variable {digits : List Char} {exponent : Int}

/-- The text is that of a number without a sign that stands for `digits`, the first of them at
the place of the exponent. -/
def Spells (text digits : List Char) (exponent : Int) : Prop :=
  (∃ c rest, text = c :: rest ∧ c.isDigit = true) ∧
    ∃ value places, Numeral.unsigned? text = some (value, places) ∧
      ∀ negative, Double.ofDecimal? negative value places =
        Double.ofDecimal? negative (digitsValue digits) (exponent + 1 - digits.length)

theorem starts_digit (nonempty : digits ≠ []) (all : ∀ c ∈ digits, c.isDigit = true)
    (rest : List Char) : ∃ c more, digits ++ rest = c :: more ∧ c.isDigit = true := by
  cases digits with
  | nil => exact absurd rfl nonempty
  | cons c digits => exact ⟨c, digits ++ rest, rfl, all c List.mem_cons_self⟩

theorem zeros_isDigit (count : Nat) : ∀ c ∈ List.replicate count '0', c.isDigit = true := by
  intro c member
  rw [List.eq_of_mem_replicate member]
  rfl

theorem ends_nil : Numeral.Ends [] := by
  intro c first
  cases first

theorem isDigit_append {left right : List Char} (inLeft : ∀ c ∈ left, c.isDigit = true)
    (inRight : ∀ c ∈ right, c.isDigit = true) : ∀ c ∈ left ++ right, c.isDigit = true := by
  intro c member
  rcases List.mem_append.1 member with first | second
  · exact inLeft c first
  · exact inRight c second

theorem spells_point (zeros : Nat) {whole fraction : List Char} (first : whole ≠ [])
    (inWhole : ∀ c ∈ whole, c.isDigit = true) (inFraction : ∀ c ∈ fraction, c.isDigit = true)
    (value : digitsValue (whole ++ fraction) = digitsValue digits * Nat.pow 10 zeros)
    (places : -(fraction.length : Int) + zeros = exponent + 1 - digits.length) :
    Spells (whole ++ '.' :: fraction) digits exponent := by
  have read : Numeral.unsigned? (whole ++ '.' :: (fraction ++ [])) =
      some (digitsValue (whole ++ fraction), 0 - (fraction.length : Int)) :=
    Numeral.unsigned?_point first inWhole inFraction ends_nil rfl
  rw [List.append_nil] at read
  refine ⟨starts_digit first inWhole _, _, _, read, fun negative => ?_⟩
  rw [value, Double.ofDecimal?_zeros, ← places, Int.zero_sub]

section Formats
variable (nonempty : digits ≠ []) (all : ∀ c ∈ digits, c.isDigit = true)
include nonempty all

theorem spells_positional (exponent : Int) : Spells (positional digits exponent) digits exponent := by
  unfold positional
  split
  · next small =>
    have leading : ∀ c ∈ ['0'], c.isDigit = true := by simp
    refine spells_point 0 (List.cons_ne_nil '0' []) leading
      (isDigit_append (zeros_isDigit _) all) ?_ ?_
    · exact (digitsValue_leading_zeros (_ + 1) digits).trans (Nat.mul_one _).symm
    · rw [List.length_append, List.length_replicate]
      omega
  · next large =>
    by_cases fits : digits.length ≤ exponent.toNat + 1
    · have taken : digits.take (exponent.toNat + 1) = digits := List.take_of_length_le fits
      have left : digits.drop (exponent.toNat + 1) = [] := List.drop_of_length_le fits
      simp only [taken, left, List.isEmpty_nil, if_true]
      refine spells_point (exponent.toNat + 1 - digits.length + 1)
        (by simp [nonempty]) (isDigit_append all (zeros_isDigit _)) (by simp) ?_ ?_
      · rw [← digitsValue_zeros, List.replicate_succ', List.append_assoc]
      · rw [List.length_singleton]
        omega
    · have room : exponent.toNat + 1 - digits.length = 0 := by omega
      have some_left : (digits.drop (exponent.toNat + 1)).isEmpty = false := by
        rw [List.isEmpty_eq_false_iff, ← List.length_pos_iff, List.length_drop]
        omega
      simp only [room, some_left, List.replicate_zero, List.append_nil]
      refine spells_point 0 ?_ (fun c member => all c (List.mem_of_mem_take member))
        (fun c member => all c (List.mem_of_mem_drop member)) ?_ ?_
      · rw [← List.length_pos_iff, List.length_take]
        omega
      · rw [if_neg Bool.false_ne_true, List.take_append_drop]
        exact (Nat.mul_one _).symm
      · rw [if_neg Bool.false_ne_true, List.length_drop]
        omega

omit nonempty all in
theorem exponentPart?_written (exponent : Int) :
    Numeral.exponentPart? ('e' :: (if exponent < 0 then '-' else '+') ::
      Nat.toDigits 10 exponent.natAbs) = some exponent := by
  obtain ⟨_, plus, minus⟩ := readInt?_toDigits exponent.natAbs
  change readInt? _ = _
  split
  · rw [minus]
    congr 1
    omega
  · rw [plus]
    congr 1
    omega

theorem spells_scientific (exponent : Int) :
    Spells (scientific digits exponent) digits exponent := by
  have ends : ∀ rest, Numeral.Ends ('e' :: rest) := by
    intro rest c first
    cases first
    exact ⟨rfl, by decide⟩
  have read := exponentPart?_written exponent
  cases digits with
  | nil => exact absurd rfl nonempty
  | cons c rest =>
    have digit : c.isDigit = true := all c List.mem_cons_self
    have alone : ∀ other ∈ [c], other.isDigit = true := by simpa using digit
    cases rest with
    | nil =>
      refine ⟨⟨c, _, rfl, digit⟩, _, _, Numeral.unsigned?_whole (by simp) alone (ends _) read, ?_⟩
      intro negative
      simp
    | cons second rest =>
      have later : ∀ other ∈ second :: rest, other.isDigit = true :=
        fun other member => all other (List.mem_cons_of_mem _ member)
      refine ⟨⟨c, _, rfl, digit⟩, _, _,
        Numeral.unsigned?_point (by simp) alone later (ends _) read, ?_⟩
      intro negative
      have places : exponent - ((second :: rest).length : Int) =
          exponent + 1 - ((c :: second :: rest).length : Int) := by
        simp only [List.length_cons]
        omega
      rw [places]
      rfl

end Formats
end Decimal

theorem isUnboundedName_written (negative : Bool) {c : Char} (digit : c.isDigit = true)
    (text : List Char) : isUnboundedName ((if negative then ['-'] else []) ++ c :: text) = false := by
  have bounds := Char.isDigit_iff_toNat.1 digit
  have plain : ∀ n ≤ 57, 48 ≤ n →
      (Char.ofNat n).toLower ≠ 'i' ∧ (Char.ofNat n).toLower ≠ 'n' := by decide
  have letters := plain c.toNat bounds.2 bounds.1
  rw [Char.ofNat_toNat] at letters
  have named := takeSign_written negative digit text
  unfold isUnboundedName
  simp only [named, List.map_cons]
  simp [letters]

namespace Double

theorem read?_spelled {x : Double} {text digits : List Char} {exponent : Int}
    (spells : Decimal.Spells text digits exponent)
    (value : ofDecimal? x.negative (digitsValue digits) (exponent + 1 - digits.length) = some x) :
    read? ((if x.negative then ['-'] else []) ++ text) = some (some x) := by
  obtain ⟨⟨c, rest, rfl, digit⟩, digits', places, read, same⟩ := spells
  have named := isUnboundedName_written x.negative digit rest
  have split := takeSign_written x.negative digit rest
  unfold read? Numeral.read?
  simp [named, split, read, same, value]

theorem eq_zero_of_isZero {x : Double} (empty : x.isZero = true) : x = zero x.negative := by
  have nothing : x.mantissa = 0 := of_decide_eq_true empty
  have flat : x.scale = 0 := by
    rcases x.normal with flat | large
    · exact flat
    · rw [nothing] at large
      exact absurd large (by decide)
  cases x
  cases nothing
  cases flat
  rfl

theorem shortest_ne_zero {x : Double} (positive : x.isZero = false) : x.shortest.digits ≠ 0 := by
  intro nothing
  have chosen := ofDecimal?_shortest x
  rw [nothing] at chosen
  have same : zero x.negative = x := Option.some.inj chosen
  rw [← same] at positive
  cases positive

theorem read?_chars (format : FloatFormat) (x : Double) :
    read? (x.chars format) = some (some x) := by
  cases empty : x.isZero with
  | true =>
    have digits : ∀ c ∈ ['0'], c.isDigit = true := by simp
    have spells : Decimal.Spells ['0', '.', '0'] ['0'] 0 :=
      Decimal.spells_positional (List.cons_ne_nil '0' []) digits 0
    have text : x.chars format = (if x.negative then ['-'] else []) ++ ['0', '.', '0'] := by
      simp [chars, empty]
    rw [text]
    apply read?_spelled spells
    rw [eq_zero_of_isZero empty]
    rfl
  | false =>
    have chosen := ofDecimal?_shortest x
    have nonempty := Decimal.significant_ne_nil (shortest_ne_zero empty)
    have digits := x.shortest.significant_isDigit
    obtain ⟨zeros, value, places⟩ := x.shortest.significant_value
    rw [value, ofDecimal?_zeros, places] at chosen
    unfold chars
    simp only [empty, Bool.false_eq_true, if_false]
    by_cases near : format.lowest ≤ x.shortest.significant.2 ∧
        x.shortest.significant.2 ≤ format.highest
    · rw [if_pos near]
      exact read?_spelled (Decimal.spells_positional nonempty digits _) chosen
    · rw [if_neg near]
      exact read?_spelled (Decimal.spells_scientific nonempty digits _) chosen

end Double
end TwoPhase
