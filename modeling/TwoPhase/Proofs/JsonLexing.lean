import Mathlib.Data.List.TakeDrop
import Mathlib.Data.List.TakeWhile
import TwoPhase.Json.Printer
import TwoPhase.Json.Token

/-
Printed text is read token by token as it was written. Words and numbers end where a character
follows that cannot continue them, which is a comma, a colon or a bracket, or the end; strings
end at their own quote, because all others in them are escaped. Integers read back as they
are; whether a float does depends on its digits.
-/
namespace TwoPhase.Json

namespace NumberLiteral

theorem le_ofDigitChars (digits : List Char) (value : Nat) :
    value ≤ Nat.ofDigitChars 10 digits value := by
  induction digits generalizing value with
  | nil => exact Nat.le_refl _
  | cons digit digits ih =>
    rw [Nat.ofDigitChars_cons]
    exact Nat.le_trans (by omega) (ih _)

theorem gather_digits {digits : List Char} {value : Nat}
    (fits : Nat.ofDigitChars 10 digits value < Nat.pow 2 64) :
    gather value digits = (Nat.ofDigitChars 10 digits value, []) := by
  induction digits generalizing value with
  | nil => rfl
  | cons digit digits ih =>
    rw [Nat.ofDigitChars_cons, Nat.mul_comm] at fits ⊢
    have small := Nat.lt_of_le_of_lt (le_ofDigitChars digits _) fits
    unfold gather
    dsimp only
    rw [if_pos small, ih fits]

theorem toDigits_head {n : Nat} (positive : 0 < n) : (Nat.toDigits 10 n).head? ≠ some '0' := by
  induction n using Nat.strongRecOn with
  | ind n ih =>
    rcases Nat.lt_or_ge n 10 with small | large
    · rw [Nat.toDigits_of_lt_base small]
      intro zero
      have zero : n.digitChar = '0' := Option.some.inj zero
      rw [Nat.digitChar_eq_zero] at zero
      omega
    · have shorter := ih (n / 10) (by omega) (by omega)
      rw [Nat.toDigits_of_base_le (by decide) large]
      cases first : Nat.toDigits 10 (n / 10) with
      | nil =>
        have length := Nat.length_toDigits_pos (b := 10) (n := n / 10)
        rw [first] at length
        cases length
      | cons digit digits =>
        rw [first] at shorter
        exact shorter

theorem read?_digits {digits : List Char} (all : ∀ c ∈ digits, c.isDigit = true)
    (nonempty : digits ≠ []) (leading : digits.head? = some '0' → digits.length = 1) :
    read? digits = some ⟨false, digits, none, none⟩ ∧
      read? ('-' :: digits) = some ⟨true, digits, none, none⟩ := by
  have taken : digits.takeWhile Char.isDigit = digits := List.takeWhile_eq_self_iff.2 all
  have left : digits.dropWhile Char.isDigit = [] := List.dropWhile_eq_nil_iff.2 all
  constructor
  · -- Without a sign the text is matched as it is.
    have unsigned : ∀ rest, digits ≠ '-' :: rest := by
      intro rest same
      have digit := all '-' (same ▸ List.mem_cons_self)
      cases digit
    simpa [read?, taken, left, nonempty] using leading
  · simpa [read?, taken, left, nonempty] using leading

theorem read?_toDigits (n : Nat) :
    read? (Nat.toDigits 10 n) = some ⟨false, Nat.toDigits 10 n, none, none⟩ ∧
    read? ('-' :: Nat.toDigits 10 n) = some ⟨true, Nat.toDigits 10 n, none, none⟩ := by
  apply read?_digits
  · exact fun c member => Nat.isDigit_of_mem_toDigits (by decide) (by decide) member
  · exact List.ne_nil_of_length_pos Nat.length_toDigits_pos
  · intro zero
    cases n with
    | zero => rfl
    | succ n => exact absurd zero (toDigits_head (Nat.succ_pos n))

theorem scientific_toDigits {n : Nat} (negative : Bool) (fits : n < Nat.pow 2 64) :
    scientific ⟨negative, Nat.toDigits 10 n, none, none⟩ = (n, 0) := by
  have value : Nat.ofDigitChars 10 (Nat.toDigits 10 n) 0 = n := Nat.ofDigitChars_ten_toDigits
  have gathered : gather 0 (Nat.toDigits 10 n) = (n, []) := by
    rw [gather_digits (value.symm ▸ fits), value]
  simp [scientific, gathered, gather]

theorem value?_toDigits {n : Nat} (fits : n < Nat.pow 2 64) :
    value? ⟨false, Nat.toDigits 10 n, none, none⟩ = ofInt? n := by
  simp [value?, scientific_toDigits false fits]

theorem value?_neg_toDigits {n : Nat} (positive : 0 < n) (fits : n ≤ Nat.pow 2 63) :
    value? ⟨true, Nat.toDigits 10 n, none, none⟩ = ofInt? (-n) := by
  have wide : n < Nat.pow 2 64 := Nat.lt_of_le_of_lt fits (by decide)
  simp [value?, scientific_toDigits true wide, positive, fits]

end NumberLiteral

namespace Token

theorem isBare_of_isDigit {c : Char} (digit : c.isDigit = true) : isBare c = true := by
  unfold isBare Char.isAlphanum
  simp [digit]

theorem bare?_of_read? {word : List Char} {literal : NumberLiteral}
    (read : NumberLiteral.read? word = some literal)
    (numeric : (word.head?.all fun c => c.isDigit || c = '-') = true) :
    bare? word = literal.value? := by
  have words : word ≠ "null".toList ∧ word ≠ "true".toList ∧ word ≠ "false".toList := by
    refine ⟨?_, ?_, ?_⟩ <;> rintro rfl <;> exact absurd numeric (by decide)
  unfold bare?
  rw [if_neg words.1, if_neg words.2.1, if_neg words.2.2, read]
  rfl

theorem ofInt?_value (i : WideInt) : ofInt? i.value = some (.int i) := by
  unfold ofInt? WideInt.ofInt?
  rw [dif_pos ⟨i.lower, i.upper⟩]
  rfl

theorem toDigits_head_numeric (n : Nat) :
    ((Nat.toDigits 10 n).head?.all fun c => c.isDigit || c = '-') = true := by
  cases digits : Nat.toDigits 10 n with
  | nil => rfl
  | cons c rest =>
    have member : c ∈ Nat.toDigits 10 n := digits ▸ List.mem_cons_self
    have digit : c.isDigit = true := Nat.isDigit_of_mem_toDigits (by decide) (by decide) member
    simp [digit]

theorem int_text (i : WideInt) : i.text.toList =
    if 0 ≤ i.value then Nat.toDigits 10 i.value.toNat
    else '-' :: Nat.toDigits 10 (-i.value).toNat := by
  have shown : i.text = i.value.repr := rfl
  rw [shown, Int.repr_eq_if]
  split
  · exact Nat.toList_repr
  · rw [String.toList_append, Nat.toList_repr]
    rfl

theorem bare?_int (i : WideInt) : bare? i.text.toList = some (.int i) := by
  have lower := i.lower
  have upper := i.upper
  rw [int_text]
  split
  · next positive =>
    have fits : i.value.toNat < Nat.pow 2 64 := by omega
    have same : (i.value.toNat : Int) = i.value := Int.toNat_of_nonneg positive
    rw [bare?_of_read? (NumberLiteral.read?_toDigits _).1 (toDigits_head_numeric _),
      NumberLiteral.value?_toDigits fits, same, ofInt?_value]
  · next negative =>
    have positive : 0 < (-i.value).toNat := by omega
    have fits : (-i.value).toNat ≤ Nat.pow 2 63 := by omega
    have same : -((-i.value).toNat : Int) = i.value := by omega
    rw [bare?_of_read? (NumberLiteral.read?_toDigits _).2 rfl,
      NumberLiteral.value?_neg_toDigits positive fits, same, ofInt?_value]

theorem toDigits_bare (n : Nat) : ∀ c ∈ Nat.toDigits 10 n, isBare c = true := fun _ member =>
  isBare_of_isDigit (Nat.isDigit_of_mem_toDigits (by decide) (by decide) member)

theorem int_bare (i : WideInt) : ∀ c ∈ i.text.toList, isBare c = true := by
  rw [int_text]
  split
  · exact toDigits_bare _
  · intro c member
    rcases List.mem_cons.1 member with rfl | later
    · rfl
    · exact toDigits_bare _ c later

section Floats
variable {digits : List Char} {exponent : Int}

theorem positional_bare (all : ∀ c ∈ digits, isBare c = true) :
    ∀ c ∈ Decimal.positional digits exponent, isBare c = true := by
  have zeros : ∀ count, ∀ c ∈ List.replicate count '0', isBare c = true := by
    intro count c member
    rw [List.eq_of_mem_replicate member]
    rfl
  intro c member
  unfold Decimal.positional at member
  split at member
  · simp only [List.mem_cons, List.mem_append] at member
    rcases member with rfl | rfl | zero | digit
    · rfl
    · rfl
    · exact zeros _ c zero
    · exact all c digit
  · simp only [List.mem_append, List.mem_cons] at member
    rcases member with (digit | zero) | rfl | fraction
    · exact all c (List.mem_of_mem_take digit)
    · exact zeros _ c zero
    · rfl
    · split at fraction
      · rw [List.mem_singleton.1 fraction]
        rfl
      · exact all c (List.mem_of_mem_drop fraction)

theorem scientific_bare (all : ∀ c ∈ digits, isBare c = true) :
    ∀ c ∈ Decimal.scientific digits exponent, isBare c = true := by
  intro c member
  simp only [Decimal.scientific, List.mem_append, List.mem_cons] at member
  rcases member with mantissa | rfl | rfl | digit
  · split at mantissa
    · simp only [List.mem_cons] at mantissa
      rcases mantissa with rfl | rfl | second
      · exact all c List.mem_cons_self
      · rfl
      · exact all c (List.mem_cons_of_mem _ (List.mem_cons.2 second))
    · exact all c mantissa
  · rfl
  · split <;> rfl
  · exact toDigits_bare _ c digit

theorem significant_bare (d : Decimal) : ∀ c ∈ d.significant.1, isBare c = true := by
  intro c member
  simp only [Decimal.significant, List.mem_reverse] at member
  exact toDigits_bare _ c (List.mem_reverse.1 ((List.dropWhile_sublist _).subset member))

theorem chars_bare (format : FloatFormat) (x : Double) : ∀ c ∈ x.chars format, isBare c = true := by
  have signed : ∀ c ∈ (if x.negative then ['-'] else []), isBare c = true := by
    split <;> simp [isBare]
  have nothing : ∀ c ∈ ['0', '.', '0'], isBare c = true := List.all_eq_true.1 (by decide)
  intro c member
  simp only [Double.chars] at member
  split at member
  · rcases List.mem_append.1 member with sign | zero
    · exact signed c sign
    · exact nothing c zero
  · split at member
    · rcases List.mem_append.1 member with sign | number
      · exact signed c sign
      · exact positional_bare (significant_bare _) c number
    · rcases List.mem_append.1 member with sign | number
      · exact signed c sign
      · exact scientific_bare (significant_bare _) c number

end Floats

def Lexer.run (lexer : Lexer) (text : List Char) : Option (List Token) :=
  (text.foldlM Lexer.step? lexer).bind Lexer.finish?

namespace Lexer

theorem run_cons (lexer : Lexer) (c : Char) (rest : List Char) :
    lexer.run (c :: rest) = (lexer.step? c).bind (·.run rest) := by
  unfold run
  rw [List.foldlM_cons]
  cases lexer.step? c <;> rfl

end Lexer

/-- The text cannot continue a word or a number. -/
def Delimited (rest : List Char) : Prop := ∀ c, rest.head? = some c → isBare c = false

/-- Wherever a token may start, the text is read as the tokens, if what follows lets it end. -/
def Lexes (text : List Char) (tokens : List Token) : Prop :=
  ∀ before rest, Delimited rest →
    (Lexer.mk .between before).run (text ++ rest) =
      (Lexer.mk .between (tokens.reverse ++ before)).run rest

section Words
variable {word seen rest : List Char} {tokens : List Token} {value : Json}

theorem not_isBare_of_isBlank {c : Char} (blank : isBlank c = true) : isBare c = false := by
  simp only [isBlank, Bool.or_eq_true, decide_eq_true_eq] at blank
  rcases blank with ((rfl | rfl) | rfl) | rfl <;> rfl

theorem isMark_cases {c : Char} (mark : isMark c = true) :
    c = '[' ∨ c = ']' ∨ c = '\x7b' ∨ c = '\x7d' ∨ c = ',' ∨ c = ':' := by
  simpa only [isMark, Bool.or_eq_true, decide_eq_true_eq, or_assoc] using mark

theorem not_isBare_of_isMark {c : Char} (mark : isMark c = true) : isBare c = false := by
  rcases isMark_cases mark with rfl | rfl | rfl | rfl | rfl | rfl <;> rfl

theorem Lexer.startToken?_bare {c : Char} (bare : isBare c = true) :
    startToken? tokens c = some ⟨.bare [c], tokens⟩ := by
  have blank : isBlank c = false := by
    cases blank : isBlank c with
    | false => rfl
    | true => rw [not_isBare_of_isBlank blank] at bare; cases bare
  have mark : isMark c = false := by
    cases mark : isMark c with
    | false => rfl
    | true => rw [not_isBare_of_isMark mark] at bare; cases bare
  have quote : c ≠ '"' := by
    rintro rfl
    cases bare
  unfold startToken?
  simp [blank, mark, quote, bare]

theorem run_bare (all : ∀ c ∈ word, isBare c = true) :
    (Lexer.mk (.bare seen) tokens).run (word ++ rest) =
      (Lexer.mk (.bare (word.reverse ++ seen)) tokens).run rest := by
  induction word generalizing seen with
  | nil => rfl
  | cons c word ih =>
    have step : (Lexer.mk (.bare seen) tokens).step? c = some ⟨.bare (c :: seen), tokens⟩ := by
      unfold Lexer.step?
      dsimp only
      rw [if_pos (all c List.mem_cons_self)]
    rw [List.cons_append, Lexer.run_cons, step, Option.bind_some,
      ih fun other member => all other (List.mem_cons_of_mem _ member), List.reverse_cons,
      List.append_assoc]
    rfl

theorem run_bare_delimited (read : bare? seen.reverse = some value) (delimited : Delimited rest) :
    (Lexer.mk (.bare seen) tokens).run rest =
      (Lexer.mk .between (.atom value :: tokens)).run rest := by
  cases rest with
  | nil =>
    unfold Lexer.run Lexer.finish?
    simp [read]
  | cons c rest =>
    have step : (Lexer.mk (.bare seen) tokens).step? c =
        (Lexer.mk .between (.atom value :: tokens)).step? c := by
      unfold Lexer.step?
      dsimp only
      rw [if_neg (Bool.eq_false_iff.1 (delimited c rfl)), read]
      rfl
    rw [Lexer.run_cons, step, ← Lexer.run_cons]

theorem lexes_bare (all : ∀ c ∈ word, isBare c = true) (read : bare? word = some value) :
    Lexes word [.atom value] := by
  intro before rest delimited
  cases word with
  | nil => cases read
  | cons c word =>
    have step : (Lexer.mk .between before).step? c = some ⟨.bare [c], before⟩ :=
      Lexer.startToken?_bare (all c List.mem_cons_self)
    have read' : bare? (word.reverse ++ [c]).reverse = some value := by
      simpa using read
    rw [List.cons_append, Lexer.run_cons, step, Option.bind_some,
      run_bare fun other member => all other (List.mem_cons_of_mem _ member),
      run_bare_delimited read' delimited]
    rfl

end Words

section Marks
variable {c : Char} {tokens : List Token}

theorem run_mark (mark : isMark c = true) (rest : List Char) :
    (Lexer.mk .between tokens).run (c :: rest) =
      (Lexer.mk .between (.mark c :: tokens)).run rest := by
  have blank : isBlank c = false := by
    rcases isMark_cases mark with rfl | rfl | rfl | rfl | rfl | rfl <;> rfl
  have step : (Lexer.mk .between tokens).step? c = some ⟨.between, .mark c :: tokens⟩ := by
    change Lexer.startToken? tokens c = _
    unfold Lexer.startToken?
    simp [blank, mark]
  rw [Lexer.run_cons, step, Option.bind_some]

theorem delimited_of_isMark (mark : isMark c = true) (rest : List Char) :
    Delimited (c :: rest) := by
  intro other first
  cases first
  exact not_isBare_of_isMark mark

end Marks

section Strings
variable {tokens : List Token} {seen : List Char}

theorem readBase?_control {n : Nat} (control : n < 0x20) :
    readBase? 16 ['0', '0', hexDigit (n / 16)] = some (n / 16) ∧
      readBase? 16 ['0', '0', hexDigit (n / 16), hexDigit n] = some n := by
  have all : ∀ n < 0x20, readBase? 16 ['0', '0', hexDigit (n / 16)] = some (n / 16) ∧
      readBase? 16 ['0', '0', hexDigit (n / 16), hexDigit n] = some n := by decide
  exact all n control

theorem unit?_control {n : Nat} (control : n < 0x20) :
    unit? seen none n = some (.text (Char.ofNat n :: seen)) := by
  have high : isHigh n = false := by
    simp only [isHigh, Bool.and_eq_false_iff, decide_eq_false_iff_not]
    omega
  have low : isLow n = false := by
    simp only [isLow, Bool.and_eq_false_iff, decide_eq_false_iff_not]
    omega
  simp [unit?, high, low]

theorem run_control {c : Char} (control : c.toNat < 0x20) (rest : List Char) :
    (Lexer.mk (.text seen) tokens).run
        ('\\' :: 'u' :: '0' :: '0' :: hexDigit (c.toNat / 16) :: hexDigit c.toNat :: rest) =
      (Lexer.mk (.text (c :: seen)) tokens).run rest := by
  have digits := readBase?_control control
  have third : (Lexer.mk (.unit seen none ['0', '0']) tokens).step? (hexDigit (c.toNat / 16)) =
      some ⟨.unit seen none ['0', '0', hexDigit (c.toNat / 16)], tokens⟩ := by
    simp [Lexer.step?, digits.1]
  have fourth : (Lexer.mk (.unit seen none ['0', '0', hexDigit (c.toNat / 16)]) tokens).step?
      (hexDigit c.toNat) = some ⟨.text (c :: seen), tokens⟩ := by
    simp [Lexer.step?, digits.2, unit?_control control]
  have start : (Lexer.mk (.text seen) tokens).run
      ('\\' :: 'u' :: '0' :: '0' :: hexDigit (c.toNat / 16) :: hexDigit c.toNat :: rest) =
      (Lexer.mk (.unit seen none ['0', '0']) tokens).run
        (hexDigit (c.toNat / 16) :: hexDigit c.toNat :: rest) := rfl
  rw [start, Lexer.run_cons, third, Option.bind_some, Lexer.run_cons, fourth, Option.bind_some]

theorem run_escaped (c : Char) (rest : List Char) :
    (Lexer.mk (.text seen) tokens).run (escapeChar c ++ rest) =
      (Lexer.mk (.text (c :: seen)) tokens).run rest := by
  unfold escapeChar
  split
  · next same => subst same; rfl
  split
  · next same => subst same; rfl
  split
  · next same => subst same; rfl
  split
  · next same => subst same; rfl
  split
  · next same => subst same; rfl
  split
  · next same => subst same; rfl
  split
  · next same => subst same; rfl
  split
  · next control => exact run_control control rest
  · next quote slash _ _ _ _ _ plain =>
    have step : (Lexer.mk (.text seen) tokens).step? c = some ⟨.text (c :: seen), tokens⟩ := by
      simp [Lexer.step?, quote, slash, plain]
    rw [List.cons_append, Lexer.run_cons, step]
    rfl

theorem run_quoted (text : String) (rest : List Char) :
    (Lexer.mk .between tokens).run ((quoted text).toList ++ rest) =
      (Lexer.mk .between (.atom (.str text) :: tokens)).run rest := by
  have inside : ∀ (chars seen rest : List Char),
      (Lexer.mk (.text seen) tokens).run (chars.flatMap escapeChar ++ rest) =
        (Lexer.mk (.text (chars.reverse ++ seen)) tokens).run rest := by
    intro chars
    induction chars with
    | nil => exact fun _ _ => rfl
    | cons c chars ih =>
      intro seen rest
      rw [List.flatMap_cons, List.append_assoc, run_escaped, ih, List.reverse_cons,
        List.append_assoc]
      rfl
  have opened : (Lexer.mk .between tokens).step? '"' = some ⟨.text [], tokens⟩ := rfl
  have closed : (Lexer.mk (.text (text.toList.reverse ++ [])) tokens).step? '"' =
      some ⟨.between, .atom (.str text) :: tokens⟩ := by
    simp [Lexer.step?]
  rw [quoted, String.toList_ofList, List.cons_append, List.append_assoc, Lexer.run_cons, opened,
    Option.bind_some, inside, List.singleton_append, Lexer.run_cons, closed, Option.bind_some]

end Strings

end Token
end TwoPhase.Json
