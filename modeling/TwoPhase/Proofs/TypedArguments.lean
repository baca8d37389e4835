import TwoPhase.Proofs.JsonLexing
import TwoPhase.Proofs.Numerals
import TwoPhase.Proofs.PublishedNames
import TwoPhase.Quotes
import TwoPhase.Variable.Coercion

/-
One declaration on both sides of an include. The page declares a variable and publishes it
with the value itself in the argument's place; the fragment declares the text of the value.
The two agree for every value of the declared type, except that the integers past 64 signed
bits, which are of type int, are not read back from their texts.
-/
namespace TwoPhase

section Trimming

theorem trimWhere_eq_self {α : Type} {kind : α → Bool} {items : List α}
    (free : ∀ a ∈ items, kind a = false) : trimWhere kind items = items := by
  have kept : ∀ list : List α, (∀ a ∈ list, kind a = false) → list.dropWhile kind = list := by
    intro list plain
    cases list with
    | nil => rfl
    | cons a rest => rw [List.dropWhile_cons_of_neg (by simp [plain a List.mem_cons_self])]
  unfold trimWhere
  rw [kept items free, kept _ fun a member => free a (List.mem_reverse.1 member),
    List.reverse_reverse]

theorem not_isBare_of_blank {c : Char} (blank : isBlank c = true) : Json.Token.isBare c = false := by
  have low : ∀ k < 5, Json.Token.isBare (Char.ofNat (0x09 + k)) = false := by decide
  have spaces : ∀ k < 11, Json.Token.isBare (Char.ofNat (0x2000 + k)) = false := by decide
  have others : ∀ n ∈ [0x20, 0x85, 0xa0, 0x1680, 0x2028, 0x2029, 0x202f, 0x205f, 0x3000],
      Json.Token.isBare (Char.ofNat n) = false := by decide
  have which : (0x09 ≤ c.toNat ∧ c.toNat - 0x09 < 5) ∨ (0x2000 ≤ c.toNat ∧ c.toNat - 0x2000 < 11) ∨
      c.toNat ∈ [0x20, 0x85, 0xa0, 0x1680, 0x2028, 0x2029, 0x202f, 0x205f, 0x3000] := by
    simp only [isBlank, Bool.or_eq_true, Bool.and_eq_true, decide_eq_true_eq] at blank
    simp only [List.mem_cons, List.not_mem_nil, or_false]
    omega
  rw [← Char.ofNat_toNat c]
  rcases which with ⟨above, near⟩ | ⟨above, near⟩ | member
  · rw [← Nat.add_sub_cancel' above]
    exact low _ near
  · rw [← Nat.add_sub_cancel' above]
    exact spaces _ near
  · exact others _ member

theorem trimBlank_bare {text : List Char} (bare : ∀ c ∈ text, Json.Token.isBare c = true) :
    trimBlank text = text := by
  apply trimWhere_eq_self
  intro c member
  cases blank : isBlank c with
  | false => rfl
  | true =>
    have other := not_isBare_of_blank blank
    rw [bare c member] at other
    cases other

end Trimming

def Json.fitsSigned : Json → Bool
  | .int i => i.isSigned
  | _ => true

namespace ArgType
variable {type : ArgType} {x : Json}

theorem readInt?_text (i : WideInt) : readInt? i.text.toList = some i.value := by
  rw [Json.Token.int_text]
  split
  · next positive => rw [(readInt?_toDigits _).1, Int.toNat_of_nonneg positive]
  · next negative =>
    rw [(readInt?_toDigits _).2.2]
    congr 1
    omega

theorem readSigned?_text (i : WideInt) :
    readSigned? i.text = if i.isSigned = true then some (.int i) else none := by
  have same : (-(Nat.pow 2 63 : Int) ≤ i.value ∧ i.value < Nat.pow 2 63) ↔ i.isSigned = true := by
    rw [WideInt.isSigned, decide_eq_true_iff, and_iff_right i.lower]
  unfold readSigned?
  rw [trimBlank_bare (Json.Token.int_bare i), readInt?_text, Option.bind_some,
    Json.Token.ofInt?_value]
  simp only [same]

theorem readFloat?_text (x : Double) : readFloat? (Json.float x).text = some (.float x) := by
  unfold readFloat?
  rw [Json.text, String.toList_ofList, trimBlank_bare (Json.Token.chars_bare _ x),
    Double.read?_chars]
  rfl

theorem coerce_eq_ok_iff {value : Json} : type.coerce value = .ok x ↔ type.coerce? value = some x := by
  unfold coerce
  cases type.coerce? value with
  | none => exact iff_of_false (fun same => nomatch same) (fun same => nomatch same)
  | some coerced => simp

/-- The values of a type, and null for the numbers that are no finite float. -/
inductive Answers : ArgType → Json → Prop where
  | int (i : WideInt) : Answers int (.int i)
  | float (d : Double) : Answers float (.float d)
  | unbounded : Answers float .null
  | str (s : String) : Answers str (.str s)
  | bool (b : Bool) : Answers bool (.bool b)

theorem ofFloat_answers (d : Option Double) : Answers float (.ofFloat d) := by
  cases d with
  | none => exact .unbounded
  | some d => exact .float d

theorem readSigned?_answers {s : String} (read : readSigned? s = some x) : Answers int x := by
  obtain ⟨i, _, fits⟩ := Option.bind_eq_some_iff.1 read
  split at fits
  · obtain ⟨wide, _, rfl⟩ := Option.map_eq_some_iff.1 fits
    exact .int wide
  · cases fits

theorem readFloat?_answers {s : String} (read : readFloat? s = some x) : Answers float x := by
  obtain ⟨d, _, rfl⟩ := Option.map_eq_some_iff.1 read
  exact ofFloat_answers d

theorem coerce?_answers {value : Json} (coerced : type.coerce? value = some x) :
    Answers type x := by
  cases type with
  | int =>
    cases value with
    | int i => exact Option.some.inj coerced ▸ .int i
    | float d => exact Option.some.inj coerced ▸ .int _
    | str s => exact readSigned?_answers coerced
    | bool b => exact Option.some.inj coerced ▸ .int _
    | _ => cases coerced
  | float =>
    cases value with
    | int i => exact Option.some.inj coerced ▸ ofFloat_answers _
    | float d => exact Option.some.inj coerced ▸ .float d
    | str s => exact readFloat?_answers coerced
    | bool b => exact Option.some.inj coerced ▸ ofFloat_answers _
    | _ => cases coerced
  | str =>
    cases value with
    | null | arr | obj => cases coerced
    | _ => exact Option.some.inj coerced ▸ .str _
  | bool => cases value <;> exact Option.some.inj coerced ▸ .bool _

theorem coerce?_valueText (typed : type.coerce? x = some x) (shown : Directive.valueText x ≠ "") :
    type.coerce? (.str (Directive.valueText x)) = some x ∧ x.fitsSigned = true ∨
      type.coerce? (.str (Directive.valueText x)) = none ∧ x.fitsSigned = false := by
  cases coerce?_answers typed with
  | int i =>
    change readSigned? i.text = _ ∧ i.isSigned = true ∨ readSigned? i.text = _ ∧ i.isSigned = false
    rw [readSigned?_text]
    cases fits : i.isSigned with
    | true => exact Or.inl ⟨rfl, rfl⟩
    | false => exact Or.inr ⟨rfl, rfl⟩
  | float d => exact Or.inl ⟨readFloat?_text d, rfl⟩
  | unbounded => exact absurd rfl shown
  | str s => exact Or.inl ⟨rfl, rfl⟩
  | bool b =>
    cases b with
    | false => exact absurd rfl shown
    | true => exact Or.inl ⟨rfl, rfl⟩

end ArgType

theorem Arg.expectAs_valueText {type : ArgType} {x : Json} (typed : type.coerce x = .ok x)
    (shown : Directive.valueText x ≠ "") :
    (str (Directive.valueText x)).expectAs type = .ok (.value x) ∧ x.fitsSigned = true ∨
      (∃ failure, (str (Directive.valueText x)).expectAs type = .error failure) ∧
        x.fitsSigned = false := by
  unfold str expectAs ArgType.coerce
  rcases ArgType.coerce?_valueText (ArgType.coerce_eq_ok_iff.1 typed) shown with
    ⟨read, fits⟩ | ⟨refused, past⟩
  · simp only [read]
    exact Or.inl ⟨rfl, fits⟩
  · simp only [refused]
    exact Or.inr ⟨⟨_, rfl⟩, past⟩

namespace Variable

def addArgument (v : Variable) (slot : Option String) (arg : Arg) : Variable :=
  slot.elim (v.addPositional arg) fun name => v.setNamed name arg

def declare (v : Variable) (slot : Option String) (type : ArgType) (arg : Arg) :
    Except Failure Variable :=
  (arg.expectAs type).map (v.addArgument slot)

end Variable

namespace Resolution
variable (state : Resolution)

/-- A variable that waits for a value is published as the one that was declared with the value. -/
theorem attempt_addArgument {target : String} {x : Json} (known : state.value? target = some x)
    (v : Variable) (slot : Option String) :
    (state.attempt (v.addArgument slot (.expect target))).declared =
      (state.attempt v).declared.addArgument slot (.value x) := by
  have given : (state.substituteArg (.expect target)).1 = .value x := by simp [substituteArg, known]
  have waits : (v.addArgument slot (.expect target)).isConcrete ≠ true := by
    intro concrete
    have none := Variable.isConcrete_iff.1 concrete
    have member : Arg.expect target ∈ (v.addArgument slot (.expect target)).arguments := by
      cases slot with
      | none => simp [Variable.addArgument, Variable.addPositional, Variable.ofParts, Variable.arguments]
      | some name =>
        exact List.mem_append_right _ (List.mem_map.2
          ⟨_, Entries.mem_insert_self name (.expect target) v.named, rfl⟩)
    have listed := Variable.mem_expectations.2 (Or.inl member)
    rw [none] at listed
    cases listed
  obtain ⟨path, positional, named⟩ := state.attempt_declared_arguments v
  rw [state.attempt_declared_of_waiting waits]
  cases slot with
  | none =>
    change Variable.ofParts v.path ((v.positional ++ [Arg.expect target]).map _) (v.named.map _) =
      .ofParts (state.attempt v).declared.path ((state.attempt v).declared.positional ++ [.value x])
        (state.attempt v).declared.named
    rw [path, positional, named, List.map_append, List.map_singleton, given]
  | some name =>
    change Variable.ofParts v.path (v.positional.map _)
        ((Entries.insert name (.expect target) v.named).map _) =
      .ofParts (state.attempt v).declared.path (state.attempt v).declared.positional
        (Entries.insert name (.value x) (state.attempt v).declared.named)
    rw [path, positional, named, Entries.map_insert fun arg => (state.substituteArg arg).1, given]

end Resolution

/-- A page that declares a variable with the eventual value of another, and a fragment that declares
it with the text of the value, mean the same variable, unless the value is an integer past 64
signed bits: the fragment refuses the text of such a one. -/
theorem declared_alike_iff {type : ArgType} {x : Json} (typed : type.coerce x = .ok x)
    (shown : Directive.valueText x ≠ "") :
    ((Arg.str (Directive.valueText x)).expectAs type = .ok (.value x) ↔ x.fitsSigned = true) ∧
      ∀ (state : Resolution) (v : Variable), state.value? v.identifier = some x →
        ∀ (base : Variable) (slot : Option String), ∃ page,
          base.declare slot type (.nested v) = .ok page ∧
            ((state.attempt base).declared.declare slot type (.str (Directive.valueText x)) =
                .ok (state.attempt page).declared ↔ x.fitsSigned = true) := by
  rcases Arg.expectAs_valueText typed shown with ⟨given, fits⟩ | ⟨⟨failure, refused⟩, past⟩
  · refine ⟨iff_of_true given fits, fun state v known base slot => ⟨_, rfl, ?_⟩⟩
    rw [state.attempt_addArgument known, Variable.declare, given]
    exact iff_of_true rfl fits
  · rw [past]
    refine ⟨iff_of_false (fun given => ?_) Bool.false_ne_true, fun state v known base slot =>
      ⟨_, rfl, iff_of_false (fun declared => ?_) Bool.false_ne_true⟩⟩
    · rw [refused] at given
      cases given
    · rw [Variable.declare, refused] at declared
      cases declared

namespace Quotes

def three : Json := .int ⟨3, by decide, by decide⟩

def counted : Resolution where
  table := NameMap.empty.insert count.identifier three

end Quotes

theorem quotes_declared_alike : ∃ page,
    (Variable.ofPath Quotes.pickPath).declare (some "limit") .int (.nested Quotes.count) = .ok page ∧
      (Quotes.counted.attempt (.ofPath Quotes.pickPath)).declared.declare (some "limit") .int
        (.str "3") = .ok (Quotes.counted.attempt page).declared := by
  have typed : ArgType.int.coerce Quotes.three = .ok Quotes.three := rfl
  have known : Quotes.counted.value? Quotes.count.identifier = some Quotes.three := by
    have held : Quotes.counted.table.get? Quotes.count.identifier = some Quotes.three := by
      rw [Quotes.counted, NameMap.get?_insert, if_pos rfl]
    rw [Resolution.value?, held, Option.some_or]
  obtain ⟨_, alike⟩ := declared_alike_iff typed (by decide)
  obtain ⟨page, declared, same⟩ := alike _ _ known (.ofPath Quotes.pickPath) (some "limit")
  exact ⟨page, declared, same.2 rfl⟩

theorem unsigned_text_refused : ∃ x : Json,
    ArgType.int.coerce x = .ok x ∧ Directive.valueText x ≠ "" ∧
      (Arg.str (Directive.valueText x)).expectAs .int ≠ .ok (.value x) := by
  refine ⟨.int ⟨Nat.pow 2 63, by decide, by decide⟩, rfl, by decide, fun read => ?_⟩
  cases read

end TwoPhase
