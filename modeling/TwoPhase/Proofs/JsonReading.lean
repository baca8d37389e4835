import TwoPhase.Json.Reader
import TwoPhase.Proofs.JsonLexing

/-
A value is read back from its text. The text is read as the tokens of the value, by induction on
the value; from these the reader builds the value inside whatever frames are open, as long as
no more are opened than it allows. Objects come back with their fields in order, so they must have
been in order; the reader takes part of the digits of a float, so floats must be known to read back.
-/
namespace TwoPhase

namespace Json

theorem value_induction {motive : Json → Prop} (null : motive .null)
    (bool : ∀ value, motive (.bool value)) (int : ∀ value, motive (.int value))
    (float : ∀ value, motive (.float value)) (str : ∀ value, motive (.str value))
    (arr : ∀ items, (∀ item ∈ items, motive item) → motive (.arr items))
    (obj : ∀ fields, (∀ field ∈ fields, motive field.2) → motive (.obj fields)) :
    ∀ value, motive value := by
  intro value
  refine Json.rec (motive_1 := motive) (motive_2 := fun items => ∀ item ∈ items, motive item)
    (motive_3 := fun fields => ∀ field ∈ fields, motive field.2)
    (motive_4 := fun field => motive field.2) null bool int float str arr obj ?_ ?_ ?_ ?_ ?_ value
  · simp
  · intro first rest own later item member
    rcases List.mem_cons.1 member with rfl | inside
    · exact own
    · exact later item inside
  · simp
  · intro first rest own later field member
    rcases List.mem_cons.1 member with rfl | inside
    · exact own
    · exact later field inside
  · exact fun name value own => own

mutual
def depth : Json → Nat
  | arr items => itemsDepth items + 1
  | obj fields => fieldsDepth fields + 1
  | _ => 0
def itemsDepth : List Json → Nat
  | [] => 0
  | item :: rest => max item.depth (itemsDepth rest)
def fieldsDepth : List (String × Json) → Nat
  | [] => 0
  | (_, value) :: rest => max value.depth (fieldsDepth rest)
end

mutual
def tokens : Json → List Token
  | arr items => .mark '[' :: (itemsTokens items ++ [.mark ']'])
  | obj fields => .mark '\x7b' :: (fieldsTokens fields ++ [.mark '\x7d'])
  | value => [.atom value]
def itemsTokens : List Json → List Token
  | [] => []
  | [last] => last.tokens
  | item :: rest => item.tokens ++ .mark ',' :: itemsTokens rest
def fieldsTokens : List (String × Json) → List Token
  | [] => []
  | [(name, last)] => .atom (.str name) :: .mark ':' :: last.tokens
  | (name, value) :: rest =>
    .atom (.str name) :: .mark ':' :: (value.tokens ++ .mark ',' :: fieldsTokens rest)
end

mutual
/-- What printing keeps: fields in order, and floats whose digits read back. -/
def Faithful : Json → Prop
  | float x => parse? (float x).text = some (float x)
  | arr items => ItemsFaithful items
  | obj fields => Entries.Ordered fields ∧ FieldsFaithful fields
  | _ => True
def ItemsFaithful : List Json → Prop
  | [] => True
  | item :: rest => item.Faithful ∧ ItemsFaithful rest
def FieldsFaithful : List (String × Json) → Prop
  | [] => True
  | (_, value) :: rest => value.Faithful ∧ FieldsFaithful rest
end

theorem itemsFaithful_iff {items : List Json} :
    ItemsFaithful items ↔ ∀ item ∈ items, item.Faithful := by
  induction items with
  | nil => simp [ItemsFaithful]
  | cons item rest ih => simp [ItemsFaithful, ih]

theorem fieldsFaithful_iff {fields : List (String × Json)} :
    FieldsFaithful fields ↔ ∀ field ∈ fields, field.2.Faithful := by
  induction fields with
  | nil => simp [FieldsFaithful]
  | cons field rest ih => simp [FieldsFaithful, ih]

namespace Token

section Lexing
variable {left right : List Char} {first second : List Token} {c : Char}

theorem Lexes.nil : Lexes [] [] := fun _ _ _ => rfl

theorem Lexes.mark (mark : isMark c = true) (later : Lexes right second) :
    Lexes (c :: right) (.mark c :: second) := by
  intro before rest delimited
  rw [List.cons_append, run_mark mark, later _ rest delimited]
  simp

theorem Lexes.join (former : Lexes left first) (mark : isMark c = true)
    (later : Lexes right second) :
    Lexes (left ++ c :: right) (first ++ .mark c :: second) := by
  intro before rest delimited
  have behind := Lexes.mark mark later (first.reverse ++ before) rest delimited
  rw [List.cons_append] at behind
  rw [List.append_assoc, List.cons_append, former before _ (delimited_of_isMark mark _), behind]
  simp

theorem lexes_quoted (text : String) : Lexes (quoted text).toList [.atom (.str text)] :=
  fun _ rest _ => run_quoted text rest

theorem parse?_bare {c : Char} {word : List Char} (all : ∀ other ∈ c :: word, isBare other = true) :
    parse? (String.ofList (c :: word)) = bare? (c :: word) := by
  have lexed : ofChars? (c :: word) = (bare? (c :: word)).map fun value => [.atom value] := by
    have step : (Lexer.mk .between []).step? c = some ⟨.bare [c], []⟩ :=
      Lexer.startToken?_bare (all c List.mem_cons_self)
    have inside : (Lexer.mk (.bare [c]) []).run (word ++ []) = _ :=
      run_bare fun other member => all other (List.mem_cons_of_mem _ member)
    change (Lexer.mk .between []).run (c :: word) = _
    rw [List.append_nil] at inside
    rw [Lexer.run_cons, step, Option.bind_some, inside]
    simp [Lexer.run, Lexer.finish?]
  unfold parse?
  rw [String.toList_ofList, lexed]
  cases bare? (c :: word) <;> rfl

theorem lexes_float {x : Double} (faithful : (Json.float x).Faithful) :
    Lexes (Json.float x).text.toList [.atom (.float x)] := by
  have read : parse? (String.ofList (x.chars floatFormat)) = some (.float x) := faithful
  have all := chars_bare floatFormat x
  have text : (Json.float x).text.toList = x.chars floatFormat := String.toList_ofList
  rw [text]
  cases chars : x.chars floatFormat with
  | nil =>
    rw [chars] at read
    cases read
  | cons c word =>
    rw [chars] at read all
    rw [parse?_bare all] at read
    exact lexes_bare all read

theorem lexes_items {items : List Json}
    (each : ∀ item ∈ items, Lexes item.text.toList item.tokens) :
    Lexes (itemsText items).toList (itemsTokens items) := by
  induction items with
  | nil => exact .nil
  | cons item rest ih =>
    have own := each item List.mem_cons_self
    have later := ih fun other member => each other (List.mem_cons_of_mem _ member)
    cases rest with
    | nil => exact own
    | cons next rest =>
      rw [itemsText, String.toList_append, String.toList_append, List.append_assoc]
      · exact own.join rfl later
      · simp

theorem lexes_fields {fields : List (String × Json)}
    (each : ∀ field ∈ fields, Lexes field.2.text.toList field.2.tokens) :
    Lexes (fieldsText fields).toList (fieldsTokens fields) := by
  induction fields with
  | nil => exact .nil
  | cons field rest ih =>
    obtain ⟨name, value⟩ := field
    have own := each (name, value) List.mem_cons_self
    have later := ih fun other member => each other (List.mem_cons_of_mem _ member)
    cases rest with
    | nil =>
      rw [fieldsText, String.toList_append, String.toList_append, List.append_assoc]
      exact (lexes_quoted name).join rfl own
    | cons next rest =>
      rw [fieldsText]
      · simp only [String.toList_append, List.append_assoc]
        exact (lexes_quoted name).join rfl (own.join rfl later)
      · simp

theorem lexes_text {value : Json} (faithful : value.Faithful) :
    Lexes value.text.toList value.tokens := by
  induction value using value_induction with
  | null => exact lexes_bare (List.all_eq_true.1 rfl) rfl
  | bool value =>
    cases value
    · exact lexes_bare (List.all_eq_true.1 rfl) rfl
    · exact lexes_bare (List.all_eq_true.1 rfl) rfl
  | int i => exact lexes_bare (int_bare i) (bare?_int i)
  | float x => exact lexes_float faithful
  | str text => exact lexes_quoted text
  | arr items ih =>
    have inside := lexes_items fun item member =>
      ih item member (itemsFaithful_iff.1 faithful item member)
    rw [text, String.toList_append, String.toList_append, List.append_assoc]
    exact Lexes.mark rfl (inside.join rfl .nil)
  | obj fields ih =>
    have inside := lexes_fields fun field member =>
      ih field member (fieldsFaithful_iff.1 faithful.2 field member)
    rw [text, String.toList_append, String.toList_append, List.append_assoc]
    exact Lexes.mark rfl (inside.join rfl .nil)

end Lexing

theorem ofChars?_text {value : Json} (faithful : value.Faithful) :
    ofChars? value.text.toList = some value.tokens := by
  have whole := lexes_text faithful [] [] (by simp [Delimited])
  rw [List.append_nil, List.append_nil] at whole
  refine whole.trans ?_
  simp [Lexer.run, Lexer.finish?]

end Token

namespace Reader

def readAll? (reader : Reader) (tokens : List Token) : Option Reader := tokens.foldlM step? reader

theorem readAll?_cons {reader next : Reader} {token : Token}
    (stepped : reader.step? token = some next) (rest : List Token) :
    reader.readAll? (token :: rest) = next.readAll? rest := by
  unfold readAll?
  rw [List.foldlM_cons, stepped]
  rfl

/-- Where a value is expected, the tokens hand it to the innermost frame. -/
def Delivers (frames : List Frame) (value : Json) : Prop :=
  ∀ rest, (Reader.mk frames .value).readAll? (value.tokens ++ rest) =
    (deliver frames value).readAll? rest

theorem readAll?_first (frames : List Frame) {token : Token} (other : token ≠ .mark ']')
    (rest : List Token) : (Reader.mk frames .valueOrClose).readAll? (token :: rest) =
      (Reader.mk frames .value).readAll? (token :: rest) := by
  have same : (Reader.mk frames .valueOrClose).step? token =
      (Reader.mk frames .value).step? token := by
    cases token with
    | atom value => rfl
    | mark c =>
      have apart : c ≠ ']' := fun same => other (same ▸ rfl)
      simp [step?]
  unfold readAll?
  rw [List.foldlM_cons, List.foldlM_cons, same]

theorem tokens_head (value : Json) :
    ∃ token rest, value.tokens = token :: rest ∧ token ≠ .mark ']' := by
  cases value <;> exact ⟨_, _, rfl, by simp⟩

theorem itemsTokens_head {items : List Json} (nonempty : items ≠ []) :
    ∃ token rest, itemsTokens items = token :: rest ∧ token ≠ .mark ']' := by
  cases items with
  | nil => exact absurd rfl nonempty
  | cons item rest =>
    obtain ⟨token, later, tokens, other⟩ := tokens_head item
    cases rest with
    | nil => exact ⟨token, later, tokens, other⟩
    | cons next rest =>
      refine ⟨token, later ++ .mark ',' :: itemsTokens (next :: rest), ?_, other⟩
      rw [itemsTokens, tokens]
      · rfl
      · simp

theorem readAll?_firstName (frames : List Frame) (value : Json) (rest : List Token) :
    (Reader.mk frames .nameOrClose).readAll? (.atom value :: rest) =
      (Reader.mk frames .name).readAll? (.atom value :: rest) := rfl

theorem fieldsTokens_head {fields : List (String × Json)} (nonempty : fields ≠ []) :
    ∃ name rest, fieldsTokens fields = .atom (.str name) :: rest := by
  cases fields with
  | nil => exact absurd rfl nonempty
  | cons field fields =>
    obtain ⟨name, value⟩ := field
    cases fields with
    | nil => exact ⟨name, _, rfl⟩
    | cons next fields =>
      refine ⟨name, .mark ':' :: (value.tokens ++ .mark ',' :: fieldsTokens (next :: fields)), ?_⟩
      rw [fieldsTokens]
      simp

theorem reads_items {items : List Json} {outer : List Frame} (nonempty : items ≠ [])
    (each : ∀ item ∈ items, ∀ seen, Delivers (.list seen :: outer) item) (seen : List Json)
    (rest : List Token) :
    (Reader.mk (.list seen :: outer) .value).readAll? (itemsTokens items ++ rest) =
      (Reader.mk (.list (items.reverse ++ seen) :: outer) .separator).readAll? rest := by
  induction items generalizing seen with
  | nil => exact absurd rfl nonempty
  | cons item items ih =>
    have own := each item List.mem_cons_self seen
    cases items with
    | nil => exact own rest
    | cons next items =>
      have later := ih (by simp) (fun other member => each other (List.mem_cons_of_mem _ member))
        (item :: seen)
      have separated : (deliver (.list seen :: outer) item).step? (.mark ',') =
          some ⟨.list (item :: seen) :: outer, .value⟩ := rfl
      rw [itemsTokens, List.append_assoc, own, List.cons_append, readAll?_cons separated, later]
      · simp
      · simp

theorem reads_fields {fields : List (String × Json)} {outer : List Frame} (nonempty : fields ≠ [])
    (each : ∀ field ∈ fields, ∀ seen, Delivers (.record seen field.1 :: outer) field.2)
    (seen : List (String × Json)) (name : String) (rest : List Token) :
    (Reader.mk (.record seen name :: outer) .name).readAll? (fieldsTokens fields ++ rest) =
      (Reader.mk (.record (fields.foldl (fun seen field => Entries.insert field.1 field.2 seen)
        seen) "" :: outer) .separator).readAll? rest := by
  induction fields generalizing seen name with
  | nil => exact absurd rfl nonempty
  | cons field fields ih =>
    obtain ⟨key, value⟩ := field
    have own := each (key, value) List.mem_cons_self seen
    have named : (Reader.mk (.record seen name :: outer) .name).step? (.atom (.str key)) =
        some ⟨.record seen key :: outer, .colon⟩ := rfl
    have marked : (Reader.mk (.record seen key :: outer) .colon).step? (.mark ':') =
        some ⟨.record seen key :: outer, .value⟩ := rfl
    cases fields with
    | nil =>
      rw [fieldsTokens, List.cons_append, readAll?_cons named, List.cons_append,
        readAll?_cons marked, own]
      rfl
    | cons next fields =>
      have later := ih (by simp) (fun other member => each other (List.mem_cons_of_mem _ member))
        (Entries.insert key value seen) ""
      have separated : (deliver (.record seen key :: outer) value).step? (.mark ',') =
          some ⟨.record (Entries.insert key value seen) "" :: outer, .name⟩ := rfl
      rw [fieldsTokens, List.cons_append, readAll?_cons named, List.cons_append,
        readAll?_cons marked, List.append_assoc, own, List.cons_append, readAll?_cons separated,
        later]
      · rfl
      · simp

theorem depth_le_itemsDepth {items : List Json} :
    ∀ item ∈ items, item.depth ≤ itemsDepth items := by
  induction items with
  | nil => simp
  | cons first rest ih =>
    intro item member
    rw [itemsDepth]
    rcases List.mem_cons.1 member with rfl | later
    · omega
    · have := ih item later
      omega

theorem depth_le_fieldsDepth {fields : List (String × Json)} :
    ∀ field ∈ fields, field.2.depth ≤ fieldsDepth fields := by
  induction fields with
  | nil => simp
  | cons first rest ih =>
    intro field member
    rw [fieldsDepth]
    rcases List.mem_cons.1 member with rfl | later
    · exact Nat.le_max_left _ _
    · exact Nat.le_trans (ih field later) (Nat.le_max_right _ _)

theorem delivers_arr {items : List Json} {frames : List Frame} (room : frames.length < maxOpen)
    (each : ∀ item ∈ items, ∀ seen, Delivers (.list seen :: frames) item) :
    Delivers frames (arr items) := by
  intro rest
  have opened : (Reader.mk frames .value).step? (.mark '[') =
      some ⟨.list [] :: frames, .valueOrClose⟩ := by
    change enter? frames (.list []) .valueOrClose = _
    rw [enter?, if_pos room]
  rw [tokens, List.cons_append, readAll?_cons opened, List.append_assoc]
  by_cases nonempty : items = []
  · subst nonempty
    exact readAll?_cons rfl rest
  · obtain ⟨token, later, head, other⟩ := itemsTokens_head nonempty
    have closed :
        (Reader.mk (.list (items.reverse ++ []) :: frames) .separator).step? (.mark ']') =
          some (deliver frames (arr items)) := by
      change some (deliver frames (arr (items.reverse ++ []).reverse)) = _
      rw [List.append_nil, List.reverse_reverse]
    have all := reads_items nonempty each [] ([.mark ']'] ++ rest)
    rw [head, List.cons_append] at all ⊢
    exact (readAll?_first _ other _).trans (all.trans (readAll?_cons closed rest))

theorem delivers_obj {fields : List (String × Json)} {frames : List Frame}
    (ordered : Entries.Ordered fields) (room : frames.length < maxOpen)
    (each : ∀ field ∈ fields, ∀ seen, Delivers (.record seen field.1 :: frames) field.2) :
    Delivers frames (obj fields) := by
  intro rest
  have opened : (Reader.mk frames .value).step? (.mark '\x7b') =
      some ⟨.record [] "" :: frames, .nameOrClose⟩ := by
    change enter? frames (.record [] "") .nameOrClose = _
    rw [enter?, if_pos room]
  rw [tokens, List.cons_append, readAll?_cons opened, List.append_assoc]
  by_cases nonempty : fields = []
  · subst nonempty
    exact readAll?_cons rfl rest
  · obtain ⟨name, later, head⟩ := fieldsTokens_head nonempty
    have sorted :
        fields.foldl (fun seen field => Entries.insert field.1 field.2 seen) [] = fields :=
      Entries.ofList_of_ordered ordered
    have all := reads_fields nonempty each [] "" ([.mark '\x7d'] ++ rest)
    rw [sorted] at all
    rw [head, List.cons_append] at all ⊢
    exact (readAll?_firstName _ _ _).trans (all.trans (readAll?_cons rfl rest))

theorem delivers {value : Json} (faithful : value.Faithful) {frames : List Frame}
    (shallow : frames.length + value.depth ≤ maxOpen) : Delivers frames value := by
  induction value using value_induction generalizing frames with
  | null => exact fun rest => readAll?_cons rfl rest
  | bool value => exact fun rest => readAll?_cons rfl rest
  | int i => exact fun rest => readAll?_cons rfl rest
  | float x => exact fun rest => readAll?_cons rfl rest
  | str text => exact fun rest => readAll?_cons rfl rest
  | arr items ih =>
    rw [depth] at shallow
    refine delivers_arr (by omega) fun item member seen => ?_
    apply ih item member (itemsFaithful_iff.1 faithful item member)
    have inside := depth_le_itemsDepth item member
    rw [List.length_cons]
    omega
  | obj fields ih =>
    rw [depth] at shallow
    refine delivers_obj faithful.1 (by omega) fun field member seen => ?_
    apply ih field member (fieldsFaithful_iff.1 faithful.2 field member)
    have inside := depth_le_fieldsDepth field member
    rw [List.length_cons]
    omega

end Reader

/-- The text of a value is read back as the value. -/
theorem parse?_text {value : Json} (faithful : value.Faithful)
    (shallow : value.depth ≤ Reader.maxOpen) : parse? value.text = some value := by
  have delivers : Reader.Delivers [] value := Reader.delivers faithful (by simpa using shallow)
  have read := delivers []
  rw [List.append_nil] at read
  have folded : value.tokens.foldlM Reader.step? {} = some ⟨[], .done value⟩ := read
  unfold parse?
  rw [Token.ofChars?_text faithful]
  change ((value.tokens.foldlM Reader.step? {}).bind Reader.finish?) = _
  rw [folded]
  rfl

end Json
end TwoPhase
