import TwoPhase.Delivery

/-
Header names in any letter case. A response keeps its headers by their exact names, so that one
name may stand there in several spellings, of which the first in ascending order is looked up
and removed. Where no name stands in two spellings the headers are a map on names without
regard to case, and setting and removing keep them so.
-/
namespace TwoPhase

section Names
variable {a b : String}

theorem sameHeaderName_iff :
    sameHeaderName a b = true ↔ a.toList.map Char.toLower = b.toList.map Char.toLower := by
  unfold sameHeaderName
  exact decide_eq_true_iff

theorem sameHeaderName_refl (a : String) : sameHeaderName a a = true := sameHeaderName_iff.2 rfl

theorem sameHeaderName_congr (same : sameHeaderName a b = true) (other : String) :
    sameHeaderName a other = sameHeaderName b other ∧
      sameHeaderName other a = sameHeaderName other b := by
  unfold sameHeaderName
  rw [sameHeaderName_iff.1 same]
  exact ⟨rfl, rfl⟩

end Names

namespace Response
variable {response : Response} {name other : String}

def spellings (response : Response) (name : String) : List (String × String) :=
  response.headers.entries.filter fun entry => sameHeaderName entry.1 name

/-- No name stands in two spellings. -/
def SinglySpelled (response : Response) : Prop :=
  ∀ name, (response.spellings name).length ≤ 1

theorem spellings_ordered (response : Response) (name : String) :
    Entries.Ordered (response.spellings name) :=
  Entries.filter_ordered (sameHeaderName · name) response.headers.ordered

theorem spellings_congr (same : sameHeaderName name other = true) :
    response.spellings name = response.spellings other := by
  unfold spellings
  simp only [(sameHeaderName_congr same _).2]

theorem findHeader_eq (response : Response) (name : String) :
    response.findHeader name = (response.spellings name).head? :=
  (List.head?_filter ..).symm

theorem header_eq (response : Response) (name : String) :
    response.header name = (response.spellings name).head?.map Prod.snd := by
  rw [header, findHeader_eq]

theorem header_eq_none_iff : response.header name = none ↔ response.spellings name = [] := by
  rw [header_eq, Option.map_eq_none_iff, List.head?_eq_none_iff]

theorem spellings_removeHeader (response : Response) (name other : String) :
    (response.removeHeader name).spellings other =
      if sameHeaderName name other = true then (response.spellings other).tail
      else response.spellings other := by
  unfold removeHeader
  rw [findHeader_eq]
  cases found : response.spellings name with
  | nil =>
    by_cases same : sameHeaderName name other = true
    · have absent := (spellings_congr same).symm.trans found
      rw [if_pos same, absent]
      exact absent
    · rw [if_neg same, List.head?_nil]
  | cons first rest =>
    obtain ⟨spelling, held⟩ := first
    have erased : Response.spellings
        { response with headers := response.headers.erase spelling } other =
          Entries.erase spelling (response.spellings other) :=
      Entries.filter_erase (sameHeaderName · other) spelling response.headers.ordered
    rw [List.head?_cons]
    refine erased.trans ?_
    by_cases same : sameHeaderName name other = true
    · have ordered := response.spellings_ordered name
      rw [found] at ordered
      rw [if_pos same, ← spellings_congr same, found, List.tail_cons]
      exact Entries.erase_first ordered
    · have own : sameHeaderName spelling name = true := by
        have member : (spelling, held) ∈ response.spellings name := found ▸ List.mem_cons_self
        exact (List.mem_filter.1 member).2
      rw [if_neg same]
      apply Entries.erase_of_absent
      unfold spellings
      rw [Entries.get?_filter (sameHeaderName · other), (sameHeaderName_congr own other).1, if_neg same]

theorem spellings_setHeader (response : Response) (name value other : String) :
    (response.setHeader name value).spellings other =
      if sameHeaderName name other = true then
        Entries.insert name value (response.spellings other).tail
      else response.spellings other := by
  have inserted : (response.setHeader name value).spellings other =
      if sameHeaderName name other = true then
        Entries.insert name value ((response.removeHeader name).spellings other)
      else (response.removeHeader name).spellings other :=
    Entries.filter_insert (sameHeaderName · other) name value (response.removeHeader name).headers.ordered
  rw [inserted, spellings_removeHeader]
  by_cases same : sameHeaderName name other = true
  · simp only [if_pos same]
  · simp only [if_neg same]

theorem header_setHeader_same (same : sameHeaderName name other = true) (value : String) :
    (response.setHeader name value).header other =
      match (response.spellings name).tail.head? with
      | some (spelling, kept) => if spelling < name then some kept else some value
      | none => some value := by
  rw [header_eq, spellings_setHeader, if_pos same, ← spellings_congr same]
  cases (response.spellings name).tail with
  | nil => rfl
  | cons second rest =>
    obtain ⟨spelling, kept⟩ := second
    dsimp only [List.head?_cons, Entries.insert]
    by_cases equal : name = spelling
    · rw [if_pos equal, if_neg (equal ▸ String.lt_irrefl name)]
      rfl
    · rw [if_neg equal]
      by_cases before : name < spelling
      · rw [if_pos before, if_neg fun after => String.lt_irrefl name (String.lt_trans before after)]
        rfl
      · rw [if_neg before, if_pos (Entries.name_lt_of_not_le equal before)]
        rfl

theorem header_setHeader_iff :
    (∀ value other, sameHeaderName other name = true →
        (response.setHeader name value).header other = some value) ↔
      ∀ entry ∈ (response.spellings name).tail, ¬ entry.1 < name := by
  have ordered := (response.spellings_ordered name).tail
  constructor
  · intro found entry member before
    cases listed : (response.spellings name).tail with
    | nil => simp [listed] at member
    | cons second rest =>
      obtain ⟨spelling, kept⟩ := second
      rw [listed] at ordered member
      have earlier : spelling < name := by
        rcases List.mem_cons.1 member with rfl | later
        · exact before
        · exact String.lt_trans ((List.pairwise_cons.1 ordered).1 entry later) before
      -- Whatever is set, the value kept under the other spelling is read.
      have kept_eq : ∀ value, some kept = some value := by
        intro value
        have own := found value name (sameHeaderName_refl name)
        rw [header_setHeader_same (sameHeaderName_refl name), listed] at own
        simpa only [List.head?_cons, if_pos earlier] using own
      have same : some "" = some "set" := (kept_eq "").symm.trans (kept_eq "set")
      simp at same
  · intro later value other same
    rw [header_setHeader_same (sameHeaderName_iff.2 (sameHeaderName_iff.1 same).symm)]
    cases listed : (response.spellings name).tail with
    | nil => rfl
    | cons second rest =>
      have notBefore := later second (listed ▸ List.mem_cons_self)
      simp only [List.head?_cons, if_neg notBefore]

theorem header_removeHeader_iff :
    (∀ other, sameHeaderName other name = true →
        (response.removeHeader name).header other = none) ↔
      (response.spellings name).length ≤ 1 := by
  have single : (response.spellings name).tail = [] ↔ (response.spellings name).length ≤ 1 := by
    rw [← List.length_eq_zero_iff, List.length_tail]
    omega
  have own : ∀ other, sameHeaderName other name = true →
      (response.removeHeader name).spellings other = (response.spellings name).tail := by
    intro other same
    rw [spellings_congr same, spellings_removeHeader, if_pos (sameHeaderName_refl name)]
  rw [← single]
  constructor
  · intro removed
    rw [← own name (sameHeaderName_refl name)]
    exact header_eq_none_iff.1 (removed name (sameHeaderName_refl name))
  · intro alone other same
    rw [header_eq_none_iff, own other same, alone]

theorem header_other (apart : sameHeaderName other name = false) (value : String) :
    (response.setHeader name value).header other = response.header other ∧
      (response.removeHeader name).header other = response.header other := by
  have differs : ¬ sameHeaderName name other = true := by
    intro same
    rw [sameHeaderName_iff.2 (sameHeaderName_iff.1 same).symm] at apart
    cases apart
  constructor
  · rw [header_eq, spellings_setHeader, if_neg differs, header_eq]
  · rw [header_eq, spellings_removeHeader, if_neg differs, header_eq]

theorem SinglySpelled.removeHeader (single : response.SinglySpelled) (name : String) :
    (response.removeHeader name).SinglySpelled := by
  intro other
  have bound := single other
  rw [spellings_removeHeader]
  split
  · rw [List.length_tail]
    omega
  · exact bound

theorem SinglySpelled.setHeader (single : response.SinglySpelled) (name value : String) :
    (response.setHeader name value).SinglySpelled := by
  intro other
  have bound := single other
  rw [spellings_setHeader]
  split
  · have alone : (response.spellings other).tail = [] := by
      rw [← List.length_eq_zero_iff, List.length_tail]
      omega
    rw [alone]
    exact Nat.le_refl 1
  · exact bound

end Response

namespace Delivery
variable {σ : Type} {delivery : Delivery σ} {ctx : RequestContext} {response delivered : Response}
  {shared : σ}

theorem provideFor_headers {header : Option String}
    (provided : delivery.provideFor ctx response header = .ok delivered) :
    delivered.headers = response.headers := by
  unfold provideFor at provided
  cases found : neededVariables ctx header with
  | error failure =>
    rw [found] at provided
    cases provided
  | ok needed =>
    rw [found] at provided
    change (if needed.isEmpty then pure response else _) = _ at provided
    split at provided
    · cases provided
      rfl
    · cases statements : provide delivery.registry ctx needed with
      | error failure =>
        rw [statements] at provided
        cases provided
      | ok text =>
        rw [statements] at provided
        cases provided
        rfl

theorem finish_headers (finished : (delivery.finish ctx response shared).1 = .ok delivered) :
    delivered.headers = response.headers := by
  unfold finish at finished
  split at finished
  · dsimp only at finished
    generalize (delivery.evaluator.evaluateDocument ctx response.body shared).1 = outcome at finished
    cases outcome with
    | error failure => cases finished
    | ok body =>
      cases finished
      rfl
  · cases finished
    rfl

theorem deliver_headers (out : (delivery.deliver ctx response shared).1 = .ok delivered) :
    delivered.headers =
      (if delivery.debug = true then response else response.removeHeader Header.name).headers := by
  unfold deliver at out
  dsimp only at out
  generalize (if delivery.debug = true then response else response.removeHeader Header.name) = bare
    at out ⊢
  cases provided : delivery.provideFor ctx bare (response.header Header.name) with
  | error failure =>
    rw [provided] at out
    cases out
  | ok sent =>
    rw [provided] at out
    exact (finish_headers out).trans (provideFor_headers provided)

end Delivery

/-- A value that was set is found under every spelling of its name exactly if no second spelling comes
before the one that was used; a header that was removed is gone exactly if it stood there in one
spelling. Other names are not touched. So the headers are a map without regard to case where no
name stands in two spellings, which the accessors never bring about, and the variables header
is gone from what is sent out exactly if it was spelled in one way. -/
theorem headers_caseless_iff (response : Response) (name : String) :
    ((∀ value other, sameHeaderName other name = true →
        (response.setHeader name value).header other = some value) ↔
      ∀ entry ∈ (response.spellings name).tail, ¬ entry.1 < name) ∧
    ((∀ other, sameHeaderName other name = true →
        (response.removeHeader name).header other = none) ↔
      (response.spellings name).length ≤ 1) ∧
    (∀ value other, sameHeaderName other name = false →
      (response.setHeader name value).header other = response.header other ∧
        (response.removeHeader name).header other = response.header other) ∧
    (response.SinglySpelled → (response.removeHeader name).SinglySpelled ∧
      ∀ value, (response.setHeader name value).SinglySpelled) ∧
    ∀ (σ : Type) (delivery : Delivery σ) (ctx : RequestContext) (shared : σ) (delivered : Response),
      delivery.debug = false → (delivery.deliver ctx response shared).1 = .ok delivered →
        ((∀ other, sameHeaderName other Header.name = true → delivered.header other = none) ↔
          (response.spellings Header.name).length ≤ 1) := by
  refine ⟨Response.header_setHeader_iff, Response.header_removeHeader_iff, ?_, ?_, ?_⟩
  · intro value other apart
    exact Response.header_other apart value
  · intro single
    exact ⟨single.removeHeader name, single.setHeader name⟩
  · intro σ delivery ctx shared delivered plain out
    have kept := Delivery.deliver_headers out
    rw [if_neg (by simp [plain])] at kept
    have looked : ∀ other, delivered.header other =
        (response.removeHeader Header.name).header other := by
      intro other
      unfold Response.header Response.findHeader
      rw [kept]
    simp only [looked]
    exact Response.header_removeHeader_iff

def twiceSpelled : Response where
  body := ""
  headers := .ofList [(Header.name, "\x7b\x7d"), ("X-ssi-vars-needed", "\x7b\x7d")]

def unrendered : Delivery Unit where
  registry := {}
  evaluator := { sources := .none }

/-- Of two spellings the second shows again when the first is removed, hides a value that is set under
a later spelling, and is sent out. -/
theorem second_spelling_remains :
    (twiceSpelled.removeHeader Header.name).header Header.name = some "\x7b\x7d" ∧
      (twiceSpelled.setHeader "x-ssi-vars-needed" "new").header "x-ssi-vars-needed" =
        some "\x7b\x7d" ∧
      (unrendered.deliver { path := "/" } twiceSpelled ()).1.toOption.bind (·.header Header.name) =
        some "\x7b\x7d" := by
  decide

end TwoPhase
