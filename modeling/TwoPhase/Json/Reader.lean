import TwoPhase.Json.Token

/-
Reading JSON values from tokens with a stack of open arrays and objects. At most 127 of them
may be open at once. Of two fields with one name the later wins.
-/
namespace TwoPhase.Json

/-- An open array with its items in reverse, or an open object with the name that waits for
its value. -/
inductive Frame where
  | list (items : List Json)
  | record (fields : List (String × Json)) (name : String)

inductive Expected where
  | value
  | valueOrClose
  | name
  | nameOrClose
  | colon
  | separator
  | done (value : Json)

structure Reader where
  frames : List Frame := []
  expected : Expected := .value

namespace Reader

def maxOpen : Nat := 127

def deliver (frames : List Frame) (value : Json) : Reader :=
  match frames with
  | [] => ⟨[], .done value⟩
  | .list items :: outer => ⟨.list (value :: items) :: outer, .separator⟩
  | .record fields name :: outer =>
    ⟨.record (Entries.insert name value fields) "" :: outer, .separator⟩

def enter? (frames : List Frame) (frame : Frame) (expected : Expected) : Option Reader :=
  if frames.length < maxOpen then some ⟨frame :: frames, expected⟩ else none

def value? (frames : List Frame) : Token → Option Reader
  | .atom value => some (deliver frames value)
  | .mark '[' => enter? frames (.list []) .valueOrClose
  | .mark '\x7b' => enter? frames (.record [] "") .nameOrClose
  | .mark _ => none

def name? (frames : List Frame) (token : Token) : Option Reader :=
  match frames, token with
  | .record fields _ :: outer, .atom (.str name) => some ⟨.record fields name :: outer, .colon⟩
  | _, _ => none

def close? (frames : List Frame) (c : Char) : Option Reader :=
  match frames with
  | .list items :: outer => if c = ']' then some (deliver outer (arr items.reverse)) else none
  | .record fields _ :: outer => if c = '\x7d' then some (deliver outer (obj fields)) else none
  | [] => none

def separator? (frames : List Frame) (c : Char) : Option Reader :=
  if c = ',' then
    match frames with
    | .list _ :: _ => some ⟨frames, .value⟩
    | .record _ _ :: _ => some ⟨frames, .name⟩
    | [] => none
  else close? frames c

def step? (reader : Reader) (token : Token) : Option Reader :=
  match reader.expected, token with
  | .value, token => value? reader.frames token
  | .valueOrClose, .mark ']' => close? reader.frames ']'
  | .valueOrClose, token => value? reader.frames token
  | .name, token => name? reader.frames token
  | .nameOrClose, .mark '\x7d' => close? reader.frames '\x7d'
  | .nameOrClose, token => name? reader.frames token
  | .colon, .mark ':' => some ⟨reader.frames, .value⟩
  | .separator, .mark c => separator? reader.frames c
  | _, _ => none

def finish? (reader : Reader) : Option Json :=
  match reader.expected with
  | .done value => some value
  | _ => none

end Reader

def parse? (text : String) : Option Json := do
  let tokens ← Token.ofChars? text.toList
  (← tokens.foldlM Reader.step? {}).finish?

end TwoPhase.Json
