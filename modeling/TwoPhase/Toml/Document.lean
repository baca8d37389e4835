import TwoPhase.Split
import TwoPhase.Toml.Scalar
import TwoPhase.Toml.Token

/-
Reading TOML documents. Brackets are matched with a stack; what stands between a pair of them
is read when the pair closes, so that a line is at last a flat list of pieces: a header, or
a key and its value.
-/
namespace TwoPhase.Toml

inductive Piece where
  | token (token : Token)
  | compound (value : Toml)
  | header (path : List String) (double : Bool)

inductive Bracket where
  | list
  | record
  | header
deriving DecidableEq

/-- An open bracket with the pieces after it in reverse. -/
structure Frame where
  bracket : Bracket
  pieces : List Piece := []

inductive Statement where
  | assign (path : List String) (key : String) (value : Toml)
  | openTable (path : List String) (key : String)
  | pushTable (path : List String) (key : String)

/-- Brackets nest at most this deep, and a key has at most as many parts. -/
def maxDepth : Nat := 80

namespace Piece

def isMark (c : Char) : Piece → Bool
  | .token (.mark found) => found = c
  | _ => false

def isBlank : Piece → Bool
  | .token (.blank _) => true
  | _ => false

def isGap : Piece → Bool
  | .token (.blank _) => true
  | .token .line => true
  | _ => false

def isKeyChar (c : Char) : Bool := c.isAlphanum || c = '_' || c = '-'

def keyPart? : Piece → Option String
  | .token (.word text) => if text.all isKeyChar then some (String.ofList text) else none
  | .token (.quoted text false) => some text
  | _ => none

def keyParts? (pieces : List Piece) : Option (List String) :=
  let parts := splitWhere (isMark '.') (pieces.filter fun piece => !piece.isBlank)
  if parts.length ≤ maxDepth then
    parts.mapM fun
      | [part] => part.keyPart?
      | _ => none
  else none

def key? (pieces : List Piece) : Option (List String × String) :=
  (keyParts? pieces).bind fun parts => parts.getLast?.map (parts.dropLast, ·)

def chars? : Piece → Option (List Char)
  | .token (.word text) => some text
  | .token (.blank text) => some text
  | .token (.mark '.') => some ['.']
  | _ => none

def value? : List Piece → Option Toml
  | [.compound read] => some read
  | [.token (.quoted text _)] => some (.str text)
  | pieces => ((pieces.mapM chars?).map List.flatten).bind scalar?

/-- What stands between commas, one of which may follow the last part. Lines may end around every
part. -/
def commaParts (pieces : List Piece) : List (List Piece) :=
  let parts := (splitWhere (isMark ',') pieces).map (trimWhere isGap)
  if parts.getLast?.any List.isEmpty then parts.dropLast else parts

def items? (pieces : List Piece) : Option (List Toml) := (commaParts pieces).mapM value?

def assignment? (pieces : List Piece) : Option (List String × String × Toml) := do
  let keyPieces := pieces.takeWhile fun piece => !piece.isMark '='
  let (path, key) ← key? (trimWhere isGap keyPieces)
  let value ← value? (trimWhere isGap (pieces.drop (keyPieces.length + 1)))
  some (path, key, value)

def fields? (pieces : List Piece) : Option Fields :=
  (commaParts pieces).foldlM (fun fields part => do
    let (path, key, value) ← assignment? part
    assign? path key value fields) []

def close? (bracket : Bracket) (pieces : List Piece) : Option Piece :=
  match bracket with
  | .list => (items? pieces).map fun items => .compound (.arr items)
  | .record => (fields? pieces).map fun fields => .compound (.table .closed fields)
  | .header =>
    match pieces with
    | [.header parts false] => some (.header parts true)
    | pieces => (keyParts? pieces).map (.header · false)

def statement? (pieces : List Piece) : Option (List Statement) :=
  match trimWhere isBlank pieces with
  | [] => some []
  | [.header parts double] =>
    parts.getLast?.map fun key =>
      [if double then .pushTable parts.dropLast key else .openTable parts.dropLast key]
  | pieces => (assignment? pieces).map fun (path, key, value) => [.assign path key value]

end Piece

structure LineReader where
  frames : List Frame := []
  line : List Piece := []
  statements : List Statement := []

namespace LineReader

def add (reader : LineReader) (piece : Piece) : LineReader :=
  match reader.frames with
  | [] => { reader with line := piece :: reader.line }
  | frame :: outer =>
    { reader with frames := { frame with pieces := piece :: frame.pieces } :: outer }

def enter? (reader : LineReader) (bracket : Bracket) : Option LineReader :=
  if reader.frames.length < maxDepth then
    some { reader with frames := { bracket } :: reader.frames }
  else none

/-- A square bracket opens a header at the start of a line, a second header directly inside the
first, and an array everywhere else but in a header. -/
def square? (reader : LineReader) : Option LineReader :=
  match reader.frames with
  | [] => reader.enter? (if reader.line.all Piece.isBlank then .header else .list)
  | [⟨.header, []⟩] => reader.enter? .header
  | ⟨.header, _⟩ :: _ => none
  | _ => reader.enter? .list

def brace? (reader : LineReader) : Option LineReader :=
  match reader.frames with
  | ⟨.header, _⟩ :: _ => none
  | _ => reader.enter? .record

def close? (reader : LineReader) (square : Bool) : Option LineReader :=
  match reader.frames with
  | frame :: outer =>
    if square = (frame.bracket ≠ .record) then
      (Piece.close? frame.bracket frame.pieces.reverse).map { reader with frames := outer }.add
    else none
  | [] => none

def endLine? (reader : LineReader) : Option LineReader :=
  (Piece.statement? reader.line.reverse).map fun statements =>
    { reader with line := [], statements := statements ++ reader.statements }

def step? (reader : LineReader) (token : Token) : Option LineReader :=
  match token with
  | .mark '[' => reader.square?
  | .mark '\x7b' => reader.brace?
  | .mark ']' => reader.close? true
  | .mark '\x7d' => reader.close? false
  | .line => if reader.frames.isEmpty then reader.endLine? else some (reader.add (.token .line))
  | token => some (reader.add (.token token))

def finish? (reader : LineReader) : Option (List Statement) :=
  if reader.frames.isEmpty then reader.endLine?.map fun reader => reader.statements.reverse
  else none

end LineReader

structure Outline where
  fields : Fields := []
  place : List String := []

namespace Outline

def step? (outline : Outline) (statement : Statement) : Option Outline :=
  match statement with
  | .assign path key value =>
    (changeAt? .implied (fun _ inner => assign? path key value inner) .header outline.place
      outline.fields).map ({ outline with fields := · })
  | .openTable path key => (openTable? path key outline.fields).map (⟨·, path ++ [key]⟩)
  | .pushTable path key => (pushTable? path key outline.fields).map (⟨·, path ++ [key]⟩)

end Outline

def parse? (text : String) : Option Fields := do
  let tokens ← Token.ofChars? text.toList
  let statements ← (← tokens.foldlM LineReader.step? {}).finish?
  let outline ← statements.foldlM Outline.step? {}
  some outline.fields

end TwoPhase.Toml
