import TwoPhase.Json.Literal

/-
Lexing JSON text, one character at a time. Marks and atoms are the tokens; an atom is a
literal word, a number or a string, already as a value.
-/
namespace TwoPhase.Json

inductive Token where
  | mark (c : Char)
  | atom (value : Json)

namespace Token

/-- Where in a token the lexer stands. Characters seen so far are in reverse. -/
inductive Mode where
  | between
  | bare (seen : List Char)
  | text (seen : List Char)
  | escape (seen : List Char)
  | unit (seen : List Char) (high : Option Nat) (digits : List Char)
  | pair (seen : List Char) (high : Nat) (slash : Bool)

structure Lexer where
  mode : Mode := .between
  tokens : List Token := []

def isBlank (c : Char) : Bool := c = ' ' || c = '\n' || c = '\t' || c = '\r'

def isMark (c : Char) : Bool :=
  c = '[' || c = ']' || c = '\x7b' || c = '\x7d' || c = ',' || c = ':'

def isBare (c : Char) : Bool := c.isAlphanum || c = '-' || c = '+' || c = '.'

def bare? (word : List Char) : Option Json :=
  if word = "null".toList then some .null
  else if word = "true".toList then some (.bool true)
  else if word = "false".toList then some (.bool false)
  else (NumberLiteral.read? word).bind NumberLiteral.value?

def isHigh (unit : Nat) : Bool := 0xD800 ≤ unit && unit < 0xDC00
def isLow (unit : Nat) : Bool := 0xDC00 ≤ unit && unit < 0xE000

/-- What an escaped code unit does: stand for its character, open a surrogate pair, or
complete one. Lone surrogates are refused. -/
def unit? (seen : List Char) (high : Option Nat) (unit : Nat) : Option Mode :=
  match high with
  | none =>
    if isHigh unit then some (.pair seen unit false)
    else if isLow unit then none
    else some (.text (Char.ofNat unit :: seen))
  | some high =>
    if isLow unit then
      some (.text (Char.ofNat (0x10000 + (high - 0xD800) * 0x400 + (unit - 0xDC00)) :: seen))
    else none

def escape? (seen : List Char) (c : Char) : Option Mode :=
  match c with
  | '"' | '\\' | '/' => some (.text (c :: seen))
  | 'b' => some (.text ('\x08' :: seen))
  | 'f' => some (.text ('\x0c' :: seen))
  | 'n' => some (.text ('\n' :: seen))
  | 'r' => some (.text ('\r' :: seen))
  | 't' => some (.text ('\t' :: seen))
  | 'u' => some (.unit seen none [])
  | _ => none

namespace Lexer

def startToken? (tokens : List Token) (c : Char) : Option Lexer :=
  if isBlank c then some ⟨.between, tokens⟩
  else if isMark c then some ⟨.between, .mark c :: tokens⟩
  else if c = '"' then some ⟨.text [], tokens⟩
  else if isBare c then some ⟨.bare [c], tokens⟩
  else none

def step? (lexer : Lexer) (c : Char) : Option Lexer :=
  let tokens := lexer.tokens
  match lexer.mode with
  | .between => startToken? tokens c
  | .bare seen =>
    if isBare c then some ⟨.bare (c :: seen), tokens⟩
    else (bare? seen.reverse).bind fun value => startToken? (.atom value :: tokens) c
  | .text seen =>
    if c = '"' then some ⟨.between, .atom (.str (String.ofList seen.reverse)) :: tokens⟩
    else if c = '\\' then some ⟨.escape seen, tokens⟩
    else if c.toNat < 0x20 then none
    else some ⟨.text (c :: seen), tokens⟩
  | .escape seen => (escape? seen c).map (⟨·, tokens⟩)
  | .unit seen high digits =>
    let digits := digits ++ [c]
    (readBase? 16 digits).bind fun unit =>
      if digits.length < 4 then some ⟨.unit seen high digits, tokens⟩
      else (unit? seen high unit).map (⟨·, tokens⟩)
  | .pair seen high slash =>
    if slash then if c = 'u' then some ⟨.unit seen (some high) [], tokens⟩ else none
    else if c = '\\' then some ⟨.pair seen high true, tokens⟩ else none

def finish? (lexer : Lexer) : Option (List Token) :=
  match lexer.mode with
  | .between => some lexer.tokens.reverse
  | .bare seen => (bare? seen.reverse).map fun value => (.atom value :: lexer.tokens).reverse
  | _ => none

end Lexer

def ofChars? (text : List Char) : Option (List Token) :=
  (text.foldlM Lexer.step? {}).bind Lexer.finish?

end Token
end TwoPhase.Json
