import TwoPhase.Number.Numeral

/-
Lexing TOML, one character at a time. A carriage return may stand before a line feed only, with
which it ends a line; a long string keeps both. Comments leave no token. Blanks do, since
brackets of a header must touch and a date may be followed by a time.
-/
namespace TwoPhase.Toml

inductive Token where
  | mark (c : Char)
  | blank (text : List Char)
  | line
  | word (text : List Char)
  | quoted (text : String) (long : Bool)

structure Quoting where
  quote : Char
  long : Bool
  seen : List Char

inductive Mode where
  | between
  | blank (seen : List Char)
  | word (seen : List Char)
  | comment
  /-- After one or two quotes that may turn out to open a long string. -/
  | opening (quote : Char) (count : Nat)
  | fresh (quote : Char)
  | text (string : Quoting) (quotes : Nat)
  | escape (string : Quoting)
  | unit (string : Quoting) (missing : Nat) (value : Nat)
  /-- After a backslash before blanks, which are dropped if a line ends among them. -/
  | gap (string : Quoting) (lineEnded : Bool)

structure Lexer where
  mode : Mode := .between
  tokens : List Token := []

def isSpace (c : Char) : Bool := c = ' ' || c = '\t'

def isLineEnd (c : Char) : Bool := c = '\r' || c = '\n'

def isMark (c : Char) : Bool :=
  c = '[' || c = ']' || c = '\x7b' || c = '\x7d' || c = ',' || c = '=' || c = '.'

def isWordChar (c : Char) : Bool :=
  c.isAlphanum || c = '_' || c = '-' || c = '+' || c = ':'

def isPlain (c : Char) : Bool := (0x20 ≤ c.toNat && c.toNat ≠ 0x7f) || c = '\t'

def scalarValue? (n : Nat) : Option Char :=
  if n < 0xD800 ∨ (0xE000 ≤ n ∧ n < 0x110000) then some (Char.ofNat n) else none

def Quoting.add (string : Quoting) (c : Char) : Quoting := { string with seen := c :: string.seen }

def Quoting.token (string : Quoting) (quotes : Nat) : Token :=
  .quoted (String.ofList (List.replicate quotes string.quote ++ string.seen).reverse) string.long

def Quoting.escape? (string : Quoting) (c : Char) : Option Mode :=
  match c with
  | '"' | '\\' => some (.text (string.add c) 0)
  | 'b' => some (.text (string.add '\x08') 0)
  | 't' => some (.text (string.add '\t') 0)
  | 'n' => some (.text (string.add '\n') 0)
  | 'f' => some (.text (string.add '\x0c') 0)
  | 'r' => some (.text (string.add '\r') 0)
  | 'e' => some (.text (string.add '\x1b') 0)
  | 'x' => some (.unit string 2 0)
  | 'u' => some (.unit string 4 0)
  | 'U' => some (.unit string 8 0)
  | c =>
    if string.long && (isSpace c || isLineEnd c) then some (.gap string (c = '\n')) else none

def Quoting.step? (string : Quoting) (c : Char) : Option Mode :=
  if c = '\\' ∧ string.quote = '"' then some (.escape string)
  else if isPlain c || (string.long && isLineEnd c) then some (.text (string.add c) 0)
  else none

namespace Lexer

def startToken? (tokens : List Token) (c : Char) : Option Lexer :=
  if c = '\n' then some ⟨.between, .line :: tokens⟩
  else if c = '\r' then some ⟨.between, tokens⟩
  else if c = '#' then some ⟨.comment, tokens⟩
  else if isSpace c then some ⟨.blank [c], tokens⟩
  else if c = '"' ∨ c = '\'' then some ⟨.opening c 1, tokens⟩
  else if isMark c then some ⟨.between, .mark c :: tokens⟩
  else if isWordChar c then some ⟨.word [c], tokens⟩
  else none

/-- A quote inside a string. A long string ends with its third quote in a row, but takes two
more that follow as its own. -/
def quoteStep (tokens : List Token) (string : Quoting) (quotes : Nat) : Lexer :=
  if !string.long then ⟨.between, string.token 0 :: tokens⟩
  else if quotes = 4 then ⟨.between, string.token 2 :: tokens⟩
  else ⟨.text string (quotes + 1), tokens⟩

def textStep? (tokens : List Token) (string : Quoting) (quotes : Nat) (c : Char) :
    Option Lexer :=
  if 3 ≤ quotes then startToken? (string.token (quotes - 3) :: tokens) c
  else
    let string := { string with seen := List.replicate quotes string.quote ++ string.seen }
    (string.step? c).map (⟨·, tokens⟩)

def step? (lexer : Lexer) (c : Char) : Option Lexer :=
  let tokens := lexer.tokens
  match lexer.mode with
  | .between => startToken? tokens c
  | .blank seen =>
    if isSpace c then some ⟨.blank (c :: seen), tokens⟩
    else startToken? (.blank seen.reverse :: tokens) c
  | .word seen =>
    if isWordChar c then some ⟨.word (c :: seen), tokens⟩
    else startToken? (.word seen.reverse :: tokens) c
  | .comment =>
    if isLineEnd c then startToken? tokens c
    else if isPlain c then some lexer
    else none
  | .opening quote count =>
    if c = quote then some ⟨if count = 1 then .opening quote 2 else .fresh quote, tokens⟩
    else if count = 1 then textStep? tokens ⟨quote, false, []⟩ 0 c
    else startToken? (.quoted "" false :: tokens) c
  | .fresh quote =>
    if c = '\n' then some ⟨.text ⟨quote, true, []⟩ 0, tokens⟩
    else if c = '\r' then some lexer
    else if c = quote then some (quoteStep tokens ⟨quote, true, []⟩ 0)
    else textStep? tokens ⟨quote, true, []⟩ 0 c
  | .text string quotes =>
    if c = string.quote then some (quoteStep tokens string quotes)
    else textStep? tokens string quotes c
  | .escape string => (string.escape? c).map (⟨·, tokens⟩)
  | .unit string missing value =>
    (hexValue? c).bind fun digit =>
      if missing = 1 then
        (scalarValue? (value * 16 + digit)).map fun c => ⟨.text (string.add c) 0, tokens⟩
      else some ⟨.unit string (missing - 1) (value * 16 + digit), tokens⟩
  | .gap string lineEnded =>
    if isSpace c || c = '\r' then some lexer
    else if c = '\n' then some ⟨.gap string true, tokens⟩
    else if !lineEnded then none
    else if c = string.quote then some (quoteStep tokens string 0)
    else textStep? tokens string 0 c

def finish? (lexer : Lexer) : Option (List Token) :=
  match lexer.mode with
  | .between | .comment => some lexer.tokens.reverse
  | .blank seen => some (.blank seen.reverse :: lexer.tokens).reverse
  | .word seen => some (.word seen.reverse :: lexer.tokens).reverse
  | .opening _ 2 => some (.quoted "" false :: lexer.tokens).reverse
  | .text string quotes =>
    if 3 ≤ quotes then some (string.token (quotes - 3) :: lexer.tokens).reverse else none
  | _ => none

end Lexer

def areReturnsPaired : List Char → Bool
  | [] => true
  | '\r' :: text => text.head? = some '\n' && areReturnsPaired text
  | _ :: text => areReturnsPaired text

def withoutMark : List Char → List Char
  | '\ufeff' :: text => text
  | text => text

def Token.ofChars? (text : List Char) : Option (List Token) :=
  if areReturnsPaired text then
    ((withoutMark text).foldlM Lexer.step? {}).bind Lexer.finish?
  else none

end TwoPhase.Toml
