import TwoPhase.Json.Basic
import TwoPhase.Number.Shortest

/-
The compact text of a JSON value: no blanks, object fields as they stand, and of the
characters in a string only quotes, backslashes and controls escaped. Equal values have
equal texts, which is why identifiers are taken from it.
-/
namespace TwoPhase.Json

/-- Decimal exponents from -5 to 15 are written without an exponent part. -/
def floatFormat : FloatFormat := ⟨-5, 15⟩

def hexDigit (n : Nat) : Char := Nat.digitChar (n % 16)

def escapeChar (c : Char) : List Char :=
  if c = '"' then ['\\', '"']
  else if c = '\\' then ['\\', '\\']
  else if c = '\n' then ['\\', 'n']
  else if c = '\r' then ['\\', 'r']
  else if c = '\t' then ['\\', 't']
  else if c = '\x08' then ['\\', 'b']
  else if c = '\x0c' then ['\\', 'f']
  else if c.toNat < 0x20 then ['\\', 'u', '0', '0', hexDigit (c.toNat / 16), hexDigit c.toNat]
  else [c]

def quoted (s : String) : String :=
  String.ofList ('"' :: (s.toList.flatMap escapeChar ++ ['"']))

mutual
def text : Json → String
  | null => "null"
  | bool true => "true"
  | bool false => "false"
  | int i => i.text
  | float x => String.ofList (x.chars floatFormat)
  | str s => quoted s
  | arr items => "[" ++ itemsText items ++ "]"
  | obj fields => "\x7b" ++ fieldsText fields ++ "\x7d"
def itemsText : List Json → String
  | [] => ""
  | [last] => last.text
  | item :: rest => item.text ++ "," ++ itemsText rest
def fieldsText : List (String × Json) → String
  | [] => ""
  | [(name, last)] => quoted name ++ ":" ++ last.text
  | (name, value) :: rest => quoted name ++ ":" ++ value.text ++ "," ++ fieldsText rest
end

end TwoPhase.Json
