import TwoPhase.Glyph

/-
One-line summaries for logs: a collection is a type name and its names in quotes, a timeout a
number with its unit.
-/
namespace TwoPhase

def summaryChar (c : Char) : List Char :=
  if c = '"' ∨ c = '\\' then ['\\', c]
  else if c = '\n' then ['\\', 'n']
  else if c = '\r' then ['\\', 'r']
  else if c = '\t' then ['\\', 't']
  else if c = '\x00' then ['\\', '0']
  else if hasGlyph c then [c]
  else '\\' :: 'u' :: '\x7b' :: (Nat.toDigits 16 c.toNat ++ ['\x7d'])

def summaryQuoted (text : String) : String :=
  String.ofList ('"' :: (text.toList.flatMap summaryChar ++ ['"']))

def summary (type field : String) (names : List String) : String :=
  type ++ " \x7b " ++ field ++ ": [" ++ ", ".intercalate (names.map summaryQuoted) ++ "] \x7d"

/-- A timeout of whole seconds, if there is one. Zero is written in the smallest unit. -/
def timeoutSummary (timeout : Option Nat) : String :=
  match timeout with
  | none => "None"
  | some 0 => "Some(0ns)"
  | some seconds => "Some(" ++ toString seconds ++ "s)"

end TwoPhase
