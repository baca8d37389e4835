import TwoPhase.Json.Printer

/-
The text of directives: comments of the form `<!--#...-->` with quoted attributes. A value is
escaped when it is written into a set statement, so that it holds no bare quote.
-/
namespace TwoPhase.Directive

def elseMark : String := "<!--#else-->"

def endMark : String := "<!--#endif-->"

/-- How a computed value appears in a page. Null and false are empty, so that an if on them
takes its else branch; a string stands for itself; all else is its JSON text. -/
def valueText : Json → String
  | .null => ""
  | .bool false => ""
  | .str s => s
  | value => value.text

def escapeChar (c : Char) : List Char :=
  if c = '\\' ∨ c = '\'' then ['\\', c] else [c]

def escapeChars (text : List Char) : List Char := text.flatMap escapeChar

/-- A backslash makes the next character literal; a last one stands for itself. -/
def unescapeChars : List Char → List Char
  | [] => []
  | '\\' :: c :: rest => c :: unescapeChars rest
  | c :: rest => c :: unescapeChars rest

def escape (text : String) : String := String.ofList (escapeChars text.toList)

def unescape (text : String) : String := String.ofList (unescapeChars text.toList)

theorem unescape_escape_chars (text : List Char) : unescapeChars (escapeChars text) = text := by
  induction text with
  | nil => rfl
  | cons c rest ih =>
    have step : escapeChars (c :: rest) = escapeChar c ++ escapeChars rest := rfl
    rw [step, escapeChar]
    split
    · simp [unescapeChars, ih]
    · next plain =>
      have noEscape : c ≠ '\\' := fun same => plain (Or.inl same)
      simp only [List.cons_append, List.nil_append]
      rw [unescapeChars.eq_def]
      split <;> simp_all

def set (name : String) (value : Json) : String :=
  "<!--#set var='" ++ name ++ "' value='" ++ escape (valueText value) ++ "'-->"

def echo (name : String) : String := "<!--#echo var='" ++ name ++ "' encoding='none'-->"

def ifOpen (expression : String) : String := "<!--#if expr='" ++ expression ++ "'-->"

def reference (name : String) : String := "$\x7b" ++ name ++ "\x7d"

def includeFile (path : String) : String := "<!--#include file='" ++ path ++ "'-->"

end TwoPhase.Directive
