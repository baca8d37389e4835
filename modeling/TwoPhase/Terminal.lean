import TwoPhase.Pattern

/-
Terminal styles: a text between an escape sequence and the reset. A reset inside the text would
end the style early, so the style is taken up again after it.
-/
namespace TwoPhase

inductive Style where
  | redBold
  | yellow
  | green
  | bold
  | dimmed

namespace Style

def code : Style → String
  | redBold => "1;31"
  | yellow => "33"
  | green => "32"
  | bold => "1"
  | dimmed => "2"

def start (style : Style) : List Char := ("\x1b[" ++ style.code ++ "m").toList

def reset : List Char := "\x1b[0m".toList

def resets : Pattern Unit := .ofLiteral reset (by decide)

def paint (colors : Bool) (style : Style) (text : String) : String :=
  if colors then
    let body := resets.replace (fun _ => reset ++ style.start) text.toList
    String.ofList (style.start ++ body ++ reset)
  else text

end Style
end TwoPhase
