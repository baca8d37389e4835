import TwoPhase.NameMap

/-
Responses. Header names compare without regard to ASCII case; where several spellings of one
name are present, the first in ascending order counts.
-/
namespace TwoPhase

structure Response where
  body : String
  status : Nat := 200
  headers : NameMap String := {}

def sameHeaderName (a b : String) : Bool :=
  a.toList.map Char.toLower = b.toList.map Char.toLower

namespace Response

def findHeader (response : Response) (name : String) : Option (String × String) :=
  response.headers.entries.find? fun entry => sameHeaderName entry.1 name

def header (response : Response) (name : String) : Option String :=
  (response.findHeader name).map Prod.snd

def removeHeader (response : Response) (name : String) : Response :=
  match response.findHeader name with
  | some (spelling, _) => { response with headers := response.headers.erase spelling }
  | none => response

/-- Replaces the first header of that name in any case. -/
def setHeader (response : Response) (name value : String) : Response :=
  let response := response.removeHeader name
  { response with headers := response.headers.insert name value }

end Response
end TwoPhase
