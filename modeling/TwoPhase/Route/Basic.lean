import TwoPhase.Fragment.Basic
import TwoPhase.Path

/-
Route patterns: segments between slashes, each a fixed text or a parameter in braces that
matches one segment that is not empty. A path is built from arguments only if it would be
matched again and reads back unchanged inside an include attribute.
-/
namespace TwoPhase

inductive Segment where
  | fixed (text : String)
  | param (name : String)
deriving DecidableEq

def Segment.ofText (text : String) : Segment :=
  match text.toList with
  | '\x7b' :: rest =>
    if rest.getLast? = some '\x7d' then .param (String.ofList rest.dropLast) else .fixed text
  | _ => .fixed text

structure Route where
  name : String
  segments : List Segment
  fragment : Fragment

namespace Route

def ofPattern (name pattern : String) (fragment : Fragment) : Route :=
  ⟨name, (segmentsOf pattern).map Segment.ofText, fragment⟩

def params (route : Route) : List String :=
  route.segments.filterMap fun
    | .param name => some name
    | .fixed _ => none

/-- A parameter that occurs twice takes its last value. -/
def matchSegments : List Segment → List String → NameMap String → Option (NameMap String)
  | [], [], arguments => some arguments
  | .fixed text :: segments, part :: parts, arguments =>
    if text = part then matchSegments segments parts arguments else none
  | .param name :: segments, part :: parts, arguments =>
    if part = "" then none else matchSegments segments parts (arguments.insert name part)
  | _, _, _ => none

def matches? (route : Route) (path : String) : Option (NameMap String) :=
  matchSegments route.segments (segmentsOf path) {}

def isSegment (value : String) : Bool :=
  value ≠ "" && value.toList.all fun c => c ≠ '/' && c ≠ '?' && c ≠ '\'' && c ≠ '\\'

def fillSegment? (arguments : NameMap String) : Segment → Option String
  | .fixed text => some text
  | .param name => (arguments.get? name).filter isSegment

def reverse? (route : Route) (arguments : NameMap String) : Option String :=
  if arguments.names = (NameMap.ofList (route.params.map (·, ()))).names then
    (route.segments.mapM (fillSegment? arguments)).map (joined "/")
  else none

end Route
end TwoPhase
