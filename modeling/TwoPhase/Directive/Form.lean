import TwoPhase.Directive.Basic
import TwoPhase.Pattern

/-
The forms of directives that are evaluated. Text that only resembles a form is no piece and
stays as it is. Ifs do not nest: a block ends at the first end mark after its header, and
its branches part at the first else mark before that.
-/
namespace TwoPhase.Directive.Form

structure SetForm where
  name : List Char
  /-- As written, with its escapes. -/
  value : List Char

structure IfForm where
  expression : List Char
  yes : List Char
  no : Option (List Char)

structure IncludeForm where
  keyword : List Char
  path : List Char

def isNotQuote (c : Char) : Bool := c ≠ '\''

def isNotBrace (c : Char) : Bool := c ≠ '\x7d'

def run (kind : Char → Bool) (text : List Char) : List Char × List Char :=
  (text.takeWhile kind, text.dropWhile kind)

def someRun? (kind : Char → Bool) (text : List Char) : Option (List Char × List Char) :=
  if (text.takeWhile kind).isEmpty then none else some (run kind text)

/-- An attribute value up to its closing quote: pairs that start with a backslash, and
characters that are neither a quote nor a backslash. -/
def escapedRun : List Char → List Char × List Char
  | [] => ([], [])
  | ['\\'] => ([], ['\\'])
  | '\\' :: c :: text => let (value, rest) := escapedRun text; ('\\' :: c :: value, rest)
  | '\'' :: text => ([], '\'' :: text)
  | c :: text => let (value, rest) := escapedRun text; (c :: value, rest)

def setStart : List Char := "<!--#set var='".toList
def setMiddle : List Char := "' value='".toList
def echoStart : List Char := "<!--#echo var='".toList
def echoEnd : List Char := "' encoding='none'-->".toList
def ifStart : List Char := "<!--#if expr='".toList
def elseMark : List Char := Directive.elseMark.toList
def endMark : List Char := Directive.endMark.toList
def includeStart : List Char := "<!--#include ".toList
def virtualWord : List Char := "virtual".toList
def fileWord : List Char := "file".toList
def attributeStart : List Char := "='".toList
def directiveEnd : List Char := "'-->".toList
def referenceStart : List Char := "$\x7b".toList
def referenceEnd : List Char := "\x7d".toList
def openStart : List Char := "<!--#".toList

namespace SetForm

def read? (text : List Char) : Option (SetForm × List Char) := do
  let text ← literal? setStart text
  let (name, text) ← someRun? isNotQuote text
  let text ← literal? setMiddle text
  let (value, text) := escapedRun text
  let text ← literal? directiveEnd text
  some (⟨name, value⟩, text)

def source (form : SetForm) : List Char :=
  setStart ++ form.name ++ setMiddle ++ form.value ++ directiveEnd

end SetForm

def readEcho? (text : List Char) : Option (List Char × List Char) := do
  let text ← literal? echoStart text
  let (name, text) ← someRun? isNotQuote text
  let text ← literal? echoEnd text
  some (name, text)

def echoSource (name : List Char) : List Char := echoStart ++ name ++ echoEnd

namespace IfForm

def read? (text : List Char) : Option (IfForm × List Char) := do
  let text ← literal? ifStart text
  let (expression, text) := run isNotQuote text
  let text ← literal? directiveEnd text
  let (inside, text) ← breakAt? endMark text
  match breakAt? elseMark inside with
  | some (yes, no) => some (⟨expression, yes, some no⟩, text)
  | none => some (⟨expression, inside, none⟩, text)

def header (form : IfForm) : List Char := ifStart ++ form.expression ++ directiveEnd

def source (form : IfForm) : List Char :=
  form.header ++ form.yes ++ (form.no.elim [] fun no => elseMark ++ no) ++ endMark

end IfForm

namespace IncludeForm

def keyword? (text : List Char) : Option (List Char × List Char) :=
  match literal? virtualWord text with
  | some rest => some (virtualWord, rest)
  | none => (literal? fileWord text).map (fileWord, ·)

def read? (text : List Char) : Option (IncludeForm × List Char) := do
  let text ← literal? includeStart text
  let (keyword, text) ← keyword? text
  let text ← literal? attributeStart text
  let (path, text) ← someRun? isNotQuote text
  let text ← literal? directiveEnd text
  some (⟨keyword, path⟩, text)

def source (form : IncludeForm) : List Char :=
  includeStart ++ form.keyword ++ attributeStart ++ form.path ++ directiveEnd

end IncludeForm

def readReference? (text : List Char) : Option (List Char × List Char) := do
  let text ← literal? referenceStart text
  let (name, text) ← someRun? isNotBrace text
  let text ← literal? referenceEnd text
  some (name, text)

def referenceSource (name : List Char) : List Char := referenceStart ++ name ++ referenceEnd

theorem eq_of_run (kind : Char → Bool) (text : List Char) :
    text = (run kind text).1 ++ (run kind text).2 :=
  List.takeWhile_append_dropWhile.symm

theorem eq_of_someRun? {kind : Char → Bool} {text before rest : List Char}
    (found : someRun? kind text = some (before, rest)) : text = before ++ rest := by
  simp only [someRun?] at found
  split at found
  · cases found
  · cases found
    exact eq_of_run kind text

theorem eq_of_escapedRun (text : List Char) : text = (escapedRun text).1 ++ (escapedRun text).2 := by
  fun_induction escapedRun text with
  | case1 | case2 | case4 => rfl
  | case3 c text value rest taken ih =>
    rw [taken] at ih
    simp [ih]
  | case5 c text _ _ _ value rest taken ih =>
    rw [taken] at ih
    simp [ih]

theorem SetForm.eq_of_read? {text rest : List Char} {form : SetForm}
    (found : read? text = some (form, rest)) : text = form.source ++ rest := by
  simp only [read?, Option.bind_eq_bind, Option.bind_eq_some_iff, Prod.exists] at found
  obtain ⟨text₁, start, name, text₂, named, text₃, middle, text₄, stop, pair⟩ := found
  cases pair
  have value := eq_of_escapedRun text₃
  rw [literal?_eq_some.1 stop] at value
  rw [literal?_eq_some.1 start, eq_of_someRun? named, literal?_eq_some.1 middle]
  simp only [source, List.append_assoc, List.append_cancel_left_eq]
  exact value

theorem eq_of_readEcho? {text name rest : List Char}
    (found : readEcho? text = some (name, rest)) : text = echoSource name ++ rest := by
  simp only [readEcho?, Option.bind_eq_bind, Option.bind_eq_some_iff, Prod.exists] at found
  obtain ⟨text₁, start, _, text₂, named, text₃, stop, pair⟩ := found
  cases pair
  rw [literal?_eq_some.1 start, eq_of_someRun? named, literal?_eq_some.1 stop]
  simp [echoSource]

theorem IfForm.eq_of_read? {text rest : List Char} {form : IfForm}
    (found : read? text = some (form, rest)) : text = form.source ++ rest := by
  simp only [read?, Option.bind_eq_bind, Option.bind_eq_some_iff, Prod.exists] at found
  obtain ⟨text₁, start, text₂, stop, inside, text₃, ended, found⟩ := found
  rw [literal?_eq_some.1 start, eq_of_run isNotQuote text₁, literal?_eq_some.1 stop,
    eq_of_breakAt? ended]
  split at found
  · next parted =>
    cases found
    rw [eq_of_breakAt? parted]
    simp [source, header]
  · cases found
    simp [source, header]

theorem IncludeForm.eq_of_keyword? {text keyword rest : List Char}
    (found : keyword? text = some (keyword, rest)) : text = keyword ++ rest := by
  simp only [keyword?] at found
  split at found
  · next matched =>
    cases found
    exact literal?_eq_some.1 matched
  · obtain ⟨_, matched, pair⟩ := Option.map_eq_some_iff.1 found
    cases pair
    exact literal?_eq_some.1 matched

theorem IncludeForm.eq_of_read? {text rest : List Char} {form : IncludeForm}
    (found : read? text = some (form, rest)) : text = form.source ++ rest := by
  simp only [read?, Option.bind_eq_bind, Option.bind_eq_some_iff, Prod.exists] at found
  obtain ⟨text₁, start, keyword, text₂, worded, text₃, attribute₁, path, text₄, named, text₅, stop,
    pair⟩ := found
  cases pair
  rw [literal?_eq_some.1 start, eq_of_keyword? worded, literal?_eq_some.1 attribute₁,
    eq_of_someRun? named, literal?_eq_some.1 stop]
  simp [source]

theorem eq_of_readReference? {text name rest : List Char}
    (found : readReference? text = some (name, rest)) : text = referenceSource name ++ rest := by
  simp only [readReference?, Option.bind_eq_bind, Option.bind_eq_some_iff, Prod.exists] at found
  obtain ⟨text₁, start, _, text₂, named, text₃, stop, pair⟩ := found
  cases pair
  rw [literal?_eq_some.1 start, eq_of_someRun? named, literal?_eq_some.1 stop]
  simp [referenceSource]

theorem setStart_ne_nil : setStart ≠ [] := by decide
theorem echoStart_ne_nil : echoStart ≠ [] := by decide
theorem ifStart_ne_nil : ifStart ≠ [] := by decide
theorem includeStart_ne_nil : includeStart ≠ [] := by decide
theorem referenceStart_ne_nil : referenceStart ≠ [] := by decide
theorem openStart_ne_nil : openStart ≠ [] := by decide

def sets : Pattern SetForm :=
  ⟨SetForm.read?, SetForm.source, fun _ => by simp [SetForm.source, setStart_ne_nil],
    SetForm.eq_of_read?⟩

def echoes : Pattern (List Char) :=
  ⟨readEcho?, echoSource, fun _ => by simp [echoSource, echoStart_ne_nil], eq_of_readEcho?⟩

def ifs : Pattern IfForm :=
  ⟨IfForm.read?, IfForm.source, fun _ => by simp [IfForm.source, IfForm.header, ifStart_ne_nil],
    IfForm.eq_of_read?⟩

def includes : Pattern IncludeForm :=
  ⟨IncludeForm.read?, IncludeForm.source,
    fun _ => by simp [IncludeForm.source, includeStart_ne_nil], IncludeForm.eq_of_read?⟩

def references : Pattern (List Char) :=
  ⟨readReference?, referenceSource, fun _ => by simp [referenceSource, referenceStart_ne_nil],
    eq_of_readReference?⟩

def opens : Pattern Unit := .ofLiteral openStart openStart_ne_nil

/-- The closing twin of a directive that is kept in the output. -/
def twin (directive : List Char) : List Char :=
  opens.replace (fun _ => "<!--#end-".toList) directive

end TwoPhase.Directive.Form
