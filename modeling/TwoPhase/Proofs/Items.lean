import TwoPhase.Evaluation
import TwoPhase.Proofs.Marks

/-
Documents as lists of items, and what they mean. All sets count first, also those in
branches; then every echo has its value, also in a branch not taken; then ifs choose; then
includes are evaluated from left to right. A document is a list whose items cannot be
mistaken for others once they are written out: no mark that a pass looks for begins in a
text, a value, an expression or a path.
-/
namespace TwoPhase.Markup
open Evaluation Directive.Form

inductive Part where
  | literal (content : String)
  | reference (name : String)

structure Template where
  parts : List Part

inductive Leaf where
  | text (content : String)
  | set (name value : String)
  | echo (name : String)
  | fragment (path : Template)

/-- Blocks do not nest. -/
inductive Item where
  | leaf (content : Leaf)
  | block (expression : Template) (yes : List Leaf) (no : Option (List Leaf))

def Part.source : Part → String
  | literal content => content
  | reference name => Directive.reference name

def Template.source (template : Template) : String := joined "" (template.parts.map Part.source)

def Leaf.source : Leaf → String
  | text content => content
  | set name value => Directive.set name (.str value)
  | echo name => Directive.echo name
  | fragment path => Directive.includeFile path.source

def Item.source : Item → String
  | leaf content => content.source
  | block expression yes no =>
    Directive.ifOpen expression.source ++ joined "" (yes.map Leaf.source) ++
      (no.elim "" fun no => Directive.elseMark ++ joined "" (no.map Leaf.source)) ++ Directive.endMark

def source (items : List Item) : String := joined "" (items.map Item.source)

section Evaluation
variable {σ : Type}

def Part.evaluate (place : String) : Part → Evaluation σ (List Char)
  | literal content => return content.toList
  | reference name => Evaluation.lookup place name.toList

def Template.evaluate (place : String) (template : Template) : Evaluation σ (List Char) := do
  let parts ← template.parts.mapM (Part.evaluate place)
  return parts.flatten

def Leaf.bind : Leaf → Evaluation σ Unit
  | set name value => Evaluation.bind name value
  | _ => return

def Item.bind : Item → Evaluation σ Unit
  | leaf content => content.bind
  | block _ yes no => do
    yes.forM Leaf.bind
    (no.getD []).forM Leaf.bind

/-- What is left of a leaf once its sets and echoes are evaluated. -/
inductive Piece where
  | text (content : List Char)
  | fragment (path : Template)

def Leaf.show : Leaf → Evaluation σ (List Piece)
  | text content => return [.text content.toList]
  | set _ _ => return []
  | echo name => return [.text (← Evaluation.lookup "echo" name.toList)]
  | fragment path => return [.fragment path]

inductive Shown where
  | pieces (content : List Piece)
  | block (expression : Template) (yes : List Piece) (no : Option (List Piece))

def Item.show : Item → Evaluation σ Shown
  | leaf content => return .pieces (← content.show)
  | block expression yes none => return .block expression (← yes.mapM Leaf.show).flatten none
  | block expression yes (some no) => do
    let yes ← yes.mapM Leaf.show
    let no ← no.mapM Leaf.show
    return .block expression yes.flatten (some no.flatten)

def Shown.choose : Shown → Evaluation σ (List Piece)
  | pieces content => return content
  | block expression yes no => do
    let value ← expression.evaluate "if expression"
    return if value.isEmpty then no.getD [] else yes

def Piece.fetch (included : List Char → Evaluation σ (List Char)) : Piece → Evaluation σ (List Char)
  | text content => return content
  | fragment path => do included (← path.evaluate "include path")

def evaluateWith (included : List Char → Evaluation σ (List Char)) (items : List Item) :
    Evaluation σ (List Char) := do
  items.forM Item.bind
  let shown ← items.mapM Item.show
  let pieces ← shown.mapM Shown.choose
  let texts ← pieces.flatten.mapM (Piece.fetch included)
  return texts.flatten

end Evaluation

/-- No occurrence of the mark begins in the text when the rest follows it. -/
def AvoidsBefore (mark rest : List Char) : List Char → Prop
  | [] => True
  | c :: text => ¬ mark <+: c :: text ++ rest ∧ AvoidsBefore mark rest text

/-- A reference is read where one stands and nowhere else. -/
def Template.ReadsBack : List Part → Prop
  | [] => True
  | .literal content :: rest =>
    AvoidsBefore referenceStart (joined "" (rest.map Part.source)).toList content.toList ∧
      ReadsBack rest
  | .reference name :: rest => name ≠ "" ∧ '\x7d' ∉ name.toList ∧ ReadsBack rest

structure Template.WellFormed (template : Template) : Prop where
  unquoted : '\'' ∉ template.source.toList
  readsBack : ReadsBack template.parts

structure NameFormed (name : String) : Prop where
  nonempty : name ≠ ""
  unquoted : '\'' ∉ name.toList

def includeMarks : List (List Char) := [fileStart, virtualStart]

def outerMarks : List (List Char) := [setStart, echoStart, ifStart]
def yesMarks : List (List Char) := [setStart, echoStart, elseMark, endMark]
def noMarks : List (List Char) := [setStart, echoStart, endMark]

/-- What is still looked for when a value has been written out. -/
def valueMarks : List (List Char) := [ifStart, elseMark, endMark] ++ includeMarks

/-- The closing quote of an attribute counts, since a mark may end in it. -/
def Leaf.WellFormed (marks : List (List Char)) : Leaf → Prop
  | text content => Clean (marks ++ includeMarks) content.toList
  | set name value => NameFormed name ∧ Clean valueMarks value.toList
  | echo name => NameFormed name
  | fragment path =>
    path.WellFormed ∧ path.source ≠ "" ∧ Clean marks (path.source.toList ++ ['\''])

def Item.WellFormed : Item → Prop
  | leaf content => content.WellFormed outerMarks
  | block expression yes no =>
    expression.WellFormed ∧ Clean [setStart, echoStart] (expression.source.toList ++ ['\'']) ∧
      (∀ leaf ∈ yes, leaf.WellFormed yesMarks) ∧ ∀ leaf ∈ no.getD [], leaf.WellFormed noMarks

section Deciding

def decideAvoidsBefore (mark rest : List Char) :
    (text : List Char) → Decidable (AvoidsBefore mark rest text)
  | [] => isTrue trivial
  | c :: text =>
    have := decideAvoidsBefore mark rest text
    inferInstanceAs (Decidable (¬ mark <+: c :: text ++ rest ∧ AvoidsBefore mark rest text))

instance (mark rest : List Char) : DecidablePred (AvoidsBefore mark rest) :=
  decideAvoidsBefore mark rest

def decideReadsBack : (parts : List Part) → Decidable (Template.ReadsBack parts)
  | [] => isTrue trivial
  | .literal content :: rest =>
    have := decideReadsBack rest
    inferInstanceAs (Decidable (AvoidsBefore referenceStart
      (joined "" (rest.map Part.source)).toList content.toList ∧ Template.ReadsBack rest))
  | .reference name :: rest =>
    have := decideReadsBack rest
    inferInstanceAs (Decidable (name ≠ "" ∧ '\x7d' ∉ name.toList ∧ Template.ReadsBack rest))

instance : DecidablePred Template.ReadsBack := decideReadsBack

instance : DecidablePred Template.WellFormed := fun template =>
  decidable_of_iff ('\'' ∉ template.source.toList ∧ Template.ReadsBack template.parts)
    ⟨fun both => ⟨both.1, both.2⟩, fun formed => ⟨formed.unquoted, formed.readsBack⟩⟩

instance : DecidablePred NameFormed := fun name =>
  decidable_of_iff (name ≠ "" ∧ '\'' ∉ name.toList)
    ⟨fun both => ⟨both.1, both.2⟩, fun formed => ⟨formed.nonempty, formed.unquoted⟩⟩

instance (marks : List (List Char)) : DecidablePred (Leaf.WellFormed marks)
  | .text content => inferInstanceAs (Decidable (Clean (marks ++ includeMarks) content.toList))
  | .set name value =>
    inferInstanceAs (Decidable (NameFormed name ∧ Clean valueMarks value.toList))
  | .echo name => inferInstanceAs (Decidable (NameFormed name))
  | .fragment path => inferInstanceAs (Decidable (path.WellFormed ∧ path.source ≠ "" ∧
      Clean marks (path.source.toList ++ ['\''])))

instance : DecidablePred Item.WellFormed
  | .leaf content => inferInstanceAs (Decidable (content.WellFormed outerMarks))
  | .block expression yes no => inferInstanceAs (Decidable (expression.WellFormed ∧
      Clean [setStart, echoStart] (expression.source.toList ++ ['\'']) ∧
      (∀ leaf ∈ yes, leaf.WellFormed yesMarks) ∧ ∀ leaf ∈ no.getD [], leaf.WellFormed noMarks))

end Deciding

structure Document where
  items : List Item
  wellFormed : ∀ item ∈ items, item.WellFormed

/-- Sources whose fragments are documents. -/
structure Library (σ : Type) where
  lookup : String → σ → Option Document × σ
  dispatch : RequestContext → σ → Except Failure Document × σ

namespace Library
variable {σ : Type} (library : Library σ) (ctx : RequestContext) (maxDepth : Nat)

def empty : Library Unit where
  lookup _ state := (none, state)
  dispatch ctx state := (fail (.includeNotFound ctx.fullPath), state)

def sources : Sources σ where
  lookup path state :=
    let (hit, state) := library.lookup path state
    (hit.map fun fragment => source fragment.items, state)
  dispatch ctx state :=
    let (outcome, state) := library.dispatch ctx state
    (outcome.map fun fragment => source fragment.items, state)

def fetch (level : Nat) (path : String) : Evaluation σ Document := do
  visit (.lookup level path)
  match ← share (library.lookup path) with
  | some cached => return cached
  | none =>
    let inner := ctx.atLocation path
    visit (.dispatch level inner)
    match ← share (library.dispatch inner) with
    | .ok fragment => return fragment
    | .error failure => throw (failure.within ("Failed to include " ++ path))

def evaluate : Nat → List Item → Evaluation σ (List Char)
  | 0, items => evaluateWith (fun path =>
      throw (.ofFault (.includeDepthExceeded (String.ofList path) maxDepth))) items
  | levels + 1, items => evaluateWith (fun path => do
      let fragment ← library.fetch ctx (maxDepth - (levels + 1)) (String.ofList path)
      evaluate levels fragment.items) items

def evaluateItems (items : List Item) (shared : σ) : Except Failure String × Session σ :=
  let (outcome, session) := (library.evaluate ctx maxDepth maxDepth items).run.run { shared }
  (outcome.map String.ofList, session)

end Library
end TwoPhase.Markup
