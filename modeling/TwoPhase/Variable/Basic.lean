import TwoPhase.Directive.Basic
import TwoPhase.Sha256

/-
Variables: values computed when a page is served. A variable names a computation by its path
and gives it arguments; its identifier is the hash of that definition unless it was chosen
by hand. An expectation stands for the eventual value of another variable, so the
identifier of a variable that holds one is provisional.
-/
namespace TwoPhase

mutual
/-- The named arguments are meant in ascending order of their names. -/
structure Variable where
  path : String
  positional : List Arg
  named : List (String × Arg)
  identifier : String
inductive Arg where
  | value (json : Json)
  | nested (inner : Variable)
  | expect (target : String)
end

def variableTag : String := "__var__"

def expectTag : String := "__expect__"

def definitionOf (path : String) (positional : List Json) (named : List (String × Json)) : Json :=
  if !named.isEmpty then .arr [.str path, .arr positional, .obj named]
  else if !positional.isEmpty then .arr [.str path, .arr positional]
  else .arr [.str path]

/-- The letter v and the first 32 hexadecimal digits of the digest of the compact text. -/
def identifierOf (definition : Json) : String :=
  String.ofList ('v' :: Sha256.hex ((Sha256.digest definition.text.toUTF8.data.toList).take 16))

mutual
def Variable.definition : Variable → Json
  | ⟨path, positional, named, _⟩ => definitionOf path (positionalJson positional) (namedJson named)
/-- Nested variables and expectations are objects with one tag. -/
def Arg.toJson : Arg → Json
  | .value json => json
  | .nested inner => .obj [(variableTag, inner.definition)]
  | .expect target => .obj [(expectTag, .str target)]
def positionalJson : List Arg → List Json
  | [] => []
  | arg :: rest => arg.toJson :: positionalJson rest
def namedJson : List (String × Arg) → List (String × Json)
  | [] => []
  | (name, arg) :: rest => (name, arg.toJson) :: namedJson rest
end

theorem positionalJson_eq_map (args : List Arg) : positionalJson args = args.map Arg.toJson := by
  induction args with
  | nil => rfl
  | cons arg rest ih => simp [positionalJson, ih]

theorem namedJson_eq_map (args : List (String × Arg)) :
    namedJson args = args.map fun entry => (entry.1, entry.2.toJson) := by
  induction args with
  | nil => rfl
  | cons arg rest ih => simp [namedJson, ih]

mutual
def Variable.expectations : Variable → List String
  | ⟨_, positional, named, _⟩ => positionalExpectations positional ++ namedExpectations named
def Arg.expectations : Arg → List String
  | .value _ => []
  | .nested inner => inner.expectations
  | .expect target => [target]
def positionalExpectations : List Arg → List String
  | [] => []
  | arg :: rest => arg.expectations ++ positionalExpectations rest
def namedExpectations : List (String × Arg) → List String
  | [] => []
  | (_, arg) :: rest => arg.expectations ++ namedExpectations rest
end

mutual
/-- Structural equality of path, arguments and identifiers; the two zeros of a float agree. -/
def Variable.agrees : Variable → Variable → Bool
  | ⟨path, positional, named, identifier⟩, ⟨path', positional', named', identifier'⟩ =>
    path = path' && positionalAgree positional positional' && namedAgree named named' &&
      identifier = identifier'
def Arg.agrees : Arg → Arg → Bool
  | .value a, .value b => a.agrees b
  | .nested a, .nested b => a.agrees b
  | .expect a, .expect b => a = b
  | _, _ => false
def positionalAgree : List Arg → List Arg → Bool
  | [], [] => true
  | a :: as, b :: bs => a.agrees b && positionalAgree as bs
  | _, _ => false
def namedAgree : List (String × Arg) → List (String × Arg) → Bool
  | [], [] => true
  | (name, a) :: as, (other, b) :: bs => name = other && a.agrees b && namedAgree as bs
  | _, _ => false
end

namespace Arg

def str (text : String) : Arg := .value (.str text)

def value? : Arg → Option Json
  | .value json => some json
  | _ => none

end Arg

namespace Variable

def ofParts (path : String) (positional : List Arg) (named : List (String × Arg)) : Variable :=
  ⟨path, positional, named,
    identifierOf (definitionOf path (positionalJson positional) (namedJson named))⟩

def ofPath (path : String) : Variable := ofParts path [] []

def addPositional (v : Variable) (arg : Arg) : Variable :=
  ofParts v.path (v.positional ++ [arg]) v.named

def setNamed (v : Variable) (name : String) (arg : Arg) : Variable :=
  ofParts v.path v.positional (Entries.insert name arg v.named)

def rename (v : Variable) (identifier : String) : Variable := { v with identifier }

def rehash (v : Variable) : Variable := ofParts v.path v.positional v.named

def isConcrete (v : Variable) : Bool := v.expectations.isEmpty

def plainArguments? (v : Variable) : Option (List Json × List (String × Json)) := do
  let positional ← v.positional.mapM Arg.value?
  let named ← v.named.mapM fun (name, arg) => arg.value?.map (name, ·)
  return (positional, named)

def describe (v : Variable) : String := v.identifier ++ " " ++ v.definition.text

def echo (v : Variable) : String := Directive.echo v.identifier

def reference (v : Variable) : String := Directive.reference v.identifier

def ifOpen (v : Variable) : String := Directive.ifOpen v.reference

end Variable
end TwoPhase
