import TwoPhase.NameMap
import TwoPhase.Number.Double

/-
The values of a TOML document. A table remembers how it came about, since that decides what may
still be added to it: between braces, by a header of its own, on the way of a header to a table
below, or by the dots of a key. An array of tables grows by headers only and has its latest
table first. A float without a number is an infinity or no number; a moment is a date, a time of
day or both, as written.
-/
namespace TwoPhase

inductive TableOrigin where
  | closed
  | header
  | implied
  | dotted
deriving DecidableEq

inductive Toml where
  | str (text : String)
  | int (value : Int)
  | float (value : Option Double)
  | bool (value : Bool)
  | moment (text : String)
  | arr (items : List Toml)
  | table (origin : TableOrigin) (fields : List (String × Toml))
  | tables (items : List (List (String × Toml)))

namespace Toml

abbrev Fields := List (String × Toml)

/-- Applies a change to the table at a path. Tables that are missing on the way are made with
the given origin, and the path enters an array of tables at its latest one. A dotted key does
not pass a table that has a header of its own. -/
def changeAt? (maker : TableOrigin) (change : TableOrigin → Fields → Option Fields) :
    TableOrigin → List String → Fields → Option Fields
  | origin, [], fields => change origin fields
  | _, key :: path, fields =>
    match Entries.get? key fields with
    | none =>
      (changeAt? maker change maker path []).map fun inner =>
        Entries.insert key (.table maker inner) fields
    | some (.table origin inner) =>
      if origin = .closed ∨ (maker = .dotted ∧ origin = .header) then none
      else
        (changeAt? maker change origin path inner).map fun inner =>
          Entries.insert key (.table origin inner) fields
    | some (.tables (latest :: earlier)) =>
      (changeAt? maker change .header path latest).map fun latest =>
        Entries.insert key (.tables (latest :: earlier)) fields
    | some _ => none

def addField? (key : String) (value : Toml) (fields : Fields) : Option Fields :=
  if (Entries.get? key fields).isNone then some (Entries.insert key value fields) else none

def assign? (path : List String) (key : String) (value : Toml) (fields : Fields) : Option Fields :=
  if path.isEmpty then addField? key value fields
  else
    changeAt? .dotted (fun origin inner =>
      if origin = .dotted then addField? key value inner else none) .header path fields

def openTable? (path : List String) (key : String) (fields : Fields) : Option Fields :=
  changeAt? .implied (fun _ inner =>
    match Entries.get? key inner with
    | none => some (Entries.insert key (.table .header []) inner)
    | some (.table .implied own) => some (Entries.insert key (.table .header own) inner)
    | some _ => none) .header path fields

def pushTable? (path : List String) (key : String) (fields : Fields) : Option Fields :=
  changeAt? .implied (fun _ inner =>
    match Entries.get? key inner with
    | none => some (Entries.insert key (.tables [[]]) inner)
    | some (.tables items) => some (Entries.insert key (.tables ([] :: items)) inner)
    | some _ => none) .header path fields

end Toml
end TwoPhase
