import TwoPhase.NameMap
import TwoPhase.Path

/-
A file system as data. A path is walked one segment at a time: an empty segment or a single
dot stays, two dots lead to the directory above, and every step starts from a directory.
There are no links, so a place in the tree has one name.
-/
namespace TwoPhase

inductive FileTree where
  /-- Without a text if the content cannot be read as one. -/
  | file (text : Option String)
  | directory (entries : List (String × FileTree))

namespace FileTree

def child? (name : String) : FileTree → Option FileTree
  | file _ => none
  | directory entries => Entries.get? name entries

def at? (tree : FileTree) : List String → Option FileTree
  | [] => some tree
  | name :: place => (tree.child? name).bind (at? · place)

def entriesOf : Option FileTree → List (String × FileTree)
  | some (directory entries) => entries
  | _ => []

def change (f : Option FileTree → FileTree) : List String → Option FileTree → FileTree
  | [], old => f old
  | name :: place, old =>
    let entries := entriesOf old
    directory (Entries.insert name (change f place (Entries.get? name entries)) entries)

end FileTree

structure FileSystem where
  top : FileTree := .directory []
  current : List String := []

namespace FileSystem

def step? (fs : FileSystem) (place : List String) (segment : String) : Option (List String) :=
  match fs.top.at? place with
  | some (.directory entries) =>
    if segment = "" ∨ segment = "." then some place
    else if segment = ".." then some place.dropLast
    else if (Entries.get? segment entries).isSome then some (place ++ [segment])
    else none
  | _ => none

/-- The place a path leads to; the empty path leads nowhere. -/
def place? (fs : FileSystem) (path : String) : Option (List String) :=
  if path = "" then none
  else
    (segmentsOf path).foldlM fs.step? (if path.toList.head? = some '/' then [] else fs.current)

def find? (fs : FileSystem) (path : String) : Option FileTree :=
  (fs.place? path).bind fs.top.at?

def put (fs : FileSystem) (path : String) (text : Option String) : FileSystem :=
  let walk := fun (walked : FileTree × List String) segment =>
    let (top, place) := walked
    let top := FileTree.change (fun old => .directory (FileTree.entriesOf old)) place (some top)
    if segment = "" ∨ segment = "." then (top, place)
    else if segment = ".." then (top, place.dropLast)
    else (top, place ++ [segment])
  let (top, place) := (segmentsOf path).foldl walk
    (fs.top, if path.toList.head? = some '/' then [] else fs.current)
  { fs with top := FileTree.change (fun _ => .file text) place (some top) }

def pathExists (fs : FileSystem) (path : String) : Bool := (fs.find? path).isSome

def isDirectory (fs : FileSystem) (path : String) : Bool :=
  match fs.find? path with
  | some (.directory _) => true
  | _ => false

def isFile (fs : FileSystem) (path : String) : Bool :=
  match fs.find? path with
  | some (.file _) => true
  | _ => false

def read? (fs : FileSystem) (path : String) : Option String :=
  match fs.find? path with
  | some (.file text) => text
  | _ => none

end FileSystem
end TwoPhase
