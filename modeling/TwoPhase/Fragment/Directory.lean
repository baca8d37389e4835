import TwoPhase.Evaluation
import TwoPhase.FileTree

/-
Fragments kept as files below a directory. An include path names a file relative to it, or a
directory that stands for its index. A path that leads upwards at any point, even back
again, names nothing.
-/
namespace TwoPhase

structure FragmentDirectory where
  files : FileSystem
  root : String

namespace FragmentDirectory

def indexName : String := "index.html"

def relative (path : String) : String := String.ofList (path.toList.dropWhile (· = '/'))

/-- Neither two dots anywhere nor a single dot at the start; other single dots mean nothing. -/
def staysBelow (path : String) : Bool :=
  let segments := segmentsOf path
  !segments.contains ".." && segments.head? ≠ some "."

def fileFor? (directory : FragmentDirectory) (path : String) : Option String :=
  let below := relative path
  if staysBelow below then
    let file := joinPath directory.root below
    if path.toList.getLast? = some '/' || directory.files.isDirectory file then
      some (joinPath file indexName)
    else some file
  else none

def candidates (directory : FragmentDirectory) (path : String) : List String :=
  let file := joinPath directory.root (relative path)
  [file, joinPath file indexName]

def serve (directory : FragmentDirectory) (ctx : RequestContext) (opened : List String) :
    Except Failure String × List String :=
  match (directory.fileFor? ctx.path).filter directory.files.isFile with
  | none => (fail (.includeNotFound ctx.fullPath), opened)
  | some file =>
    match directory.files.read? file with
    | some text => (.ok text, opened ++ [file])
    | none => (.error ⟨.io, ["Failed to read " ++ file]⟩, opened ++ [file])

def sources (directory : FragmentDirectory) : Sources (List String) where
  lookup _ opened := (none, opened)
  dispatch := directory.serve

end FragmentDirectory
end TwoPhase
