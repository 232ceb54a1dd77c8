import SourceRecovery.Files.Operations
import SourceRecovery.Files.Walk

/-!
# Source files

The source files below a directory, in the order of their paths, and when they were written.
-/

namespace SourceRecovery.Sources

def extension : String := ".cs"

/-- Whether the last of some components names a source file. -/
def isSource (components : List String) : Bool :=
  match components.getLast? with
  | some name => extension.toList.isSuffixOf name.toList
  | none => false

/-- The paths of the source files below a directory, seen from there and in the order of texts. -/
def below (t : FileTree) (links : List (List String)) (place : List String) : List String :=
  (((t.walk links (t.depth links) place).filter isSource).map "/".intercalate).mergeSort
    fun a b => !Text.precedes b a

/-- The paths of the source files below the directory that a path leads to; there are none where it
leads to no directory. -/
def search (links : List (List String)) (p : String) (t : FileTree) (cwd : List String) :
    Except FileProblem (List String) :=
  match t.locate cwd p with
  | .ok spot => .ok (if spot.node = some .directory then below t links spot.place else [])
  | .error .cutPath => .error .cutPath
  | .error .unencodable => .error .unencodable
  | .error _ => .ok []

def find (p : String) : Action (List String) := do
  Files.obtain p (search (← get).links p)

/-- A path below a directory with the moment at which its file was written, unless there is none. -/
def dated (directory path : String) : Action (Option (String × Int)) := do
  try
    let moment ← Files.modified (Path.join directory path)
    pure (some (path, moment))
  catch
    | .file .notFound _ _ => pure none
    | fault => throw fault

/-- The source files below the directory that a path leads to, and when they were written. -/
def snapshot (p : String) : Action (List (String × Int)) := do
  (← find p).filterMapM (dated p)

end SourceRecovery.Sources
