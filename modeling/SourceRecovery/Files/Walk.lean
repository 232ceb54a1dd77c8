import SourceRecovery.Files.Tree

/-!
# Walking through directories

A directory lists the names of the nodes in it, and of the links in it that lead nowhere. A walk
goes through a directory and all that are below it, and meets every name that leads to no directory.
-/

namespace SourceRecovery

/-- Whether a file can have a name. -/
def Path.isFileName (name : String) : Bool :=
  name ≠ "" && name ≠ "." && name ≠ ".." && !name.toList.contains '/' && (Path.accept name).isOk

namespace FileTree

variable (t : FileTree) (links : List (List String))

/-- The places that have a name in the directory that holds them. -/
def listed : List (List String) := t.entries.map (·.1) ++ links

/-- The names that a directory lists. -/
def names (place : List String) : List String :=
  ((t.listed links).filterMap fun q =>
    q.getLast?.filter fun name => q.dropLast = place && Path.isFileName name).eraseDups

/-- A bound on the number of names that lead to a place that has one. -/
def depth : Nat := ((t.listed links).map List.length).foldr (· + ·) 0

/-- Walk through a directory: the names that lead on from it to all that is no directory. The number
bounds them. -/
def walk : Nat → List String → List (List String)
  | 0, _ => []
  | bound + 1, place => (t.names links place).flatMap fun name =>
    match t.get? (place ++ [name]) with
    | some .directory => (walk bound (place ++ [name])).map (name :: ·)
    | _ => [[name]]

end FileTree

end SourceRecovery
