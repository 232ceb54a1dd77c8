import SourceRecovery.CommandLine.Run
import SourceRecovery.Image.Metadata

/-!
# The program

The command line, run on a world made of the files that it names, the lines of the input, and the
working directory, with a reader for images. What the run writes is printed in UTF-8, and the files
that it makes are put where they belong. No address and no other program is reached from here.
-/

namespace SourceRecovery.Program

/-- The content of a file, if it can be read. -/
def contentOf (path : String) : IO (Option Bytes) := do
  try return some (← IO.FS.readBinFile path).toList
  catch _ => return none

/-- The lines of the input, without their line feeds. -/
def inputLines : IO (List String) := do
  let text ← (← IO.getStdin).readToEnd
  return (Text.lines text.toList).map fun l => String.ofList (l.filter (· ≠ '\n'))

/-- The paths that a command line names for reading. -/
def inputPaths (words : List String) : List String :=
  match CommandLine.Request.read words with
  | .ok (.run o) => o.targets ++ o.catalog.toList
  | _ => []

/-- A tree with a file at a path that is seen from a working directory. -/
def withFile (t : FileTree) (cwd : List String) (path : String) (data : Bytes) : FileTree :=
  t.apply (Path.origin cwd path) (.file path ⟨data, false, 0⟩)

/-- The world of a run: the files that are named on its command line, and nothing else. -/
def worldOf (cwd : List String) (files : List (String × Bytes)) (answers : List String)
    (colored : Bool) : World :=
  { tree := files.foldl (fun t (path, data) => withFile t cwd path data)
      ((FileTree.ensure ⟨[]⟩ ["tmp"]).ensure cwd)
    directory := cwd
    programs := []
    console := ⟨"", colored, false⟩
    meter := .fresh
    answers := answers.map some
    network := []
    addressProblem := Address.problem?
    clock := []
    processes := []
    now := 0
    journal := [] }

/-- Put what a run made, but did not find, where it belongs. -/
def store (before after : FileTree) : IO Unit := do
  for (place, node) in after.entries.reverse do
    if before.get? place ≠ some node then
      match node with
      | .directory => IO.FS.createDirAll (Path.ofComponents place)
      | .file f =>
        IO.FS.createDirAll (Path.ofComponents place.dropLast)
        IO.FS.writeBinFile (Path.ofComponents place) ⟨f.data.toArray⟩

def run (reader : ImageReader) (words : List String) : IO UInt32 := do
  let cwd := Path.components (toString (← IO.currentDir))
  let files ← (inputPaths words).filterMapM fun p => return (← contentOf p).map fun d => (p, d)
  let world := worldOf cwd files (← inputLines) (← (← IO.getStdout).isTty)
  match (@CommandLine.run .utf8 .blank reader words).run world with
  | .ok ending after =>
    IO.print after.console.output
    store world.tree after.tree
    ending.complaint.forM IO.eprintln
    return .ofNat ending.exit
  | .error fault after =>
    IO.print after.console.output
    store world.tree after.tree
    IO.eprintln fault.message
    return 1

end SourceRecovery.Program

def main (words : List String) : IO UInt32 :=
  SourceRecovery.Program.run SourceRecovery.Image.open_ words
