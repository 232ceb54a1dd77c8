import SourceRecovery.Decompiler.Basic
import SourceRecovery.Sources

/-!
# The external decompiler

A decompiler that runs as a program of its own. While it runs, the source files that it writes are
reported, each once; when it fails, the end of its log tells why.
-/

namespace SourceRecovery.External

variable [Stream]

structure Settings where
  executable : String
  arguments : List String
  deriving DecidableEq, Repr

def defaultExecutable : String := "ilspycmd"

/-- The directory that holds the image and the log while the program runs. -/
def temporaryDirectory : String := "/tmp/sourcegetter_imagetmp"

/-- The number of lines of the log that a failure shows. -/
def logTail : Int := 20

/-- The last lines of a log; there are none where it cannot be read. -/
def readLogTail (p : String) (count : Int) : Action String := do
  try
    let bs ← Files.read p
    let cs := Text.unifyNewlineChars (Text.readableChars bs)
    return String.ofList (Text.tail count cs)
  catch
    | .file problem path target =>
      if problem.isSystem then return "" else throw (.file problem path target)
    | fault => throw fault

def locate (executable : String) : Action String := do
  match ← Files.findProgram executable with
  | some p => return p
  | none => throw (.decompiler (.notInstalled executable))

def command (s : Settings) (program image output : String) (r : Resolver) : List String :=
  [program, "-p", "-o", output] ++ r.directories.flatMap (fun d => ["-r", d]) ++ s.arguments ++
    [image]

/-- The source files that are new or changed since a former snapshot and not reported yet. -/
def fresh (baseline : List (String × Int)) (reported : List String)
    (current : List (String × Int)) : List String :=
  (current.filter fun (path, modified) =>
    !reported.contains path && baseline.lookup path ≠ some modified).map (·.1)

/-- Report the new and changed source files, and give all that are reported by now. -/
def reportFresh (output : String) (baseline : List (String × Int)) (total : Int)
    (reported : List String) : Action (List String) := do
  let found := fresh baseline reported (← Sources.snapshot output)
  found.forM (Console.report total)
  return reported ++ found

/-- Let the program make changes below its output directory. -/
def perform (place : List String) (changes : List FileTree.Change) : Action Unit :=
  modify fun w => { w with tree := changes.foldl (fun t c => t.apply place c) w.tree }

/-- Look at the program again and again until it has ended, reporting what it wrote each time;
`after` is done at its end. -/
def watch (report : List String → Action (List String)) (place : List String)
    (after : Action Unit) : List (List FileTree.Change) → List String → Action Unit
  | [], reported => do
    after
    discard (report reported)
  | changes :: rest, reported => do
    perform place changes
    if rest.isEmpty then after
    let reported ← report reported
    if rest.isEmpty then return
    watch report place after rest reported

/-- Wait for the program to end, reporting what it writes; the end of its log tells why it
failed. -/
def await (output : String) (baseline : List (String × Int)) (total : Int) (place : List String)
    (log : String) (run : ProcessRun) : Action Unit := do
  watch (reportFresh output baseline total) place (Files.extend log run.log) run.polls []
  if run.exit ≠ 0 then
    throw (.decompiler (.failed run.exit (← readLogTail log logTail)))

/-- Run the program on an image that is written to the temporary directory. It is started only if
the system takes every word of its command. -/
def runProgram (s : Settings) (program : String) (total : Int) (job : Job) : Action Unit := do
  let image := Path.join temporaryDirectory (job.name ++ ".exe")
  let log := Path.join temporaryDirectory "ilspycmd.log"
  Files.write image job.image
  let output ← Files.absolute job.output
  let words := command s program image output job.resolver
  let baseline ← Sources.snapshot job.output
  Files.write log []
  Files.give words
  World.note (.started words (← Files.read image))
  await job.output baseline total (Path.components output) log (← World.nextProcess)

/-- Remove the temporary directory, if it is there. -/
def cleanUp : Action Unit := do
  if ← Files.isDirectory temporaryDirectory then Files.removeAll temporaryDirectory

/-- Do a job with the program. It is not started unless it is found, the image can be read and
its references resolve; the temporary directory is removed however the job ends. -/
def decompiler (reader : ImageReader) (s : Settings) : Decompiler := fun job => do
  let program ← locate s.executable
  let view ← Action.ofExcept Fault.image (reader job.image)
  discard (job.resolver.verify view.references)
  let total : Int := max 1 view.typeNames.length
  Files.makeDirectory temporaryDirectory
  try runProgram s program total job finally cleanUp

end SourceRecovery.External
