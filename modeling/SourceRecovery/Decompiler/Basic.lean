import SourceRecovery.Console.Output
import SourceRecovery.Project
import SourceRecovery.References

/-!
# Decompiling an image

A classified image is turned into a project: its directory is prepared, the embedded libraries are
written into it, the decompiler does its job, and the project file is fixed up.
-/

namespace SourceRecovery

variable [Stream]

/-- A decompiler does a job and reports each file that it writes. -/
abbrev Decompiler := Job → Action Unit

/-- The decompiler checks the references of an image through its resolver. -/
def Resolver.verify (r : Resolver) (names : List String) : Action (List String) := do
  let w ← get
  Action.ofExcept Fault.unresolved (r.check w.tree w.directory names)

namespace Decompiler

/-- The directory of a project that holds the embedded libraries. -/
def referencesName : String := "references"

def projectPath (output name : String) : String := Path.join output (name ++ ".csproj")

/-- Fix up the project file in a directory, and give its path. -/
def fixUpProject (output name : String) : Action String := do
  let p := projectPath output name
  let text ← Files.readText p
  Files.write p (Text.encode (Project.fixUp text))
  return p

/-- Whether a directory holds a file directly. -/
def holdsFile (t : FileTree) (place : List String) : Bool :=
  (t.below place).any fun (components, node) =>
    components.length = 1 && match node with
      | .file _ => true
      | .directory => false

/-- Whether the directory that a path leads to holds a file directly. -/
def isOccupied (output : String) : Action Bool :=
  Files.inspect fun t cwd =>
    match t.locate cwd output with
    | .ok spot => holdsFile t spot.place
    | .error _ => false

def reuseQuestion (cwd : List String) (output : String) : String :=
  s!"{Path.absolute cwd output} is not empty! Continue?"

/-- Make the directory for a project. One that holds files already is used only if that is
confirmed. -/
def prepare (output : String) (confirm : String → Action Bool) : Action Unit := do
  if ← Files.isDirectory output then
    if ← isOccupied output then
      unless ← confirm (reuseQuestion (← get).directory output) do
        throw (.declined output)
  else Files.makeDirectories output false

/-- The resolver for a project: it searches the working directory, the embedded libraries and
some more directories. -/
def resolverFor (cwd : List String) (references : String) (more : List String)
    (tolerant : Bool) : Resolver :=
  Resolver.ofDirectories cwd (Path.ofComponents cwd :: references :: more) (!tolerant)

structure Options where
  /-- The directory for the project; by default it is named after the identity. -/
  output : Option String
  tolerant : Bool
  /-- More directories in which references are looked for. -/
  search : List String

def Options.standard : Options := ⟨none, false, []⟩

/-- Let a decompiler do a job between two looks at the clock: how long it took, and how many files
are reported by then. -/
def measured (decompiler : Decompiler) (job : Job) : Action (Int × Nat) := do
  Console.line ""
  Console.step "Start decompiling..."
  let start ← World.readClock
  World.note (.decompiling job)
  decompiler job
  let stop ← World.readClock
  return (stop - start, (← get).meter.completed)

/-- Let a decompiler do a job with a count of its own: how long it took, and how many files it
reported. The progress bar is closed however it ends. -/
def timed (decompiler : Decompiler) (job : Job) : Action (Int × Nat) := do
  let former := (← get).meter
  modify fun w => { w with meter := .fresh }
  try
    try measured decompiler job
    finally Console.finishProgress ""
  finally modify fun w => { w with meter := former }

def summarize (output project : String) (milliseconds : Int) (files references : Nat) :
    Action Unit := do
  let p ← Console.palette
  Console.line ""
  let took := Figures.duration (milliseconds.tdiv 1000)
  Console.info s!"{p.green}Complete. Took {took}{p.plain}"
  Console.line s!"  Output:       {← Files.absolute output}"
  Console.line s!"  Project:      {Path.name project}"
  Console.line s!"  Source files: {files}"
  Console.line s!"  References:   {references}"
  Console.line ""

/-- Whether the directory for a project is ready to be used: not if the operator declined. -/
def admits (output : String) (confirm : String → Action Bool) : Action Bool := do
  try
    prepare output confirm
    pure true
  catch
    | .declined _ => pure false
    | fault => throw fault

/-- Decompile a classified image into a directory that is ready: the milliseconds that the
decompiler took. -/
def fill (reader : ImageReader) (decompiler : Decompiler) (i : Identity) (o : Options)
    (output : String) : Action Int := do
  let references := Path.join output referencesName
  Files.makeDirectories references true
  let count ← References.extract reader i references
  Console.info s!"Extracted {count} embedded references to {references}"
  let resolver := resolverFor (← get).directory references o.search o.tolerant
  let (took, files) ← timed decompiler ⟨i.image, i.name, output, resolver⟩
  let project ← fixUpProject output i.name
  summarize output project took files count
  return took

/-- The directory for the project of an image. -/
def Options.directoryFor (o : Options) (i : Identity) : String := o.output.getD i.directoryName

/-- Go on once it is decided whether the directory is used: decompile the image, or leave it. -/
def proceed (reader : ImageReader) (decompiler : Decompiler) (i : Identity) (o : Options)
    (output : String) (admitted : Bool) : Action (Option Int) := do
  if admitted then
    return some (← fill reader decompiler i o output)
  else
    Console.warn "Skipped, output directory left untouched"
    return none

/-- Decompile a classified image: the milliseconds that the decompiler took, or none where the
operator declined to use the directory. -/
def run (reader : ImageReader) (decompiler : Decompiler) (confirm : String → Action Bool)
    (i : Identity) (o : Options) : Action (Option Int) := do
  let output := o.directoryFor i
  proceed reader decompiler i o output (← admits output confirm)

end Decompiler

end SourceRecovery
