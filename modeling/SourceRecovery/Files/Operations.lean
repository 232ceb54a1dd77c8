import SourceRecovery.Text.Line
import SourceRecovery.World

/-!
# Operations on files

The changes that a run makes to its files. A refusal by the system stops the run with a fault that
names the path as it was given.
-/

namespace SourceRecovery.Files

/-- Ask something of the files, seen from the working directory. -/
def inspect {α : Type} (f : FileTree → List String → α) : Action α := do
  let w ← get
  return f w.tree w.directory

def isFile (p : String) : Action Bool := inspect fun t cwd => t.isFile cwd p

def isDirectory (p : String) : Action Bool := inspect fun t cwd => t.isDirectory cwd p

/-- A path made absolute from the working directory. -/
def absolute (p : String) : Action String := inspect fun _ cwd => Path.absolute cwd p

/-- Read something that the system may refuse. -/
def obtain {α : Type} (p : String) (f : FileTree → List String → Except FileProblem α) :
    Action α := do
  let w ← get
  Action.ofExcept (fun problem => .file problem p none) (f w.tree w.directory)

/-- Make a change that the system may refuse. -/
def change (p : String) (target : Option String)
    (f : FileTree → List String → Except FileProblem FileTree) : Action Unit := do
  let w ← get
  let tree ← Action.ofExcept (fun problem => .file problem p target) (f w.tree w.directory)
  set { w with tree }

/-- Give words to the system, which takes them as it takes paths. -/
def give (words : List String) : Action Unit :=
  words.forM fun word => obtain word fun _ _ => Path.accept word

def read (p : String) : Action Bytes := obtain p fun t cwd => t.read cwd p

def modified (p : String) : Action Int := obtain p fun t cwd => t.modified cwd p

def write (p : String) (data : Bytes) : Action Unit := do
  let now := (← get).now
  change p none fun t cwd => t.write cwd now p data

def append (p : String) (data : Bytes) : Action Unit := do
  let now := (← get).now
  change p none fun t cwd => do t.write cwd now p ((← t.read cwd p) ++ data)

/-- Write on to a file that is held open: what is written once the file is gone is lost. -/
def extend (p : String) (data : Bytes) : Action Unit := do
  if ← isFile p then append p data

/-- The text of a file, its newlines unified. -/
def readText (p : String) : Action String := do
  match Text.decode? (← read p) with
  | some s => return Text.unifyNewlines s
  | none => throw .undecodable

def makeDirectory (p : String) : Action Unit := change p none fun t cwd => t.makeDirectory cwd p

/-- The path in front of the last name of a path, and that name. -/
def lastStep (p : String) : String × String :=
  if Path.name p = "" then (Path.parent (Path.parent p), Path.name (Path.parent p))
  else (Path.parent p, Path.name p)

/-- Do something that may turn out to be done already. -/
def unlessExists (a : Action Unit) : Action Unit := do
  try a
  catch
    | .file .alreadyExists _ _ => pure ()
    | fault => throw fault

/-- Make a directory. One that exists already is accepted only where `existing` says so. -/
def ensureDirectory (existing : Bool) (p : String) : Action Unit := do
  try makeDirectory p
  catch fault => unless existing && (← isDirectory p) do throw fault

/-- Whether what is in front of the last name of a path has to be made first. -/
def lacksParent (p : String) : Action Bool :=
  inspect fun t cwd =>
    (lastStep p).1 ≠ "" && (lastStep p).2 ≠ "" && !t.pathExists cwd (lastStep p).1

/-- Make the directory at the end of a path; a dot at the end stands for none of its own. -/
def makeLast (existing : Bool) (p : String) : Action Unit :=
  if (lastStep p).2 = "." then pure () else ensureDirectory existing p

/-- Make a directory and those in front of it. The number bounds them. -/
def makeDirectoriesTo (existing : Bool) : Nat → String → Action Unit
  | 0, _ => pure ()
  | bound + 1, p => do
    if ← lacksParent p then
      unlessExists (makeDirectoriesTo existing bound (lastStep p).1)
      makeLast existing p
    else ensureDirectory existing p

/-- Make a directory and those in front of it. A directory that exists already is accepted only
where `existing` says so. -/
def makeDirectories (p : String) (existing : Bool) : Action Unit :=
  makeDirectoriesTo existing (p.length + 1) p

def remove (p : String) : Action Unit := change p none fun t cwd => t.remove cwd p

def rename (source target : String) : Action Unit :=
  change source (some target) fun t cwd => t.rename cwd source target

def removeAll (p : String) : Action Unit := do
  let w ← get
  let (tree, left) ← Action.ofExcept (fun problem => .file problem p none)
    (w.tree.removeAll w.directory p)
  set { w with tree }
  match left with
  | none => pure ()
  | some problem => throw (.file problem p none)

def enter (p : String) : Action Unit := do
  let w ← get
  let place ← Action.ofExcept (fun problem => .file problem p none) do
    let spot ← w.tree.locate w.directory p
    match spot.node with
    | none => .error .notFound
    | some (.file _) => .error .notDirectory
    | some .directory => .ok spot.place
  set { w with directory := place }

/-- The file that a program's name leads to: a name with a directory in front is taken as it is,
any other is looked for where programs are. -/
def findProgram (name : String) : Action (Option String) := do
  let w ← get
  let isProgram (p : String) : Bool :=
    match w.tree.find w.directory p with
    | .ok (.file f) => f.executable
    | _ => false
  if Path.parent name ≠ "" then return if isProgram name then some name else none
  else return (w.programs.map fun d => Path.join d name).find? isProgram

end SourceRecovery.Files
