import SourceRecovery.Archive.Error
import SourceRecovery.Catalog.Error
import SourceRecovery.Files.Tree
import SourceRecovery.Identity

/-!
# Faults

Everything that can stop an operation. Some faults are reported to the operator at the end of a
run; all others leave the program.
-/

namespace SourceRecovery

inductive DecompilerError
  | notInstalled (executable : String)
  /-- It ended with an exit code other than zero, and with these last lines of its log. -/
  | failed (exit : Int) (log : String)
  /-- It gives up in its own words. -/
  | gaveUp (reason : String)
  deriving DecidableEq, Repr

def DecompilerError.message : DecompilerError → String
  | .notInstalled executable =>
    s!"ilspycmd not found: {executable} (install with: dotnet tool install -g ilspycmd)"
  | .failed exit log => s!"ilspycmd failed (exit code {exit})\n{log}"
  | .gaveUp reason => reason

/-- What stops an operation. -/
inductive Fault
  | image (cause : ImageError)
  | noEntryPoint (moduleName : String)
  | release (cause : ReleaseError)
  | unresolved (names : List String)
  | decompiler (cause : DecompilerError)
  | catalog (cause : CatalogError)
  | declined (reason : String)
  /-- The system refuses an operation on a file, or on one file and the other it becomes. -/
  | file (problem : FileProblem) (path : String) (target : Option String)
  | unreachable
  | archive (cause : ArchiveError)
  | noBuild (index : Int)
  | noServerImage
  | numeral (cause : NumeralError)
  | undefinedNumber
  | outOfRange
  | wrongKind
  | noMember
  | undecodable
  | tooDeep
  deriving DecidableEq, Repr

/-- The number and wording of a refusal by the system. -/
def FileProblem.wording : FileProblem → Nat × String
  | .notFound => (2, "No such file or directory")
  | .alreadyExists => (17, "File exists")
  | .notDirectory => (20, "Not a directory")
  | .isDirectory => (21, "Is a directory")
  | .busy => (16, "Device or resource busy")
  | .invalid => (22, "Invalid argument")
  | .cutPath => (0, "embedded null byte")
  | .unencodable => (0, "surrogates not allowed")

def FileProblem.message (problem : FileProblem) (path : String) (target : Option String) :
    String :=
  let (number, text) := problem.wording
  if number = 0 then text
  else
    let onto := match target with
      | some t => " -> " ++ Text.quote t
      | none => ""
    s!"[Errno {number}] {text}: {Text.quote path}{onto}"

/-- Whether a refusal comes from the system, and not from a path that it cannot be given. -/
def FileProblem.isSystem (problem : FileProblem) : Bool :=
  problem ≠ .cutPath && problem ≠ .unencodable

namespace Fault

def message : Fault → String
  | .image cause => cause.message
  | .noEntryPoint name => (ClassifyError.noEntryPoint name).message
  | .release cause => cause.message
  | .unresolved names => "Unresolved assembly references: " ++ ", ".intercalate names
  | .decompiler cause => cause.message
  | .catalog cause => cause.message
  | .declined reason => reason
  | .file problem path target => problem.message path target
  | .unreachable => "<urlopen error unreachable>"
  | .archive cause => cause.message
  | .noBuild index => s!"No build with number {index}"
  | .noServerImage => "No server image for platform Platform.UNKNOWN"
  | .numeral cause => cause.message
  | .undefinedNumber => "cannot convert float NaN to integer"
  | .outOfRange => "number out of range"
  | .wrongKind => "value of the wrong kind"
  | .noMember => "no such member"
  | .undecodable => "bytes are no text"
  | .tooDeep => "values nested too deeply"

/-- A text cannot be encoded by the stream that the console writes to, which is a file too. -/
def unprintable : Fault := .file .unencodable "<stdout>" none

/-- Whether a run ends by reporting a fault to the operator: the faults of images, references,
decompilers and catalogs, and everything that the system refuses. -/
def isReported : Fault → Bool
  | .image _ | .noEntryPoint _ | .release _ | .unresolved _ | .decompiler _ | .catalog _ => true
  | .file problem _ _ => problem.isSystem
  | .unreachable => true
  | .archive cause => cause = .beforeStart || cause = .sorted
  | _ => false

/-- A failed classification as a fault. -/
def ofClassify : ClassifyError → Fault
  | .image cause => .image cause
  | .noEntryPoint name => .noEntryPoint name
  | .release cause => .release cause

end Fault

end SourceRecovery
