import SourceRecovery.CommandLine.Options
import SourceRecovery.Server.Recovery

/-!
# Runs of the program

What a command line does: recover a server build that the operator picks, or identify and
decompile one image.
-/

namespace SourceRecovery.CommandLine

variable [Stream] [Template.Objects]

/-- How a run ends: its exit code, and what it complains about its command line. -/
structure Ending where
  exit : Nat
  complaint : Option String
  deriving DecidableEq, Repr

def programName : String := "sourcegetter"

def showIdentity (path : String) (i : Identity) : Action Unit := do
  Console.line s!"  File:           {path}"
  Console.line s!"  Assembly:       {i.name}"
  Console.line s!"  Side:           {i.side.name}"
  Console.line s!"  Platform:       {i.platform.name}"
  Console.line s!"  Version:        {i.version.text}"
  Console.line s!"  Release number: {i.release}"
  Console.line s!"  Output name:    {i.directoryName}"

/-- Identify the image at a path, and decompile it unless only that is asked for. -/
def runImage (reader : ImageReader) (decompiler : Decompiler) (o : Options) (path : String) :
    Action Unit := do
  unless ← Files.isFile path do
    Console.error s!"Invalid path: {path}"
    return
  Console.info s!"Image: {path}"
  let i ← Server.identify reader path
  showIdentity path i
  if o.info then return
  let beside := Path.parent (← Files.absolute path)
  discard (Decompiler.run reader decompiler Console.confirm i
    { output := o.output, tolerant := o.tolerant, search := [beside] })

/-- Let the operator pick a build of the catalog and recover it. -/
def runServer (reader : ImageReader) (decompiler : Decompiler) (o : Options) : Action Unit := do
  Console.banner
  let c ← Catalog.load o.catalog o.urlTemplate
  Server.recover reader decompiler c "."

/-- Do what options ask for. More than one target is nothing to do. A fault that is reported ends
the run with exit code one. -/
def runOptions (reader : ImageReader) (o : Options) : Action Ending := do
  if o.colorless then modify fun w => { w with console := { w.console with colored := false } }
  let decompiler := External.decompiler reader ⟨o.decompiler, []⟩
  try
    match o.targets with
    | [] => runServer reader decompiler o
    | [path] => runImage reader decompiler o path
    | _ => pure ()
    return ⟨0, none⟩
  catch fault =>
    unless fault.isReported do throw fault
    Console.error fault.message
    return ⟨1, none⟩

def helpLines : List String :=
  [s!"usage: {programName} [-h] [--ilspycmd ILSPYCMD] [--catalog CATALOG]",
   "                    [--url-template URL_TEMPLATE] [-o OUTPUT]",
   "                    [--ignore-resolution-errors] [--info] [--no-color]",
   "                    [target ...]"]

def run (reader : ImageReader) (words : List String) : Action Ending := do
  match Request.read words with
  | .error e => return ⟨2, some s!"{programName}: error: {e.message}"⟩
  | .ok .help =>
    helpLines.forM Console.line
    return ⟨0, none⟩
  | .ok (.run o) => runOptions reader o

end SourceRecovery.CommandLine
