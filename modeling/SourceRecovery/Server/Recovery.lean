import SourceRecovery.Decompiler.Basic
import SourceRecovery.Server.Archive
import SourceRecovery.Server.Selection

/-!
# Recovering the source of a server

From the choice of a build to the projects of its platforms.
-/

namespace SourceRecovery.Server

variable [Stream] [Template.Objects]

def identify (reader : ImageReader) (path : String) : Action Identity := do
  Action.ofExcept Fault.ofClassify (Identity.classify reader (← Files.read path))

def recoverPlatform (reader : ImageReader) (decompiler : Decompiler) (common : String)
    (platform : Platform) : Action Unit := do
  let (path, search) ← Action.ofExcept id (imageLocation common platform)
  Console.line ""
  Console.box s!"Decompiling {platform.name} server assembly" path
  let i ← identify reader path
  discard (Decompiler.run reader decompiler Console.confirm i { Decompiler.Options.standard with
    search })

/-- Download, extract and decompile one build of a catalog. -/
def recoverBuild (reader : ImageReader) (decompiler : Decompiler) (c : Catalog) (b : Build)
    (workspace : String) : Action Unit := do
  let stem := Path.join workspace (← Action.ofExcept id (c.stemOf b))
  let archive := stem ++ ".zip"
  discard (ensureArchive (← Action.ofExcept id (c.urlOf b)) archive)
  discard (ensureExtracted archive stem)
  let common ← Files.absolute (Path.join stem b.version)
  (← choosePlatforms).forM (recoverPlatform reader decompiler common)

/-- Let the operator pick a build and recover it. That the input is closed ends this without an
error. -/
def recover (reader : ImageReader) (decompiler : Decompiler) (c : Catalog) (workspace : String) :
    Action Unit := do
  try
    recoverBuild reader decompiler c (← select c) workspace
  catch
    | .declined reason => Console.warn s!"Input closed, {reason}"
    | fault => throw fault

end SourceRecovery.Server
