import SourceRecovery.Archive.Content
import SourceRecovery.Console.Output
import SourceRecovery.Files.Operations
import SourceRecovery.Number.Numeral

/-!
# Getting a build

The archive of a build is downloaded and extracted. Each step is left out when its result is there
already, unless the operator asks for it again.
-/

namespace SourceRecovery.Server

variable [Stream]

/-! ### Downloading -/

def sizeText (bytes : Int) : Action String :=
  match Figures.size? bytes with
  | some s => pure s
  | none => throw .outOfRange

/-- The length that an answer announces; no length or an empty one counts as zero. -/
def announced (r : Response) : Action Int :=
  match r.length with
  | none => pure 0
  | some "" => pure 0
  | some s => Action.ofExcept Fault.numeral (Numeral.read s)

/-- Write a body chunk by chunk, drawing the progress after each; `done` bytes are written
already. The number bounds the chunks. -/
def writeChunks (part : String) (total : Int) : Nat → Nat → Bytes → Action Unit
  | 0, _, _ => pure ()
  | bound + 1, done, body => do
    if body = [] then return
    let chunk := body.take Archive.chunk
    Files.append part chunk
    let done := done + chunk.length
    let label := s!"{← sizeText done} / {← sizeText total}"
    Console.showProgress done total label
    writeChunks part total bound done (body.drop Archive.chunk)

/-- Download what an address answers to a file. The bytes are gathered beside it under another
name, which becomes the file's when all are there. -/
def download (url target : String) : Action Unit := do
  Console.step s!"Downloading {url}"
  let part := target ++ ".part"
  let response ← World.request url
  let total ← announced response
  Files.write part []
  writeChunks part total (response.body.length + 1) 0 response.body
  Files.rename part target
  Console.finishProgress ""
  Console.info s!"Downloaded {← sizeText response.body.length} to {target}"

/-- The question whether an archive that is there is to be downloaded again. -/
def downloadQuestion (path : String) : String :=
  s!"{path} exists, do you want to download it again?"

/-- Whether an archive is to be downloaded: not if it is there and the operator keeps it. One that
is not kept is removed. -/
def wantsArchive (path : String) : Action Bool := do
  if ← Files.isFile path then
    if ← Console.confirm (downloadQuestion path) then
      Files.remove path
      return true
    else return false
  else return true

/-- Download an archive unless it is there and the operator keeps it; true if it was
downloaded. -/
def ensureArchive (url path : String) : Action Bool := do
  if ← wantsArchive path then
    download url path
    return true
  else return false

/-! ### Extracting -/

/-- Where an entry goes below a directory. -/
def memberPath (target : String) (e : Archive.Entry) : String :=
  Path.normal (Path.join target ("/".intercalate e.components))

/-- Make the directories in front of a path, if they are missing. -/
def makeAbove (p : String) : Action Unit := do
  let above := Path.parent p
  if ← Files.inspect fun t cwd => above ≠ "" && !t.pathExists cwd above then
    Files.makeDirectories above false

/-- Write the content of an entry to a file, as far as it can be read. -/
def writeMember (c : Archive.Contents) (p : String) (e : Archive.Entry) : Action Unit := do
  let opened ← Action.ofExcept Fault.archive (c.open_ e)
  Files.write p []
  let extracted := opened.unpack
  Files.append p extracted.written
  match extracted.error with
  | some cause => throw (.archive cause)
  | none => pure ()

/-- Write one entry of an archive below a directory. -/
def extractMember (c : Archive.Contents) (target : String) (e : Archive.Entry) : Action Unit := do
  let p := memberPath target e
  makeAbove p
  if e.isDirectory then
    unless ← Files.isDirectory p do Files.makeDirectory p
  else writeMember c p e

/-- Announce an archive and make the directory that it is extracted into. -/
def openTarget (path target : String) : Action Unit := do
  Console.step s!"Extracting {path}"
  Files.makeDirectories target true

/-- Write all entries of an archive below a directory. -/
def unpackInto (path target : String) : Action Unit := do
  let contents ← Action.ofExcept Fault.archive (Archive.read (← Files.read path))
  contents.members.forM (extractMember contents target)

/-- Extract an archive into a directory, which is made before the archive is opened. -/
def extract (path target : String) : Action Unit := do
  openTarget path target
  unpackInto path target
  Console.info s!"Extracted to {target}"

/-- The question whether an archive whose directory is there is to be extracted again. -/
def extractQuestion (target : String) : String :=
  s!"{target} has been extracted, do you want to extract it again?"

/-- Whether an archive is to be extracted: not if its directory is there and the operator keeps
it. One that is not kept is removed. -/
def wantsExtraction (target : String) : Action Bool := do
  if ← Files.isDirectory target then
    if ← Console.confirm (extractQuestion target) then
      Files.removeAll target
      return true
    else return false
  else return true

/-- Extract an archive unless its directory is there and the operator keeps it; true if it was
extracted. -/
def ensureExtracted (path target : String) : Action Bool := do
  if ← wantsExtraction target then
    extract path target
    return true
  else return false

end SourceRecovery.Server
