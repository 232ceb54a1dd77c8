import SourceRecovery.Text.Quoted

/-!
# Rejected images

Why bytes are no image that can be classified.
-/

namespace SourceRecovery

inductive FrameFlaw
  | noDosHeader
  | oldExecutable
  | noDosMagic
  | headerOutside
  | noHeader
  | foreignHeader (kind : String)
  | badSignature
  | noFileHeader
  | noOptionalHeader
  | cutSection
  | unreadable
  deriving DecidableEq, Repr

def FrameFlaw.message : FrameFlaw → String
  | .noDosHeader => "Unable to read the DOS Header, possibly a truncated file."
  | .oldExecutable => "Probably a ZM Executable (not a PE file)."
  | .noDosMagic => "DOS Header magic not found."
  | .headerOutside => "Invalid e_lfanew value, probably not a PE file"
  | .noHeader => "NT Headers not found."
  | .foreignHeader kind => "Invalid NT Headers signature. Probably a " ++ kind ++ " file"
  | .badSignature => "Invalid NT Headers signature."
  | .noFileHeader => "File Header missing"
  | .noOptionalHeader => "No Optional Header found, invalid PE32 or PE32+ file."
  | .cutSection => "Data length less than expected header length."
  | .unreadable => "data at RVA can't be fetched. Corrupt header?"

inductive ImageError
  /-- They are no executable file. -/
  | notExecutable (flaw : FrameFlaw)
  /-- They are an executable file without the metadata of a managed image. -/
  | noMetadata
  /-- A reader rejects them in its own words. -/
  | rejected (reason : String)
  deriving DecidableEq, Repr

def ImageError.message : ImageError → String
  | .notExecutable flaw => "Not a PE image: " ++ Text.quote flaw.message
  | .noMetadata => "Image has no CLR metadata"
  | .rejected reason => reason

end SourceRecovery
