import SourceRecovery.Address
import SourceRecovery.Text.Utf8

/-!
# Faulty archives

Why an archive cannot be had, or it or one of its entries cannot be read.
-/

namespace SourceRecovery

inductive ArchiveError
  /-- Nothing can be asked of the address that it should come from. -/
  | address (problem : AddressProblem)
  | notArchive
  | directoryOffset
  | cutDirectory
  | directoryMagic
  | extraField (tag size : Nat)
  | missingField (name : String)
  | manyDisks
  /-- An entry is said to begin further off than any file reaches. -/
  | beyondFiles
  /-- An entry is said to begin in front of the file. -/
  | beforeStart
  | cutHeader
  | headerMagic
  | nameDiffers (listed : String) (header : Bytes)
  | overlap (name : String)
  | checksum (name : String)
  | version (tenths : Nat)
  | patched
  | stronglyEncrypted
  /-- An entry, which is told in full, cannot be read without a password. -/
  | encrypted (entry : String)
  | method
  | endOfData
  | data
  /-- Block-sorted data are invalid. -/
  | sorted
  /-- Range-coded data are invalid, or have settings that are not supported. -/
  | ranged (unsupported : Bool)
  /-- A name that should be UTF-8 is not. -/
  | unreadableName
  deriving DecidableEq, Repr

/-- Bytes between quotes, those beyond printable ASCII as escapes. -/
def quoteBytes (bs : Bytes) : String :=
  let quote := Text.quoteMark (bs.map fun b => Char.ofNat b.toNat)
  let shown (b : UInt8) : List Char :=
    let c := Char.ofNat b.toNat
    if c = quote ∨ c = '\\' then ['\\', c]
    else if c = '\t' then ['\\', 't']
    else if c = '\n' then ['\\', 'n']
    else if c = '\r' then ['\\', 'r']
    else if 0x20 ≤ b.toNat ∧ b.toNat < 0x7F then [c]
    else '\\' :: 'x' :: Text.hexDigits 2 b.toNat
  "b" ++ String.ofList (quote :: bs.flatMap shown ++ [quote])

def ArchiveError.message : ArchiveError → String
  | .address problem => problem.message
  | .notArchive => "File is not a zip file"
  | .directoryOffset => "Bad offset for central directory"
  | .cutDirectory => "Truncated central directory"
  | .directoryMagic => "Bad magic number for central directory"
  | .extraField tag size =>
    "Corrupt extra field " ++ String.ofList (Text.hexDigits 4 tag) ++ s!" (size={size})"
  | .missingField name => "Corrupt zip64 extra field. " ++ name ++ " not found."
  | .manyDisks => "zipfiles that span multiple disks are not supported"
  | .beyondFiles => "cannot fit 'int' into an offset-sized integer"
  | .beforeStart => "[Errno 22] Invalid argument"
  | .cutHeader => "Truncated file header"
  | .headerMagic => "Bad magic number for file header"
  | .nameDiffers listed header =>
    "File name in directory " ++ Text.quote listed ++ " and header " ++ quoteBytes header ++
      " differ."
  | .overlap name => "Overlapped entries: " ++ Text.quote name ++ " (possible zip bomb)"
  | .checksum name => "Bad CRC-32 for file " ++ Text.quote name
  | .version tenths => s!"zip file version {tenths / 10}.{tenths % 10}"
  | .patched => "compressed patched data (flag bit 5)"
  | .stronglyEncrypted => "strong encryption (flag bit 6)"
  | .encrypted entry => "File " ++ entry ++ " is encrypted, password required for extraction"
  | .method => "That compression method is not supported"
  | .endOfData => ""
  | .data => "invalid deflated data"
  | .sorted => "Invalid data stream"
  | .ranged unsupported =>
    if unsupported then "Invalid or unsupported options" else "Corrupt input data"
  | .unreadableName => "invalid name"

end SourceRecovery
