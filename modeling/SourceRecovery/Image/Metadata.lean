import SourceRecovery.Image.Rows
import SourceRecovery.Image.Tables

/-!
# Reading metadata

How the rows of the metadata tables are read from the bytes of an image. This is one way to look
into images among others: the program is given its reader, and nothing is told of images that holds
for this one only.
-/

namespace SourceRecovery.Image

namespace Metadata

/-- The types in the rows of their table. The fields and methods of a type are consecutive rows:
they go on to those of the next one, or to the end of their table. -/
def readTypes (string : Nat → String) (fieldCount methodCount : Nat) : List Row → List TypeRow
  | [] => []
  | row :: rest =>
    let (fieldStop, methodStop) := match rest with
      | next :: _ => (next.getD 4 0, next.getD 5 0)
      | [] => (fieldCount + 1, methodCount + 1)
    { name := string (row.getD 1 0)
      space := string (row.getD 2 0)
      fields := List.range' (row.getD 4 0) (fieldStop - row.getD 4 0)
      methods := List.range' (row.getD 5 0) (methodStop - row.getD 5 0) } ::
        readTypes string fieldCount methodCount rest

/-- The table and row that a tagged number leads to. -/
def chosen (column : Column) (n : Nat) : Nat × Nat :=
  match column with
  | .choice tagBits tables => (tables.getD (n % Nat.pow 2 tagBits) 64, n / Nat.pow 2 tagBits)
  | _ => (64, n)

/-- The first bytes of a set of resources, which is not a resource of its own. -/
def resourceSetMagic : Bytes := [0xCE, 0xCA, 0xEF, 0xBE]

/-- The resource at an address: a length and that many bytes. One that cannot be read is left
out, and so is an empty one. -/
def readResource (f : Frame) (name : String) (address : Nat) : Option Resource := do
  let length ← (← f.fetch? address 4).word? 4 0
  let data ← f.fetch? (address + 4) length
  if length = 0 ∨ data.length < length then none
  else if 28 ≤ data.length ∧ data.take 4 = resourceSetMagic then some ⟨name, false, none⟩
  else some ⟨name, true, some data⟩

/-- The resources of an image, in the order of their rows: those that the image holds itself. -/
def readResources (f : Frame) (string : Nat → String) (address : Nat) (rows : List Row) :
    List Resource :=
  if address = 0 then []
  else rows.filterMap fun row =>
    if (chosen Schema.implementation (row.getD 3 0)).2 ≠ 0 then none
    else readResource f (string (row.getD 2 0)) (address + row.getD 0 0)

/-- The flag of an image whose entry point is native code. -/
def nativeEntryBit : Nat := 4

/-- The bytes that metadata starts with. -/
def magic : Nat := 0x424A5342

/-- The metadata that tables and heaps hold. `header` is the header of the managed part. -/
def ofTables (f : Frame) (header : Bytes) (streams : Streams) (t : Tables) : Metadata :=
  let string := stringAt streams.strings
  { nativeEntry := (header.word 4 16).testBit nativeEntryBit
    entryToken := header.word 4 20
    modules := (t.rows Schema.module).map fun row => string (row.getD 1 0)
    types := readTypes string (t.rows Schema.field).length (t.rows Schema.methodDef).length
      (t.rows Schema.typeDef)
    fields := (t.rows Schema.field).map fun row => string (row.getD 1 0)
    constants := (t.rows Schema.constant).map fun row =>
      let (table, parent) := chosen Schema.hasConstant (row.getD 2 0)
      ⟨table, parent, row.getD 0 0, blobAt streams.blobs (row.getD 3 0)⟩
    assemblies := (t.rows Schema.assembly).map fun row =>
      ⟨string (row.getD 7 0), ⟨row.getD 1 0, row.getD 2 0, row.getD 3 0, row.getD 4 0⟩⟩
    references := (t.rows Schema.assemblyRef).map fun row => string (row.getD 6 0)
    nested := (t.rows Schema.nestedClass).map fun row => row.getD 0 0
    resources := readResources f string (header.word 4 24) (t.rows Schema.manifestResource) }

/-- Read the metadata of an image whose frame is known. -/
def ofFrame (f : Frame) : Except ImageError Metadata := do
  let (address, size) := f.managed
  if address = 0 then throw .noMetadata
  let header ← match f.fetch? address size with
    | none => throw (.notExecutable .unreadable)
    | some header => pure header
  if header.length < 72 then throw .noMetadata
  let root := header.word 4 8
  let body ← match f.fetch? root (header.word 4 12) with
    | none => throw .noMetadata
    | some body => pure body
  if body.length < header.word 4 12 ∨ body.word 4 0 ≠ magic then throw .noMetadata
  let versionLength := ((f.fetch? root 16).getD []).word 4 12
  let counts := (f.fetch? (root + 16 + versionLength) 4).getD []
  let streams := readStreams f root (counts.word 2 2) (root + 20 + versionLength) ⟨none, none, none⟩
  match streams.tables with
  | none => throw .noMetadata
  | some bs => return ofTables f header streams (Tables.read bs)

def read (file : Bytes) : Except ImageError Metadata :=
  match Frame.read file with
  | .ok f => ofFrame f
  | .error flaw => .error (.notExecutable flaw)

end Metadata

def open_ : ImageReader := Metadata.reader Metadata.read

end SourceRecovery.Image
