import SourceRecovery.Image.Error
import SourceRecovery.Image.Word

/-!
# Frames of executable files

The frame of an executable file maps addresses of the loaded image to places in the file. It is
read from the headers at the start of the file and the table of sections behind them.
-/

namespace SourceRecovery.Image

/-- A section of an executable file: where it is loaded and where its bytes are. -/
structure Section where
  address : Nat
  virtualSize : Nat
  rawSize : Nat
  rawPointer : Nat
  deriving DecidableEq, Repr

/-- An executable file as far as addresses are concerned. -/
structure Frame where
  file : Bytes
  sections : List Section
  /-- The number of bytes that belong to the headers. -/
  headerSize : Nat
  /-- Where the directory of the managed part is: its address and its size. -/
  managed : Nat × Nat

namespace Frame

/-- The number of addresses that a section covers, cut where the next one starts. -/
def span (fileSize : Nat) (s : Section) (next : Option Section) : Nat :=
  let size := if fileSize - s.rawPointer < s.rawSize then s.virtualSize
    else max s.rawSize s.virtualSize
  match next with
  | some n => if s.address < n.address ∧ n.address < s.address + size then n.address - s.address
      else size
  | none => size

/-- The first of some sections that covers an address. -/
def sectionAt (fileSize address : Nat) : List Section → Option Section
  | [] => none
  | s :: rest =>
    if s.address ≤ address ∧ address < s.address + span fileSize s rest.head? then some s
    else sectionAt fileSize address rest

/-- The bytes from an address on, at most `count` of them; none where the address leads nowhere. A
count of zero is no bound for an address outside every section. -/
def fetch? (f : Frame) (address count : Nat) : Option Bytes :=
  match sectionAt f.file.length address f.sections with
  | some s =>
    let offset := address - s.address + s.rawPointer
    let stop := min (offset + count) (s.rawPointer + s.rawSize)
    some (f.file.slice offset (stop - offset))
  | none =>
    if address < f.headerSize then
      let available := min f.headerSize f.file.length - address
      some (f.file.slice address (if count = 0 then available else min count available))
    else if address < f.file.length then
      some (if count = 0 then f.file.drop address else f.file.slice address count)
    else none

/-- The table of sections: `count` headers of forty bytes from an offset on, up to one without
any content. -/
def readSections (file : Bytes) : Nat → Nat → Except FrameFlaw (List Section)
  | 0, _ => .ok []
  | count + 1, offset =>
    let header := file.slice offset 40
    if header = [] then .ok []
    else if header.count 0 = 40 then .ok []
    else if header.length < 40 then .error .cutSection
    else do
      let rest ← readSections file count (offset + 40)
      return ⟨header.word 4 12, header.word 4 8, header.word 4 16, header.word 4 20⟩ :: rest

/-- The flaw of a signature that is not that of an executable file with sections. -/
def signatureFlaw? (signature : Nat) : Option FrameFlaw :=
  if signature = 0 then some .noHeader
  else match signature % 0x10000 with
    | 0x454E => some (.foreignHeader "NE")
    | 0x454C => some (.foreignHeader "LE")
    | 0x584C => some (.foreignHeader "LX")
    | 0x5A56 => some (.foreignHeader "TE")
    | _ => if signature = 0x4550 then none else some .badSignature

def read (file : Bytes) : Except FrameFlaw Frame := do
  if file.length < 64 then throw .noDosHeader
  let magic := file.word 2 0
  if magic = 0x4D5A then throw .oldExecutable
  if magic ≠ 0x5A4D then throw .noDosMagic
  let start := file.word 4 0x3C
  if file.length < start then throw .headerOutside
  match signatureFlaw? ((file.word? 4 start).getD 0) with
  | some flaw => throw flaw
  | none => pure ()
  if file.length < start + 24 then throw .noFileHeader
  let sectionCount := file.word 2 (start + 6)
  let optionalSize := file.word 2 (start + 20)
  let optional := start + 24
  if file.length < optional + 69 then throw .noOptionalHeader
  let directories := optional + if file.word 2 optional = 0x20B then 112 else 96
  let table := optional + optionalSize
  let found ← readSections file sectionCount table
  let tableEnd := table + 40 * found.length
  let pointers := (found.map Section.rawPointer).filter (0 < ·)
  return { file
           sections := found.mergeSort fun a b => a.address ≤ b.address
           headerSize := max tableEnd (pointers.min?.getD 0)
           managed := (file.word 4 (directories + 14 * 8), file.word 4 (directories + 14 * 8 + 4)) }

end Frame

end SourceRecovery.Image
