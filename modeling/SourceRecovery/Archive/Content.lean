import SourceRecovery.Archive.Bzip2
import SourceRecovery.Archive.Directory
import SourceRecovery.Archive.Inflate
import SourceRecovery.Archive.Lzma

/-!
# Contents of archives

The content of an entry is read, checked and written chunk by chunk.
-/

namespace SourceRecovery.Archive

/-! ### Telling an entry -/

/-- The name of a way in which entries are packed, if it has one. -/
def methodName? : Nat → Option String
  | 0 => some "store"
  | 1 => some "shrink"
  | 2 | 3 | 4 | 5 => some "reduce"
  | 6 | 10 => some "implode"
  | 7 => some "tokenize"
  | 8 => some "deflate"
  | 9 => some "deflate64"
  | 12 => some "bzip2"
  | 14 => some "lzma"
  | 18 => some "terse"
  | 19 => some "lz77"
  | 97 => some "wavpack"
  | 98 => some "ppmd"
  | _ => none

/-- The letter of a kind of file, by the highest bits of its mode. -/
def kindLetter : Nat → Char
  | 1 => 'p'
  | 2 => 'c'
  | 4 => 'd'
  | 6 => 'b'
  | 8 => '-'
  | 10 => 'l'
  | 12 => 's'
  | _ => '?'

/-- The letters of what a mode allows one of its three classes, from the `place`-th bit on. Another
bit takes the place of the last letter by `mark`. -/
def modeLetters (mode place special : Nat) (mark : Char) : List Char :=
  let may (i : Nat) := mode.testBit (place + i)
  [if may 2 then 'r' else '-', if may 1 then 'w' else '-',
    match mode.testBit special, may 0 with
    | true, true => mark
    | true, false => mark.toUpper
    | false, true => 'x'
    | false, false => '-']

/-- A mode as it is listed. -/
def modeText (mode : Nat) : String :=
  String.ofList (kindLetter (mode / 0x1000) :: modeLetters mode 6 11 's' ++
    modeLetters mode 3 10 's' ++ modeLetters mode 0 9 't')

/-- What is told of an entry that is no directory. -/
def Entry.account (e : Entry) : String :=
  let mode := e.attributes / 0x10000
  let low := e.attributes % 0x10000
  let parts :=
    ["<ZipInfo filename=" ++ Text.quote e.name,
      if e.method = 0 then ""
      else " compress_type=" ++ (methodName? e.method).getD (toString e.method),
      if mode = 0 then "" else " filemode=" ++ Text.quote (modeText mode),
      if low = 0 then "" else " external_attr=0x" ++ String.ofList (Nat.toDigits 16 low),
      s!" file_size={e.size}",
      if e.method = 0 ∧ e.size = e.packedSize then "" else s!" compress_size={e.packedSize}", ">"]
  String.join parts

/-! ### Reading an entry -/

/-- The number of bytes that are read, checked and written at a time. -/
def chunk : Nat := 0x10000

/-- What reading an entry gives: the bytes that are written, and the error that stops it. -/
structure Extracted where
  written : Bytes
  error : Option ArchiveError

/-- The whole chunks of what was read before an error. -/
def stopped (before : Bytes) (cause : ArchiveError) : Extracted :=
  ⟨before.take (before.length / chunk * chunk), some cause⟩

/-- The content of an entry from its unpacked bytes, checked before what comes after `before` is
written. -/
def checked (e : Entry) (before unpacked : Bytes) : Extracted :=
  if (Checksum.ofBytes (unpacked.take e.size)).toNat = e.checksum then ⟨unpacked.take e.size, none⟩
  else stopped before (.checksum e.name)

/-- The least number of bytes that are read or unpacked at a time. -/
def leastRead : Nat := 0x1000

/-- How far an entry is unpacked: the number of packed bytes that were read, how many of the last
ones are not unpacked, and what the others decode to. -/
structure Progress where
  taken : Nat
  left : Nat
  before : Bytes

/-- How many packed bytes are read next: none if there are enough for the chunk that is being
read. -/
def Progress.wanted (p : Progress) (e : Entry) : Nat :=
  let needed := chunk - p.before.length % chunk
  if p.left < needed then min (max (needed - p.left) leastRead) (e.packedSize - p.taken) else 0

/-- How many unpacked bytes there is room for next. -/
def Progress.limit (p : Progress) : Nat :=
  p.before.length + max (chunk - p.before.length % chunk) leastRead

/-- What the bytes `bs` that were read of an entry settle, or how far it is unpacked by them. What
does not fit any more is added at the end of the packed bytes. -/
def settle (run : Packed.Decoder) (cause : Packed.Fault → ArchiveError) (e : Entry)
    (p : Progress) (bs : Bytes) : Extracted ⊕ Progress :=
  let d := run (some p.limit) bs
  match d.fault with
  | none => .inl (checked e p.before d.out)
  | some .cut | some .full =>
    if e.packedSize ≤ bs.length ∧ d.left = 0 then .inl (checked e p.before (run none bs).out)
    else if e.size ≤ d.out.length then .inl (checked e p.before d.out)
    else .inr ⟨bs.length, d.left, d.out⟩
  | some fault => .inl (stopped p.before (cause fault))

/-- Unpack an entry piece by piece, as far as each chunk needs it. The number bounds the pieces:
each one that is not the last reads a byte or unpacks one. -/
def unpackFrom (run : Packed.Decoder) (cause : Packed.Fault → ArchiveError) (e : Entry)
    (packed : Bytes) : Nat → Progress → Extracted
  | 0, p => stopped p.before .endOfData
  | bound + 1, p =>
    let piece := packed.slice p.taken (p.wanted e)
    if piece = [] ∧ p.wanted e ≠ 0 then stopped p.before .endOfData
    else
      match settle run cause e p (packed.take (p.taken + piece.length)) with
      | .inl extracted => extracted
      | .inr p => unpackFrom run cause e packed bound p

/-- The ways in which entries are packed. -/
inductive Packing
  | stored
  | deflated
  | sorted
  | ranged
  deriving DecidableEq, Repr

def Packing.ofMethod? : Nat → Option Packing
  | 0 => some .stored
  | 8 => some .deflated
  | 12 => some .sorted
  | 14 => some .ranged
  | _ => none

/-- An entry that is opened: how it is packed, and the bytes that hold its content. -/
structure Opened where
  entry : Entry
  packing : Packing
  packed : Bytes

/-- How the bytes of an entry are decoded. Stored ones are what they stand for. -/
def Packing.decoder : Packing → Packed.Decoder
  | .stored => fun _ bs => ⟨bs, some .cut, 0⟩
  | .deflated => Inflate.run
  | .sorted => Bzip2.run
  | .ranged => Lzma.run

/-- How it is reported that the bytes of an entry do not decode. -/
def Packing.error (fault : Packed.Fault) : Packing → ArchiveError
  | .stored | .deflated => .data
  | .sorted => .sorted
  | .ranged => .ranged (fault = .unsupported)

/-- The content of an opened entry. -/
def Opened.unpack (o : Opened) : Extracted :=
  unpackFrom o.packing.decoder (o.packing.error ·) o.entry o.packed
    (o.packed.length + o.entry.size + 1) ⟨0, 0, []⟩

/-- No file reaches as far as this. -/
def farthest : Int := 0x8000000000000000

/-- Open an entry, once its header is checked. -/
def Contents.open_ (c : Contents) (e : Entry) : Except ArchiveError Opened := do
  if e.offset < -farthest ∨ farthest ≤ e.offset then throw .beyondFiles
  if e.offset < 0 then throw .beforeStart
  let offset := e.offset.toNat
  let header := c.file.slice offset 30
  if header.length < 30 then throw .cutHeader
  if header.word 4 0 ≠ 0x04034B50 then throw .headerMagic
  let nameSize := header.word 2 26
  let name := c.file.slice (offset + 30) nameSize
  if e.flags.testBit 5 then throw .patched
  if e.flags.testBit 6 then throw .stronglyEncrypted
  let decoded ← decodeName (header.word 2 6) name
  if decoded ≠ e.listed then throw (.nameDiffers e.listed name)
  let data := min (offset + 30 + nameSize + header.word 2 28) (max c.file.length offset)
  if e.stop < (data + e.packedSize : Nat) then throw (.overlap e.listed)
  if e.flags.testBit 0 then throw (.encrypted e.account)
  match Packing.ofMethod? e.method with
  | none => throw .method
  | some packing => return ⟨e, packing, c.file.slice data e.packedSize⟩

/-- The entries in the order in which they are listed, each standing for the last one that is
listed under its name. -/
def Contents.members (c : Contents) : List Entry :=
  c.entries.map fun e => (c.entries.reverse.find? (·.name = e.name)).getD e

end SourceRecovery.Archive
