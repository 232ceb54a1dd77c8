import SourceRecovery.Archive.Error
import SourceRecovery.Image.Word

/-!
# Archives

A zip archive ends with a directory of its entries. Reading the directory gives the entries in
the order in which they are listed. Sizes and offsets that do not fit their fields stand in longer
ones elsewhere.
-/

namespace SourceRecovery.Archive

/-- The characters of the upper half of the code page of old names. -/
def upperHalf : List Char :=
  ("ÇüéâäàåçêëèïîìÄÅÉæÆôöòûùÿÖÜ¢£¥₧ƒáíóúñÑªº¿⌐¬½¼¡«»" ++
    "░▒▓│┤╡╢╖╕╣║╗╝╜╛┐└┴┬├─┼╞╟╚╔╩╦╠═╬╧╨╤╥╙╘╒╓╫╪┘┌█▄▌▐▀" ++
    "αßΓπΣσµτΦΘΩδ∞φε∩≡±≥≤⌠⌡÷≈°∙·√ⁿ²■\u00A0").toList

/-- A name in the code page of old names. -/
def decodeOld (bs : Bytes) : String :=
  String.ofList (bs.map fun b =>
    if b < 0x80 then Char.ofNat b.toNat else upperHalf.getD (b.toNat - 0x80) ' ')

/-- A name by the flag that tells how it is written. -/
def decodeName (flags : Nat) (bs : Bytes) : Except ArchiveError String :=
  if flags.testBit 11 then
    match Text.decode? bs with
    | some s => .ok s
    | none => .error .unreadableName
  else .ok (decodeOld bs)

structure Entry where
  /-- The name as it is listed. -/
  listed : String
  flags : Nat
  method : Nat
  checksum : Nat
  packedSize : Nat
  size : Nat
  /-- The mode that the entry has as a file, and below it what other systems keep of it. -/
  attributes : Nat
  /-- Where the header of the entry starts in the file. -/
  offset : Int
  /-- Where what belongs to the entry has to stop. -/
  stop : Int
  deriving DecidableEq, Repr

namespace Entry

/-- The name of an entry: the listed one up to its first zero. -/
def name (e : Entry) : String := String.ofList (e.listed.toList.takeWhile (· ≠ '\x00'))

def isDirectory (e : Entry) : Bool := e.name.toList.getLast? = some '/'

/-- The components of an entry's name that lead on: neither empty, nor `.`, nor `..`. -/
def components (e : Entry) : List String :=
  ((e.name.toList.splitOn '/').map String.ofList).filter fun c => c ≠ "" ∧ c ≠ "." ∧ c ≠ ".."

end Entry

/-! ### The directory -/

def endMagic : Bytes := [0x50, 0x4B, 5, 6]

/-- The last place among the first `count` at which a pattern stands. -/
def lastPlace (pattern bs : Bytes) : Nat → Option Nat
  | 0 => none
  | count + 1 =>
    if pattern.isPrefixOf (bs.drop count) then some count else lastPlace pattern bs count

/-- Where the end record starts: at the very end, or else at its last occurrence among the places
that a comment allows. -/
def endRecord? (file : Bytes) : Option Nat :=
  let size := file.length
  if size < 22 then none
  else
    let last := file.drop (size - 22)
    if last.take 4 = endMagic ∧ last.drop 20 = [0, 0] then some (size - 22)
    else
      let start := size - 22 - 0x10000
      let searched := file.drop start
      match lastPlace endMagic searched searched.length with
      | some place => if searched.length < place + 22 then none else some (start + place)
      | none => none

/-- What the end record says of the directory, and the number of bytes between the two. -/
structure Ending where
  size : Nat
  offset : Nat
  gap : Nat

/-- Read an end record. A longer one may stand in front of it, and is pointed at in between. -/
def readEnding (file : Bytes) (place : Nat) : Except ArchiveError Ending := do
  let short : Ending := ⟨file.word 4 (place + 12), file.word 4 (place + 16), 0⟩
  if place < 20 ∨ file.slice (place - 20) 4 ≠ [0x50, 0x4B, 6, 7] then return short
  if file.word 4 (place - 16) ≠ 0 ∨ 1 < file.word 4 (place - 4) then throw .manyDisks
  if place < 76 then throw .notArchive
  if file.slice (place - 76) 4 ≠ [0x50, 0x4B, 6, 6] then return short
  return ⟨file.word 8 (place - 36), file.word 8 (place - 28), 76⟩

/-- What a field of four bytes holds when the number is too large for it. -/
def tooLarge : Nat := 0xFFFFFFFF

/-- Take the first of some longer fields, unless the short one is large enough. -/
def longField (n : Nat) (isShort : Bool) (name : String) (bs : Bytes) :
    Except ArchiveError (Nat × Bytes) :=
  if isShort then .ok (n, bs)
  else if bs.length < 8 then .error (.missingField name)
  else .ok (bs.word 8 0, bs.drop 8)

/-- Take the sizes and the offset that do not fit their fields from longer ones. -/
def Entry.lengthen (e : Entry) (bs : Bytes) : Except ArchiveError Entry := do
  let fits := e.size ≠ tooLarge ∧ e.size ≠ 0xFFFFFFFFFFFFFFFF
  let (size, bs) ← longField e.size fits "File size" bs
  let (packedSize, bs) ← longField e.packedSize (e.packedSize ≠ tooLarge) "Compress size" bs
  let (offset, _) ← longField e.offset.toNat (e.offset ≠ tooLarge) "Header offset" bs
  return { e with size, packedSize, offset }

/-- Read the extra fields of an entry; those with the tag one are longer fields. The number bounds
them. -/
def readExtra : Nat → Bytes → Entry → Except ArchiveError Entry
  | 0, _, e => .ok e
  | bound + 1, bs, e => do
    if bs.length < 4 then return e
    let tag := bs.word 2 0
    let size := bs.word 2 2
    if bs.length < size + 4 then throw (.extraField tag size)
    let e ← if tag = 1 then e.lengthen (bs.slice 4 size) else pure e
    readExtra bound (bs.drop (size + 4)) e

/-- Read the entries of the directory; `concat` is the number of bytes in front of the archive.
The first number bounds the entries, `listedSize` is the size of the directory that is left. -/
def readEntries (concat : Int) : Nat → Int → Bytes → Except ArchiveError (List Entry)
  | 0, _, _ => .ok []
  | bound + 1, listedSize, bs =>
    if listedSize ≤ 0 then .ok []
    else if bs.length < 46 then .error .cutDirectory
    else if bs.word 4 0 ≠ 0x02014B50 then .error .directoryMagic
    else do
      let nameSize := bs.word 2 28
      let extraSize := bs.word 2 30
      let total := 46 + nameSize + extraSize + bs.word 2 32
      let flags := bs.word 2 8
      let listed ← decodeName flags (bs.slice 46 nameSize)
      if 63 < bs.word 1 6 then throw (.version (bs.word 1 6))
      let extra := bs.slice (46 + nameSize) extraSize
      let entry ← readExtra extra.length extra
        { listed, flags
          method := bs.word 2 10
          checksum := bs.word 4 16
          packedSize := bs.word 4 20
          size := bs.word 4 24
          attributes := bs.word 4 38
          offset := bs.word 4 42
          stop := 0 }
      let rest ← readEntries concat bound (listedSize - total) (bs.drop total)
      return { entry with offset := entry.offset + concat } :: rest

/-- Let each entry stop where the next one in the file begins, or where the directory does. Of
entries that begin at the same place, the first one listed is the last one in the file. -/
def withStops (start : Int) (entries : List Entry) : List Entry :=
  entries.zipIdx.map fun (e, i) =>
    let stop :=
      if (entries.take i).any (·.offset = e.offset) then e.offset
      else ((entries.map Entry.offset).filter (e.offset < ·)).min?.getD start
    { e with stop }

structure Contents where
  file : Bytes
  entries : List Entry

def read (file : Bytes) : Except ArchiveError Contents :=
  match endRecord? file with
  | none => .error .notArchive
  | some place => do
    let ending ← readEnding file place
    let start : Int := (place : Int) - ending.gap - ending.size
    if start < 0 then throw .directoryOffset
    let directory := file.slice start.toNat ending.size
    let entries ← readEntries (start - ending.offset) (directory.length + 1) ending.size directory
    return ⟨file, withStops start entries⟩

end SourceRecovery.Archive
