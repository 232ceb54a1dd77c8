import SourceRecovery.Image.Frame
import SourceRecovery.Image.Schema

/-!
# Streams of an image

The managed part of an image holds its metadata in streams: the tables, and the heaps of strings
and blobs that the rows point into. They are read here into rows of plain numbers.
-/

namespace SourceRecovery.Image

/-- The streams of the metadata that the program looks at. -/
structure Streams where
  tables : Option Bytes
  strings : Option Bytes
  blobs : Option Bytes

/-- The streams with one more; the last stream of a kind counts. -/
def Streams.add (s : Streams) (name : Bytes) (data : Bytes) : Streams :=
  if name = Text.encode "#~" ∨ name = Text.encode "#-" ∨ name = Text.encode "#Schema" then
    { s with tables := some data }
  else if name = Text.encode "#Strings" then { s with strings := some data }
  else if name = Text.encode "#Blob" then { s with blobs := some data }
  else s

/-- Read `count` stream headers from an address on. Stream offsets count from `root`. -/
def readStreams (f : Frame) (root : Nat) : Nat → Nat → Streams → Streams
  | 0, _, found => found
  | count + 1, address, found =>
    match f.fetch? address 40 with
    | none => found
    | some header =>
      let name := (header.drop 8).takeWhile (· ≠ 0)
      let next := address + 8 + (name.length / 4 + 1) * 4
      let found := match f.fetch? (root + header.word 4 0) (header.word 4 4) with
        | some data => found.add name data
        | none => found
      readStreams f root count next found

/-! ### Heaps -/

/-- The string at an index of a heap, up to the next zero. One that is no text reads `None`. -/
def stringAt (heap : Option Bytes) (index : Nat) : String :=
  match heap with
  | none => ""
  | some bs => (Text.decode? ((bs.drop index).takeWhile (· ≠ 0))).getD "None"

/-- The length that a blob starts with, and the number of bytes that the length takes. -/
def blobLength? : Bytes → Option (Nat × Nat)
  | [] => none
  | a :: rest =>
    if a < 0x80 then some (a.toNat, 1)
    else if a < 0xC0 then
      match rest with
      | b :: _ => some ((a.toNat - 0x80) * 0x100 + b.toNat, 2)
      | _ => none
    else if a < 0xE0 then
      match rest with
      | b :: c :: d :: _ =>
        some ((((a.toNat - 0xC0) * 0x100 + b.toNat) * 0x100 + c.toNat) * 0x100 + d.toNat, 4)
      | _ => none
    else none

/-- The blob at an index of a heap. -/
def blobAt (heap : Option Bytes) (index : Nat) : Option Bytes := do
  let bs := (← heap).drop index
  let (length, size) ← blobLength? bs
  return Bytes.slice bs size length

/-! ### Tables -/

abbrev Row := List Nat

/-- The numbers in columns of some widths, read from the start of bytes. -/
def readRow : List Nat → Bytes → Row
  | [], _ => []
  | w :: widths, bs => Bytes.toNat (bs.take w) :: readRow widths (bs.drop w)

/-- Read up to `count` rows with columns of some widths, as far as there are bytes for them. -/
def readRows (widths : List Nat) : Nat → Bytes → List Row
  | 0, _ => []
  | count + 1, bs =>
    if bs.length < widths.sum then []
    else readRow widths bs :: readRows widths count (bs.drop widths.sum)

/-- The rows of each table, by its number. -/
abbrev Tables := List (List Row)

def Tables.rows (t : Tables) (table : Nat) : List Row := t.getD table []

/-- Read tables with given columns and numbers of rows, one behind the other. -/
def readTables (sizes : Schema.Sizes) : List (List Column × Nat) → Bytes → Tables
  | [], _ => []
  | (columns, count) :: rest, bs =>
    let widths := columns.map (Schema.width sizes)
    readRows widths count bs :: readTables sizes rest (bs.drop (widths.sum * count))

/-- The numbers of rows of the tables that a mask marks as present, and the bytes they take. -/
def rowCounts (mask : Nat) (bs : Bytes) : Nat → Nat → List Nat × Nat
  | 0, offset => ([], offset)
  | left + 1, offset =>
    let table := 64 - (left + 1)
    if mask.testBit table then
      let (counts, stop) := rowCounts mask bs left (offset + 4)
      (bs.word 4 offset :: counts, stop)
    else
      let (counts, stop) := rowCounts mask bs left offset
      (0 :: counts, stop)

def Tables.read (bs : Bytes) : Tables :=
  let flags := bs.word 1 6
  let (counts, start) := rowCounts (bs.word 8 8) bs 64 24
  let sizes : Schema.Sizes :=
    { wideStrings := flags.testBit 0, wideGuids := flags.testBit 1, wideBlobs := flags.testBit 2
      rows := counts }
  readTables sizes (Schema.columns.zip counts)
    (bs.drop (if flags.testBit 6 then start + 4 else start))

end SourceRecovery.Image
