import SourceRecovery.Archive.Packed

/-!
# Inflating

Decoding of deflated data: blocks of literal bytes and of references back into what is already
decoded, written in prefix codes.
-/

namespace SourceRecovery.Inflate

open Packed

abbrev Decode := Packed.Decode (List Bool)

/-- The number that the next bits write, lowest first. -/
def number (count : Nat) : Decode Nat := return ofBits (← bits count)

/-- The length of the longest codes. -/
def maxLength : Nat := 15

/-- Read a symbol. At least one bit is read, and no more than the longest code has. -/
def symbol (c : Code) : Decode Nat := c.read (max 1 c.maxLength)

/-! ### Blocks -/

/-- The least length of each length symbol from 257 on, and the number of bits added to it. -/
def lengthTable : List (Nat × Nat) :=
  [(3, 0), (4, 0), (5, 0), (6, 0), (7, 0), (8, 0), (9, 0), (10, 0), (11, 1), (13, 1), (15, 1),
   (17, 1), (19, 2), (23, 2), (27, 2), (31, 2), (35, 3), (43, 3), (51, 3), (59, 3), (67, 4),
   (83, 4), (99, 4), (115, 4), (131, 5), (163, 5), (195, 5), (227, 5), (258, 0)]

/-- The least distance of each distance symbol, and the number of bits added to it. -/
def distanceTable : List (Nat × Nat) :=
  [(1, 0), (2, 0), (3, 0), (4, 0), (5, 1), (7, 1), (9, 2), (13, 2), (17, 3), (25, 3), (33, 4),
   (49, 4), (65, 5), (97, 5), (129, 6), (193, 6), (257, 7), (385, 7), (513, 8), (769, 8),
   (1025, 9), (1537, 9), (2049, 10), (3073, 10), (4097, 11), (6145, 11), (8193, 12), (12289, 12),
   (16385, 13), (24577, 13)]

/-- Read a length or a distance: the least one of its symbol and the bits added to it. -/
def extended (table : List (Nat × Nat)) (symbol : Nat) : Decode Nat :=
  match table[symbol]? with
  | some (base, extra) => return base + (← number extra)
  | none => throw .invalid

/-- Decode the symbols of a block up to its end. The number bounds them: each takes at least one
bit. -/
def symbols (literals distances : Code) : Nat → Decode Unit
  | 0 => throw .cut
  | bound + 1 => do
    let s ← symbol literals
    if s < 256 then
      emit (UInt8.ofNat s)
      symbols literals distances bound
    else if s = 256 then pure ()
    else
      let count ← extended lengthTable (s - 257)
      let distance ← extended distanceTable (← symbol distances)
      if (← get).out.size < distance then throw .invalid
      copyBack distance count
      symbols literals distances bound

/-- The lengths of the fixed literal code. -/
def fixedLiterals : List Nat :=
  List.replicate 144 8 ++ List.replicate 112 9 ++ List.replicate 24 7 ++ List.replicate 8 8

/-- The lengths of the fixed distance code. -/
def fixedDistances : List Nat := List.replicate 32 5

/-- The order in which the lengths of the code for lengths are written. -/
def lengthOrder : List Nat := [16, 17, 18, 0, 8, 7, 9, 6, 10, 5, 11, 4, 12, 3, 13, 2, 14, 1, 15]

/-- Read `total` code lengths, with those read so far in reverse; the first number bounds the
symbols that write them. -/
def codeLengths (c : Code) (total : Nat) : Nat → List Nat → Decode (List Nat)
  | 0, read => if read.length = total then return read.reverse else throw .invalid
  | bound + 1, read =>
    if total < read.length then throw .invalid
    else if read.length = total then return read.reverse
    else do
      let s ← symbol c
      if s < 16 then codeLengths c total bound (s :: read)
      else if s = 16 then
        match read with
        | [] => throw .invalid
        | last :: _ => codeLengths c total bound (List.replicate (3 + (← number 2)) last ++ read)
      else if s = 17 then codeLengths c total bound (List.replicate (3 + (← number 3)) 0 ++ read)
      else codeLengths c total bound (List.replicate (11 + (← number 7)) 0 ++ read)

/-- Read the codes of a block that brings its own. -/
def ownCodes : Decode (Code × Code) := do
  let literalCount := (← number 5) + 257
  let distanceCount := (← number 5) + 1
  let writtenCount := (← number 4) + 4
  if 286 < literalCount ∨ 30 < distanceCount then throw .invalid
  let written ← (List.range writtenCount).mapM fun _ => number 3
  let pairs := lengthOrder.zip written
  let lengthCode := Code.ofLengths maxLength ((List.range 19).map fun s => (pairs.lookup s).getD 0)
  if !lengthCode.isUsable false then throw .invalid
  let total := literalCount + distanceCount
  let lengths ← codeLengths lengthCode total (total + 1) []
  let literals := Code.ofLengths maxLength (lengths.take literalCount)
  let distances := Code.ofLengths maxLength (lengths.drop literalCount)
  if lengths[256]? = some 0 ∨ !literals.isUsable true ∨ !distances.isUsable true then
    throw .invalid
  return (literals, distances)

def plainBlock : Decode Unit := do
  modify fun s => { s with source := s.source.drop (s.source.length % 8) }
  let count ← number 16
  let check ← number 16
  if count + check ≠ 0xFFFF then throw .invalid
  for _ in List.range count do
    room
    emit (UInt8.ofNat (← number 8))

/-- Decode a block; true for the last one. -/
def block : Decode Bool := do
  let last ← number 1
  let kind ← number 2
  if kind = 0 then plainBlock
  else if kind = 1 then
    symbols (.ofLengths maxLength fixedLiterals) (.ofLengths maxLength fixedDistances)
      ((← get).source.length + 1)
  else if kind = 2 then
    let (literals, distances) ← ownCodes
    symbols literals distances ((← get).source.length + 1)
  else throw .invalid
  return last = 1

/-- Decode blocks up to the last one. The number bounds them: each takes at least three bits. -/
def blocks : Nat → Decode Unit
  | 0 => throw .cut
  | bound + 1 => do
    if ← block then pure () else blocks bound

/-- What deflated data decode to. -/
def run : Decoder := fun limit bs =>
  decode (blocks (8 * bs.length + 1)) limit (bs.flatMap bitsOf) (·.length / 8)

end SourceRecovery.Inflate
