import SourceRecovery.Archive.Checksum
import SourceRecovery.Archive.Packed

/-!
# Block sorting

Decoding of block-sorted data. A block holds the last column of its sorted rotations, each byte
written by how recently it was used, in several prefix codes that take turns.
-/

namespace SourceRecovery.Bzip2

open Packed

abbrev Decode := Packed.Decode (List Bool)

/-- The number that the next bits write, highest first. -/
def number (count : Nat) : Decode Nat := return ofBits (← bits count).reverse

/-- Read bytes that have to be there. -/
def expect : List Nat → Decode Unit
  | [] => pure ()
  | b :: rest => do
    if (← number 8) ≠ b then throw .invalid
    expect rest

/-! ### Codes of a block -/

/-- The byte values that occur in a block: bits say in which sixteenths of all values they are,
and further bits which of the values there. -/
def usedValues : Decode (List Nat) := do
  let sixteenths ← bits 16
  let marks ← sixteenths.mapM fun used =>
    if used then bits 16 else pure (List.replicate 16 false)
  return (marks.flatten.zipIdx.filter (·.1)).map (·.2)

/-- The number of ones up to the next zero, which has to be below a bound. -/
def onesBelow : Nat → Decode Nat
  | 0 => throw .invalid
  | bound + 1 => do
    if ← bit then return (← onesBelow bound) + 1 else return 0

/-- Undo that the elements of a list were written by their places in an order in which each one
moves to the front when it is used. -/
def unfront : List Nat → List Nat → List Nat
  | _, [] => []
  | order, i :: rest =>
    let order := toFront order i
    order.headD 0 :: unfront order rest

/-- The length of the longest codes. -/
def maxLength : Nat := 20

/-- Read the length of a code: the former one, made longer or shorter by one as often as the bits
say. The first number bounds how often. -/
def codeLength : Nat → Nat → Decode Nat
  | 0, _ => throw .cut
  | bound + 1, length => do
    if length < 1 ∨ maxLength < length then throw .invalid
    if !(← bit) then return length
    if ← bit then codeLength bound (length - 1) else codeLength bound (length + 1)

/-- Read the lengths of codes, each from the one before it. -/
def codeLengths (bound : Nat) : Nat → Nat → Decode (List Nat)
  | 0, _ => return []
  | count + 1, length => do
    let length ← codeLength bound length
    return length :: (← codeLengths bound count length)

/-- A code for some symbols. A bit is read beyond the longest length before a code is found to be
none, so that length is there too. -/
def code (bound count : Nat) : Decode Code :=
  return .ofLengths (maxLength + 1) (← codeLengths bound count (← number 5))

/-- The number of symbols after which the next code takes over. -/
def turn : Nat := 50

/-- The codes of a block for some symbols, in the order in which they take turns. -/
def codes (bound count : Nat) : Decode (Array Code) := do
  let tableCount ← number 3
  if tableCount < 2 ∨ 6 < tableCount then throw .invalid
  let turnCount ← number 15
  if turnCount < 1 then throw .invalid
  let places ← (List.range turnCount).mapM fun _ => onesBelow tableCount
  let tables ← (List.range tableCount).mapM fun _ => code bound count
  return ((unfront (List.range tableCount) places).filterMap (tables[·]?)).toArray

/-! ### The column of a block -/

/-- What is read of a column: the number of symbols, the values in the order of their last use,
the length of the run that is being written and what the next symbol of it counts, and the
bytes. -/
structure Column where
  count : Nat
  order : List Nat
  run : Nat
  weight : Nat
  bytes : Array UInt8

namespace Column

/-- Add some bytes of the value that was used last. -/
def push (c : Column) (count : Nat) : Column :=
  let b := UInt8.ofNat (c.order.headD 0)
  { c with bytes := (List.range count).foldl (fun bytes _ => bytes.push b) c.bytes
           run := 0
           weight := 1 }

/-- Read symbols up to the last one: two that write the length of a run in twos, and then one for
each place but the first in the order of the values. The number bounds them: each takes at least
one bit. -/
def read (codes : Array Code) (last limit : Nat) : Nat → Column → Decode Column
  | 0, _ => throw .cut
  | bound + 1, c => do
    let some code := codes[c.count / turn]? | throw .invalid
    let s ← code.read (maxLength + 1)
    let c := { c with count := c.count + 1 }
    if s ≤ 1 then
      if 0x200000 ≤ c.weight then throw .invalid
      read codes last limit bound
        { c with run := c.run + (s + 1) * c.weight, weight := 2 * c.weight }
    else
      if limit < c.bytes.size + c.run then throw .invalid
      let c := c.push c.run
      if s = last then return c
      if limit ≤ c.bytes.size then throw .invalid
      let c := { c with order := toFront c.order (s - 1) }
      read codes last limit bound (c.push 1)

end Column

/-- The first column follows the last one: the places of the bytes, in the order of the bytes. -/
def followers (bytes : Array UInt8) : Array Nat :=
  ((bytes.toList.zipIdx.mergeSort fun a b => a.1 ≤ b.1).map (·.2)).toArray

/-- Undo the sorting of the rotations, of which the one at `start` is the block. -/
def unsort (bytes : Array UInt8) (start : Nat) : Bytes :=
  let next := followers bytes
  let walk := (List.range bytes.size).foldl
    (fun (out, place) _ => (out.push (bytes.getD place 0), next.getD place 0))
    ((#[] : Array UInt8), next.getD start 0)
  walk.1.toList

/-- The distances between the bytes in which a bit is flipped to make a block less regular. -/
def flipDistances : Array Nat :=
  #[619, 720, 127, 481, 931, 816, 813, 233, 566, 247, 985, 724, 205, 454, 863, 491, 741, 242, 949,
    214, 733, 859, 335, 708, 621, 574, 73, 654, 730, 472, 419, 436, 278, 496, 867, 210, 399, 680,
    480, 51, 878, 465, 811, 169, 869, 675, 611, 697, 867, 561, 862, 687, 507, 283, 482, 129, 807,
    591, 733, 623, 150, 238, 59, 379, 684, 877, 625, 169, 643, 105, 170, 607, 520, 932, 727, 476,
    693, 425, 174, 647, 73, 122, 335, 530, 442, 853, 695, 249, 445, 515, 909, 545, 703, 919, 874,
    474, 882, 500, 594, 612, 641, 801, 220, 162, 819, 984, 589, 513, 495, 799, 161, 604, 958, 533,
    221, 400, 386, 867, 600, 782, 382, 596, 414, 171, 516, 375, 682, 485, 911, 276, 98, 553, 163,
    354, 666, 933, 424, 341, 533, 870, 227, 730, 475, 186, 263, 647, 537, 686, 600, 224, 469, 68,
    770, 919, 190, 373, 294, 822, 808, 206, 184, 943, 795, 384, 383, 461, 404, 758, 839, 887, 715,
    67, 618, 276, 204, 918, 873, 777, 604, 560, 951, 160, 578, 722, 79, 804, 96, 409, 713, 940,
    652, 934, 970, 447, 318, 353, 859, 672, 112, 785, 645, 863, 803, 350, 139, 93, 354, 99, 820,
    908, 609, 772, 154, 274, 580, 184, 79, 626, 630, 742, 653, 282, 762, 623, 680, 81, 927, 626,
    789, 125, 411, 521, 938, 300, 821, 78, 343, 175, 128, 250, 170, 774, 972, 275, 999, 639, 495,
    78, 352, 126, 857, 956, 358, 619, 580, 124, 737, 594, 701, 612, 669, 112, 134, 694, 363, 992,
    809, 743, 168, 974, 944, 375, 748, 52, 600, 747, 642, 182, 862, 81, 344, 805, 988, 739, 511,
    655, 814, 334, 249, 515, 897, 955, 664, 981, 649, 113, 974, 459, 893, 228, 433, 837, 553, 268,
    926, 240, 102, 654, 459, 51, 686, 754, 806, 760, 493, 403, 415, 394, 687, 700, 946, 670, 656,
    610, 738, 392, 760, 799, 887, 653, 978, 321, 576, 617, 626, 502, 894, 679, 243, 440, 680, 879,
    194, 572, 640, 724, 926, 56, 204, 700, 707, 151, 457, 449, 797, 195, 791, 558, 945, 679, 297,
    59, 87, 824, 713, 663, 412, 693, 342, 606, 134, 108, 571, 364, 631, 212, 174, 643, 304, 329,
    343, 97, 430, 751, 497, 314, 983, 374, 822, 928, 140, 206, 73, 263, 980, 736, 876, 478, 430,
    305, 170, 514, 364, 692, 829, 82, 855, 953, 676, 246, 369, 970, 294, 750, 807, 827, 150, 790,
    288, 923, 804, 378, 215, 828, 592, 281, 565, 555, 710, 82, 896, 831, 547, 261, 524, 462, 293,
    465, 502, 56, 661, 821, 976, 991, 658, 869, 905, 758, 745, 193, 768, 550, 608, 933, 378, 286,
    215, 979, 792, 961, 61, 688, 793, 644, 986, 403, 106, 366, 905, 644, 372, 567, 466, 434, 645,
    210, 389, 550, 919, 135, 780, 773, 635, 389, 707, 100, 626, 958, 165, 504, 920, 176, 193, 713,
    857, 265, 203, 50, 668, 108, 645, 990, 626, 197, 510, 357, 358, 850, 858, 364, 936, 638]

/-- Undo the flips of bits. -/
def unflip (bs : Bytes) : Bytes :=
  let undone := bs.foldl
    (fun (out, left, i) b =>
      let (left, i) := if left = 0 then (flipDistances.getD (i % 512) 0, i + 1) else (left, i)
      (out.push (if left = 2 then b ^^^ 1 else b), left - 1, i))
    ((#[] : Array UInt8), 0, 0)
  undone.1.toList

/-- Undo the shortening of runs: after four equal bytes, the next one tells how many more there
are, and has to be there. -/
def unshorten? (bs : Bytes) : Option Bytes :=
  let (out, _, repeats) := bs.foldl
    (fun (out, last, repeats) b =>
      if repeats = 4 then ((List.range b.toNat).foldl (fun out _ => out.push last) out, last, 0)
      else if repeats ≠ 0 ∧ b = last then (out.push b, last, repeats + 1)
      else (out.push b, b, 1))
    ((#[] : Array UInt8), 0, 0)
  if repeats = 4 then none else some out.toList

/-! ### Blocks -/

/-- Decode a block of at most `limit` bytes; the checksum of what it holds. -/
def block (bound limit : Nat) : Decode UInt32 := do
  let check ← number 32
  let flipped ← bit
  let start ← number 24
  if 10 + limit < start then throw .invalid
  let values ← usedValues
  if values = [] then throw .invalid
  let codes ← codes bound (values.length + 2)
  let column ← Column.read codes (values.length + 1) limit bound ⟨0, values, 0, 1, #[]⟩
  if column.bytes.size ≤ start then throw .invalid
  let unsorted := unsort column.bytes start
  match unshorten? (if flipped then unflip unsorted else unsorted) with
  | none => throw .invalid
  | some content =>
    if (Checksum.ofBytesHigh content).toNat ≠ check then throw .invalid
    content.forM emit
    return Checksum.ofBytesHigh content

/-- Decode blocks up to the end, which comes with a checksum of their checksums. The first number
bounds what takes at least one bit, the last one the blocks. -/
def blocks (bound limit : Nat) : Nat → UInt32 → Decode Unit
  | 0, _ => throw .cut
  | count + 1, sum => do
    let first ← number 8
    if first = 0x17 then
      expect [0x72, 0x45, 0x38, 0x50, 0x90]
      if (← number 32) ≠ sum.toNat then throw .invalid
    else if first = 0x31 then
      expect [0x41, 0x59, 0x26, 0x53, 0x59]
      let check ← block bound limit
      blocks bound limit count (((sum <<< 1) ||| (sum >>> 31)) ^^^ check)
    else throw .invalid

def stream (bound : Nat) : Decode Unit := do
  expect [0x42, 0x5A, 0x68]
  let level ← number 8
  if level < 0x31 ∨ 0x39 < level then throw .invalid
  blocks bound (100000 * (level - 0x30)) bound 0

/-- What block-sorted data decode to; all of it is given, however much that is. -/
def run : Decoder := fun _ bs =>
  decode (stream (8 * bs.length + 1)) none (bs.flatMap fun b => (bitsOf b).reverse) fun _ => 0

end SourceRecovery.Bzip2
