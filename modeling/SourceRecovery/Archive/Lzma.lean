import SourceRecovery.Archive.Packed
import SourceRecovery.Image.Word

/-!
# Range coding

Decoding of data in which each bit takes the room that its odds give it. As in deflated data, the
bits write literal bytes and references back into what is already decoded.
-/

namespace SourceRecovery.Lzma

open Packed

/-- The packed bytes that are left, the range within them that is being read and the place in it,
and the odds of the bits, in parts of 2048 that speak for a zero. -/
structure Coder where
  input : Bytes
  range : UInt32
  place : UInt32
  odds : Array Nat

abbrev Decode := Packed.Decode Coder

/-! ### Bits -/

/-- Read a byte. -/
def byte : Decode UInt8 := do
  match (← get).source.input with
  | [] => throw .cut
  | b :: rest =>
    modify fun s => { s with source := { s.source with input := rest } }
    return b

/-- Let the place within the range be told by one more byte. -/
def locate : Decode Unit := do
  let b ← byte
  modify fun s => { s with source := { s.source with
    place := (s.source.place <<< 8) ||| b.toUInt32 } }

/-- Widen the range by a byte once it is too narrow. -/
def widen : Decode Unit := do
  if (← get).source.range < 0x1000000 then
    locate
    modify fun s => { s with source := { s.source with range := s.source.range <<< 8 } }

/-- Read a bit by the odds at some place, which then come nearer to it. -/
def Coder.next (c : Coder) (i : Nat) : Bool × Coder :=
  let bound := (c.range >>> 11) * UInt32.ofNat (c.odds.getD i 0)
  if c.place < bound then
    (false, { c with range := bound, odds := c.odds.modify i fun p => p + (2048 - p) / 32 })
  else
    (true, { c with range := c.range - bound, place := c.place - bound
                    odds := c.odds.modify i fun p => p - p / 32 })

/-- Read a bit that goes by no odds. -/
def Coder.nextPlain (c : Coder) : Bool × Coder :=
  let range := c.range >>> 1
  if c.place - range < 0x80000000 then (true, { c with range, place := c.place - range })
  else (false, { c with range })

/-- Read a bit from a range that is wide enough. -/
def bitBy (next : Coder → Bool × Coder) : Decode Bool := do
  widen
  modifyGet fun s =>
    let (b, c) := next s.source
    (b, { s with source := c })

def bit (i : Nat) : Decode Bool := bitBy (·.next i)

/-- Read bits that go by no odds, highest first; `n` is the number that was read so far. -/
def plain : Nat → Nat → Decode Nat
  | 0, n => return n
  | count + 1, n => do plain count (2 * n + (← bitBy Coder.nextPlain).toNat)

/-- Read bits, highest first, each by odds that depend on those before it; `n` is the number that
these write after a one. -/
def tree (base : Nat) : Nat → Nat → Decode Nat
  | 0, n => return n
  | count + 1, n => do tree base count (2 * n + (← bit (base + n)).toNat)

/-- Read a number of some bits, highest first. -/
def number (base count : Nat) : Decode Nat := return (← tree base count 1) - Nat.pow 2 count

/-- Read a number, lowest bit first. -/
def numberLow (base : Nat) : Nat → Nat → Decode Nat
  | 0, _ => return 0
  | count + 1, n => do
    let b ← bit (base + n)
    return b.toNat + 2 * (← numberLow base count (2 * n + b.toNat))

/-- Read bits as in a tree, by odds of their own as long as they agree with a byte that is
expected. -/
def treeLike (base expected : Nat) : Nat → Nat → Decode Nat
  | 0, n => return n
  | count + 1, n => do
    let e := expected.testBit count
    let b ← bit (base + (if e then 0x200 else 0x100) + n)
    let n := 2 * n + b.toNat
    if b = e then treeLike base expected count n else tree base count n

/-! ### Places of the odds

A phase is what the last symbols were, as far as the odds depend on it. It is at least seven after
a reference.
-/

/-- Whether a symbol is a reference, by phase and place. -/
def oddsReference : Nat := 0

/-- Whether a reference goes back to one of the last distances, by phase. -/
def oddsRecent : Nat := 192

/-- Whether that distance is not the last one, not the second to last, and not the third to last,
by phase. -/
def oddsWhich (k : Nat) : Nat := 204 + 12 * k

/-- Whether a reference to the last distance is longer than a byte, by phase and place. -/
def oddsLong : Nat := 240

/-- The slot of a distance, by length. -/
def oddsSlot : Nat := 432

/-- The lowest bits of a distance, by slot, and those of a far one. -/
def oddsDistance : Nat := 688

def oddsFar : Nat := 802

/-- The length of a reference to a new distance, and to one of the last ones. -/
def oddsLength : Nat := 818

def oddsLengthRecent : Nat := 1332

/-- The bits of a literal, by place and by the byte before. -/
def oddsLiteral : Nat := 1846

/-! ### Symbols -/

/-- What the decoder is told: how many bits of the byte before a literal and of its place matter
for it, how many bits of the place of a symbol matter, and how far back references go. -/
structure Settings where
  literalContext : Nat
  literalPlace : Nat
  place : Nat
  reach : Nat

/-- The settings that five bytes hold, if there are such. -/
def settings? (bs : Bytes) : Option Settings :=
  let first := bs.word 1 0
  let s : Settings :=
    { literalContext := first % 9
      literalPlace := first / 9 % 5
      place := first / 45
      reach := (max (bs.word 4 1) 4096 + 15) / 16 * 16 }
  if bs.length = 5 ∧ s.place ≤ 4 ∧ s.literalContext + s.literalPlace ≤ 4 then some s else none

/-- The number of bytes that are decoded. -/
def place : Decode Nat := return (← get).out.size

/-- The byte some way back, zero in front of the first one. -/
def back (distance : Nat) : Decode UInt8 := do
  let out := (← get).out
  return if out.size < distance then 0 else out.getD (out.size - distance) 0

/-- Decode a literal. After a reference, the byte that would have continued it is expected. -/
def literal (s : Settings) (phase : Nat) (distance : Nat) : Decode Unit := do
  let before := (← back 1).toNat / Nat.pow 2 (8 - s.literalContext)
  let base := oddsLiteral +
    0x300 * ((← place) % Nat.pow 2 s.literalPlace * Nat.pow 2 s.literalContext + before)
  let n ← if phase < 7 then tree base 8 1 else treeLike base (← back (distance + 1)).toNat 8 1
  emit (UInt8.ofNat (n - 0x100))

/-- Read a length. -/
def length (base here : Nat) : Decode Nat := do
  if !(← bit base) then return 2 + (← number (base + 2 + 8 * here) 3)
  else if !(← bit (base + 1)) then return 10 + (← number (base + 130 + 8 * here) 3)
  else return 18 + (← number (base + 258) 8)

/-- Read a distance, which counts from zero. -/
def distance (length : Nat) : Decode Nat := do
  let slot ← number (oddsSlot + 64 * min (length - 2) 3) 6
  let count := slot / 2 - 1
  let least := (2 + slot % 2) * Nat.pow 2 count
  if slot < 4 then return slot
  else if slot < 14 then return least + (← numberLow (oddsDistance + least - slot) count 1)
  else
    let high ← plain (count - 4) 0
    return least + 16 * high + (← numberLow oddsFar 4 1)

/-- The distance that ends the data. -/
def endMark : Nat := 0xFFFFFFFF

/-- Read which of the last distances a reference goes back to. -/
def which (phase : Nat) : Decode Nat := do
  if !(← bit (oddsWhich 0 + phase)) then return 0
  else if !(← bit (oddsWhich 1 + phase)) then return 1
  else if !(← bit (oddsWhich 2 + phase)) then return 2
  else return 3

/-- Read the length of a reference to one of the last distances, and the phase after it. -/
def lengthRecent (phase here k : Nat) : Decode (Nat × Nat) := do
  if k = 0 then
    if !(← bit (oddsLong + 16 * phase + here)) then return (1, if phase < 7 then 9 else 11)
  return (← length oddsLengthRecent here, if phase < 7 then 8 else 11)

/-- Decode symbols up to the end. The first number bounds them; the list holds the last
distances. -/
def symbols (s : Settings) : Nat → Nat → List Nat → Decode Unit
  | 0, _, _ => throw .cut
  | bound + 1, phase, recent => do
    let here := (← place) % Nat.pow 2 s.place
    if !(← bit (oddsReference + 16 * phase + here)) then
      literal s phase (recent.headD 0)
      symbols s bound (if phase < 4 then 0 else if phase < 10 then phase - 3 else phase - 6) recent
    else if !(← bit (oddsRecent + phase)) then
      let length ← length oddsLength here
      let distance ← distance length
      if distance = endMark then
        widen
        if (← get).source.place ≠ 0 then throw .invalid
      else
        if min (← place) s.reach ≤ distance then throw .invalid
        copyBack (distance + 1) length
        symbols s bound (if phase < 7 then 7 else 10) (distance :: recent.take 3)
    else
      if (← place) = 0 then throw .invalid
      let k ← which phase
      let recent := toFront recent k
      let (length, phase) ← lengthRecent phase here k
      copyBack (recent.headD 0 + 1) length
      symbols s bound phase recent

/-- The number of bits that a byte holds is below this: even one that is read by the best odds
narrows the range by more than a hundredth. -/
def bitsPerByte : Nat := 400

/-- Decode range-coded data, which begin with a zero and the first place. -/
def stream (s : Settings) (bound : Nat) : Decode Unit := do
  if (← byte) ≠ 0 then throw .invalid
  for _ in List.range 4 do locate
  symbols s bound 0 [0, 0, 0, 0]

/-- What range-coded data decode to; all of it is given, however much that is. A version and the
settings come first; nothing is done before there is a byte behind them. -/
def run : Decoder := fun _ bs =>
  let size := bs.word 2 2
  let packed := bs.drop (4 + size)
  if packed = [] then ⟨[], some .cut, 0⟩
  else
    match settings? (bs.slice 4 size) with
    | none => ⟨[], some .unsupported, 0⟩
    | some s =>
      let oddsCount := oddsLiteral + 0x300 * Nat.pow 2 (s.literalContext + s.literalPlace)
      let start : Coder :=
        { input := packed
          range := 0xFFFFFFFF
          place := 0
          odds := Array.replicate oddsCount 1024 }
      decode (stream s (bitsPerByte * (packed.length + 8))) none start fun _ => 0

end SourceRecovery.Lzma
