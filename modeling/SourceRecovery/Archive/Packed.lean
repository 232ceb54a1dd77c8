import SourceRecovery.Text.Utf8

/-!
# Packed data

A decoder reads packed data and adds to what is decoded. Decoding also says how it ended, since
what was decoded before a fault is still of use. Most kinds of packed data are bits in prefix
codes.
-/

namespace SourceRecovery.Packed

/-- How decoding ends early: the data stop too soon, there is no room for what they decode to,
they are invalid, or they ask for what no decoder does. -/
inductive Fault
  | cut
  | full
  | invalid
  | unsupported
  deriving DecidableEq, Repr

/-- What is left to be read, what is decoded so far, and how many bytes there is room for, if that
is limited. -/
structure State (σ : Type) where
  source : σ
  out : Array UInt8
  limit : Option Nat

abbrev Decode (σ : Type) := EStateM Fault (State σ)

variable {σ : Type}

/-- Stop unless there is room for a byte. -/
def room : Decode σ Unit := do
  let s ← get
  if s.limit = some s.out.size then throw .full

/-- Add a byte to what is decoded. -/
def emit (b : UInt8) : Decode σ Unit := do
  room
  modify fun s => { s with out := s.out.push b }

/-- Repeat what was decoded some way back. -/
def copyBack (distance : Nat) : Nat → Decode σ Unit
  | 0 => pure ()
  | count + 1 => do
    let s ← get
    match s.out[s.out.size - distance]? with
    | some b => emit b; copyBack distance count
    | none => throw .invalid

/-- What data decode to, the fault that ended it, if one did, and how many bytes at their end are
not read so far. -/
structure Decoded where
  out : Bytes
  fault : Option Fault
  left : Nat

/-- A decoder of some data, for which the room may be limited. -/
abbrev Decoder := Option Nat → Bytes → Decoded

/-- What a source decodes to. Nothing of it is left unless there was no room. -/
def decode (d : Decode σ Unit) (limit : Option Nat) (source : σ) (left : σ → Nat) : Decoded :=
  match d.run ⟨source, #[], limit⟩ with
  | .ok _ s => ⟨s.out.toList, none, 0⟩
  | .error fault s => ⟨s.out.toList, some fault, if fault = .full then left s.source else 0⟩

/-- A list with one of its elements moved to the front. -/
def toFront {α : Type} (l : List α) (i : Nat) : List α := l[i]?.toList ++ l.eraseIdx i

/-! ### Bits -/

/-- The bits of a byte, lowest first. -/
def bitsOf (b : UInt8) : List Bool := (List.range 8).map b.toNat.testBit

/-- The number that bits write, lowest first. -/
def ofBits : List Bool → Nat
  | [] => 0
  | b :: rest => b.toNat + 2 * ofBits rest

/-- Read some bits. -/
def bits (count : Nat) : Decode (List Bool) (List Bool) := do
  let s ← get
  let taken := s.source.take count
  if taken.length < count then throw .cut
  set { s with source := s.source.drop count }
  return taken

/-- Read a bit. -/
def bit : Decode (List Bool) Bool := return (← bits 1).headD false

/-! ### Prefix codes -/

/-- A prefix code: the number of codes of each length, and the symbols in the order of their
codes. -/
structure Code where
  counts : List Nat
  symbols : Array Nat

namespace Code

/-- The code in which each symbol has a given length, of at most `longest` bits; a length of zero
is none. -/
def ofLengths (longest : Nat) (lengths : List Nat) : Code :=
  let all := (List.range (longest + 1)).map fun n =>
    if n = 0 then [] else (lengths.zipIdx.filter (·.1 = n)).map (·.2)
  { counts := all.map List.length, symbols := all.flatten.toArray }

/-- The codes left unused of the longest length, if the lengths fit into one code. -/
def unused? (c : Code) : Option Nat :=
  (c.counts.drop 1).foldlM (fun left count => if 2 * left < count then none
    else some (2 * left - count)) 1

def maxLength (c : Code) : Nat :=
  ((c.counts.zipIdx.filter (0 < ·.1)).map (·.2)).foldl max 0

/-- Whether a code may be used: it leaves nothing unused, unless that is allowed for a code with
at most one symbol of one bit. -/
def isUsable (c : Code) (allowShort : Bool) : Bool :=
  match c.unused? with
  | none => false
  | some left => left = 0 || c.maxLength = 0 || (allowShort && c.maxLength = 1)

/-- Read a symbol, from the counts of the lengths that are left. `code` is what was read so far,
`first` the first code of this length, and `index` the place of its symbol. -/
def readFrom (c : Code) (code first index : Nat) : List Nat → Decode (List Bool) Nat
  | [] => throw .invalid
  | count :: rest => do
    let code := 2 * code + (← bit).toNat
    let first := 2 * first
    if code < first + count then
      match c.symbols[index + (code - first)]? with
      | some s => return s
      | none => throw .invalid
    else readFrom c code (first + count) (index + count) rest

/-- Read a symbol of at most some bits. -/
def read (c : Code) (longest : Nat) : Decode (List Bool) Nat :=
  c.readFrom 0 0 0 ((c.counts.drop 1).take longest)

end Code

end SourceRecovery.Packed
