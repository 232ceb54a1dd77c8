import SourceRecovery.Text.Utf8

/-!
# Checksums

The 32-bit cyclic redundancy check, bit by bit: of an archive's entries lowest bit first, and of
the blocks within packed ones highest bit first.
-/

namespace SourceRecovery.Checksum

/-- The reflected polynomial of the check. -/
def polynomial : UInt32 := 0xEDB88320

/-- Shift one bit out of the register. -/
def shift (r : UInt32) : UInt32 := if r &&& 1 = 1 then (r >>> 1) ^^^ polynomial else r >>> 1

def step (r : UInt32) (b : UInt8) : UInt32 :=
  shift (shift (shift (shift (shift (shift (shift (shift (r ^^^ b.toUInt32))))))))

def ofBytes (bs : Bytes) : UInt32 := bs.foldl step 0xFFFFFFFF ^^^ 0xFFFFFFFF

/-- Shift one bit out of the register at its other end. -/
def shiftHigh (r : UInt32) : UInt32 :=
  if r &&& 0x80000000 = 0 then r <<< 1 else (r <<< 1) ^^^ 0x04C11DB7

def stepHigh (r : UInt32) (b : UInt8) : UInt32 := Nat.repeat shiftHigh 8 (r ^^^ (b.toUInt32 <<< 24))

def ofBytesHigh (bs : Bytes) : UInt32 := bs.foldl stepHigh 0xFFFFFFFF ^^^ 0xFFFFFFFF

end SourceRecovery.Checksum
