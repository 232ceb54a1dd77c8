import SourceRecovery.Image.Word

/-!
# Constants

A constant of an image is a blob together with the code of its element type. Ten element types
are integers, each with a size and a signedness.
-/

namespace SourceRecovery.Constant

/-- How an integer constant is stored. -/
structure Layout where
  size : Nat
  signed : Bool
  deriving DecidableEq, Repr

/-- The layout that belongs to the code of an integer element type. -/
def layout? : Int → Option Layout
  | 0x02 => some ⟨1, false⟩
  | 0x03 => some ⟨2, false⟩
  | 0x04 => some ⟨1, true⟩
  | 0x05 => some ⟨1, false⟩
  | 0x06 => some ⟨2, true⟩
  | 0x07 => some ⟨2, false⟩
  | 0x08 => some ⟨4, true⟩
  | 0x09 => some ⟨4, false⟩
  | 0x0A => some ⟨8, true⟩
  | 0x0B => some ⟨8, false⟩
  | _ => none

/-- The integer that a blob stores under an element type. Bytes beyond the size of the type do
not matter; other types and shorter blobs store none. -/
def decode (code : Int) (blob : Option Bytes) : Option Int := do
  let layout ← layout? code
  let bs ← blob
  if bs.length < layout.size then none
  else if layout.signed then some (Bytes.toInt (bs.take layout.size))
  else some (Bytes.toNat (bs.take layout.size))

end SourceRecovery.Constant
