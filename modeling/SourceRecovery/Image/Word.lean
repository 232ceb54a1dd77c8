import SourceRecovery.Text.Utf8

/-!
# Words

Numbers in an image are stored with their least significant byte first; a signed one is the
number below half of its range that is equal modulo the range.
-/

namespace SourceRecovery.Bytes

/-- The number that bytes store, least significant first. -/
def toNat : Bytes → Nat
  | [] => 0
  | b :: rest => b.toNat + 256 * toNat rest

/-- The `width` bytes that store a number, least significant first. -/
def ofNat : Nat → Nat → Bytes
  | 0, _ => []
  | width + 1, n => UInt8.ofNat (n % 256) :: ofNat width (n / 256)

/-- The signed number that bytes store. -/
def toInt (bs : Bytes) : Int :=
  if 2 * toNat bs < Nat.pow 256 bs.length then toNat bs
  else (toNat bs : Int) - Nat.pow 256 bs.length

/-- The bytes of a range, as far as there are any. -/
def slice (bs : Bytes) (start count : Nat) : Bytes := (bs.drop start).take count

/-- The number stored in `width` bytes at an offset, if they are all there. -/
def word? (width : Nat) (bs : Bytes) (offset : Nat) : Option Nat :=
  let w := slice bs offset width
  if w.length = width then some (toNat w) else none

/-- The number stored in `width` bytes at an offset, missing bytes counting as zero. -/
def word (width : Nat) (bs : Bytes) (offset : Nat) : Nat := toNat (slice bs offset width)

@[simp] theorem length_ofNat (width n : Nat) : (ofNat width n).length = width := by
  induction width generalizing n with
  | zero => rfl
  | succ width ih => simp [ofNat, ih]

/-- Stored bytes read back as the number, up to the range of their width. -/
theorem toNat_ofNat (width n : Nat) : toNat (ofNat width n) = n % Nat.pow 256 width := by
  induction width generalizing n with
  | zero => simp [ofNat, toNat, Nat.mod_one]
  | succ width ih =>
    have h : (UInt8.ofNat (n % 256)).toNat = n % 256 := by simp
    have hp : Nat.pow 256 (width + 1) = 256 * Nat.pow 256 width := Nat.mul_comm ..
    rw [ofNat, toNat, ih, h, hp, Nat.mod_mul]

theorem toNat_lt (bs : Bytes) : toNat bs < Nat.pow 256 bs.length := by
  induction bs with
  | nil => simp [toNat]
  | cons b rest ih =>
    have hb := b.toNat_lt
    have hp : Nat.pow 256 (rest.length + 1) = Nat.pow 256 rest.length * 256 := rfl
    rw [toNat, List.length_cons, hp]
    omega

end SourceRecovery.Bytes
