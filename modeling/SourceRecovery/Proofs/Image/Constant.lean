import Mathlib.Data.List.Basic
import SourceRecovery.Image.Constant

/-!
# Stored integers

An integer in the range of an element type is stored in as many bytes as the type has, the least
significant first, a negative one as its two's complement. Decoding is the inverse of that: it
reads back every integer of the range, whatever comes behind its bytes, and a blob that is long
enough starts with the bytes of the integer that is read from it.
-/

namespace SourceRecovery

/-! ### Bytes and integers -/

namespace Bytes

variable {width : ℕ} {v : Int} {bs : Bytes}

/-- The `width` bytes that store an integer, least significant first. A negative one is stored as
its two's complement. -/
def ofInt (width : ℕ) (v : Int) : Bytes := ofNat width (v % Nat.pow 256 width).toNat

@[simp] lemma length_ofInt : (ofInt width v).length = width := length_ofNat _ _

/-- Every bytes are those of the number that they store. -/
lemma ofNat_toNat (bs : Bytes) : ofNat bs.length (toNat bs) = bs := by
  induction bs with
  | nil => rfl
  | cons b rest ih =>
    have hb := b.toNat_lt
    have hfirst : (b.toNat + 256 * toNat rest) % 256 = b.toNat := by omega
    have hrest : (b.toNat + 256 * toNat rest) / 256 = toNat rest := by omega
    rw [List.length_cons, toNat, ofNat, hfirst, hrest, ih, UInt8.ofNat_toNat]

/-- Two's complement keeps a number modulo the range of its bytes. -/
lemma toNat_ofInt (width : ℕ) (v : Int) :
    (toNat (ofInt width v) : Int) = v % Nat.pow 256 width := by
  have hpos : (0 : Int) < Nat.pow 256 width := by exact_mod_cast Nat.pow_pos (by decide)
  have hnonneg := Int.emod_nonneg v (Int.ne_of_gt hpos)
  have hlt := Int.emod_lt_of_pos v hpos
  rw [ofInt, toNat_ofNat, Nat.mod_eq_of_lt (by omega), Int.toNat_of_nonneg hnonneg]

lemma ofInt_toNat (bs : Bytes) : ofInt bs.length (toNat bs) = bs := by
  have hlt : (toNat bs : Int) < Nat.pow 256 bs.length := by exact_mod_cast toNat_lt bs
  rw [ofInt, Int.emod_eq_of_lt (Int.natCast_nonneg _) hlt, Int.toNat_natCast, ofNat_toNat]

/-- The signed number of bytes is that which they store, up to the range of the bytes. -/
lemma toInt_emod (bs : Bytes) : toInt bs % Nat.pow 256 bs.length = toNat bs := by
  have hlt : (toNat bs : Int) < Nat.pow 256 bs.length := by exact_mod_cast toNat_lt bs
  unfold toInt
  split_ifs
  · exact Int.emod_eq_of_lt (Int.natCast_nonneg _) hlt
  · rw [Int.sub_emod_right, Int.emod_eq_of_lt (Int.natCast_nonneg _) hlt]

lemma ofInt_toInt (bs : Bytes) : ofInt bs.length (toInt bs) = bs := by
  rw [ofInt, toInt_emod, Int.toNat_natCast, ofNat_toNat]

/-- The signed numbers of bytes: as many below zero as from zero on. -/
lemma toInt_mem_range (bs : Bytes) :
    -(Nat.pow 256 bs.length : Int) ≤ 2 * toInt bs ∧ 2 * toInt bs < Nat.pow 256 bs.length := by
  have hlt := toNat_lt bs
  unfold toInt
  split_ifs <;> omega

lemma toInt_ofInt (hlow : -(Nat.pow 256 width : Int) ≤ 2 * v) (hhigh : 2 * v < Nat.pow 256 width) :
    toInt (ofInt width v) = v := by
  have hstored := toNat_ofInt width v
  unfold toInt
  rw [length_ofInt]
  by_cases hneg : v < 0
  · rw [← Int.add_emod_right, Int.emod_eq_of_lt (by omega) (by omega)] at hstored
    rw [if_neg (by omega), hstored]
    omega
  · rw [Int.emod_eq_of_lt (by omega) (by omega)] at hstored
    rw [if_pos (by omega), hstored]

end Bytes

namespace Constant

variable {code v : Int} {l : Layout} {bs : Bytes} {blob : Option Bytes}

/-! ### Layouts -/

namespace Layout

/-- The integers that can be stored in a layout. Half of those of a signed one are negative. -/
def Holds (l : Layout) (v : Int) : Prop :=
  if l.signed then -(Nat.pow 256 l.size : Int) ≤ 2 * v ∧ 2 * v < Nat.pow 256 l.size
  else 0 ≤ v ∧ v < Nat.pow 256 l.size

instance (l : Layout) (v : Int) : Decidable (l.Holds v) := by
  unfold Holds
  infer_instance

/-- The bytes of an integer in a layout. -/
def store (l : Layout) (v : Int) : Bytes := Bytes.ofInt l.size v

/-- The integer that bytes store in a layout. -/
def load (l : Layout) (bs : Bytes) : Int := if l.signed then Bytes.toInt bs else Bytes.toNat bs

@[simp] lemma length_store : (l.store v).length = l.size := Bytes.length_ofInt

lemma load_store (h : l.Holds v) : l.load (l.store v) = v := by
  unfold Holds at h
  unfold load store
  split_ifs at h ⊢
  · exact Bytes.toInt_ofInt h.1 h.2
  · rw [Bytes.toNat_ofInt, Int.emod_eq_of_lt h.1 h.2]

lemma store_load (h : bs.length = l.size) : l.store (l.load bs) = bs := by
  unfold load store
  rw [← h]
  split_ifs
  · exact Bytes.ofInt_toInt bs
  · exact Bytes.ofInt_toNat bs

lemma holds_load (h : bs.length = l.size) : l.Holds (l.load bs) := by
  unfold load Holds
  rw [← h]
  split_ifs
  · exact Bytes.toInt_mem_range bs
  · exact ⟨Int.natCast_nonneg _, by exact_mod_cast Bytes.toNat_lt bs⟩

end Layout

/-! ### Decoding -/

/-- A blob that is long enough gives what its first bytes store, and every other one gives none. -/
lemma decode_eq (hl : layout? code = some l) (bs : Bytes) : decode code (some bs) =
    if l.size ≤ bs.length then some (l.load (bs.take l.size)) else none := by
  rw [decode, hl, Layout.load]
  by_cases hlong : l.size ≤ bs.length
  · cases hsigned : l.signed <;> simp [hlong, hsigned]
  · simp [hlong, Nat.lt_of_not_le hlong]

lemma decode_eq_none_iff : decode code blob = none ↔
    layout? code = none ∨ blob = none ∨
      ∃ l bs, layout? code = some l ∧ blob = some bs ∧ bs.length < l.size := by
  cases hl : layout? code with
  | none => simp [decode, hl]
  | some l =>
    cases blob with
    | none => simp [decode]
    | some bs => simp [decode_eq hl]

/-- Decoding is the inverse of storing: an integer in the range of an element type is read back
from its bytes, whatever is behind them; a blob that is long enough starts with the bytes of the
integer that it gives, which is in the range; all other blobs and codes give none. -/
theorem decode_exact (code : Int) :
    (∀ l, layout? code = some l →
      (∀ v tail, l.Holds v → decode code (some (l.store v ++ tail)) = some v) ∧
      ∀ bs, l.size ≤ bs.length →
        ∃ v, decode code (some bs) = some v ∧ l.Holds v ∧ l.store v = bs.take l.size) ∧
    ∀ blob, decode code blob = none ↔
      layout? code = none ∨ blob = none ∨
        ∃ l bs, layout? code = some l ∧ blob = some bs ∧ bs.length < l.size := by
  refine ⟨fun l hl => ⟨fun v tail hv => ?_, fun bs hlong => ?_⟩, fun blob => decode_eq_none_iff⟩
  · have hlength : l.size ≤ (l.store v ++ tail).length := by simp
    have hfirst : (l.store v ++ tail).take l.size = l.store v :=
      List.take_left' Layout.length_store
    rw [decode_eq hl, if_pos hlength, hfirst, Layout.load_store hv]
  · have hlength : (bs.take l.size).length = l.size := List.length_take_of_le hlong
    have hdecoded : decode code (some bs) = some (l.load (bs.take l.size)) := by
      rw [decode_eq hl, if_pos hlong]
    exact ⟨_, hdecoded, Layout.holds_load hlength, Layout.store_load hlength⟩

/-- The least number of two signed bytes, in front of another byte, and a number that is read from
the first two of three bytes. -/
theorem decode_exact_sample :
    layout? 6 = some ⟨2, true⟩ ∧ (⟨2, true⟩ : Layout).Holds (-0x8000) ∧
      decode 6 (some ((⟨2, true⟩ : Layout).store (-0x8000) ++ [7])) = some (-0x8000) ∧
      ∃ v, decode 6 (some [0xFE, 0xFF, 7]) = some v ∧
        (⟨2, true⟩ : Layout).store v = [0xFE, 0xFF] := by
  have hl : layout? 6 = some ⟨2, true⟩ := rfl
  have hlow : (⟨2, true⟩ : Layout).Holds (-0x8000) := by decide
  obtain ⟨v, hv, -, hstored⟩ := ((decode_exact 6).1 _ hl).2 [0xFE, 0xFF, 7] (by decide)
  exact ⟨hl, hlow, ((decode_exact 6).1 _ hl).1 _ _ hlow, v, hv, hstored⟩

end Constant

end SourceRecovery
