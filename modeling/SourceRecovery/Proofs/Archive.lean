import SourceRecovery.Archive.Content
import Mathlib.Tactic.Common

/-!
# Checked contents

Reading an entry piece by piece either gives a content with the checksum that the directory lists,
or stops with an error after whole chunks. A stored entry that is all there is given as it is.
-/

namespace SourceRecovery.Archive

/-- What may be written for an entry: all of its content, which carries the listed checksum, or
whole chunks in front of an error. -/
inductive Sound (e : Entry) : Extracted → Prop
  | content {bs : Bytes} (length : bs.length ≤ e.size)
      (checksum : (Checksum.ofBytes bs).toNat = e.checksum) : Sound e ⟨bs, none⟩
  | stopped {bs : Bytes} (cause : ArchiveError) (chunks : chunk ∣ bs.length) :
      Sound e ⟨bs, some cause⟩

variable {e : Entry}

lemma sound_stopped (before : Bytes) (cause : ArchiveError) : Sound e (stopped before cause) := by
  refine .stopped cause ⟨before.length / chunk, ?_⟩
  rw [List.length_take, Nat.min_eq_left (Nat.div_mul_le_self ..), Nat.mul_comm]

lemma sound_checked (before unpacked : Bytes) : Sound e (checked e before unpacked) := by
  unfold checked
  split
  next h => exact .content (List.length_take_le ..) h
  next => exact sound_stopped ..

variable (run : Packed.Decoder) (cause : Packed.Fault → ArchiveError)

/-- Whatever a decoder makes of the bytes that were read, what they settle is sound. -/
lemma sound_of_settle {p : Progress} {bs : Bytes} {x : Extracted}
    (h : settle run cause e p bs = .inl x) : Sound e x := by
  simp only [settle] at h
  split at h
  · obtain rfl := Sum.inl.inj h
    exact sound_checked ..
  iterate 2
    split_ifs at h <;> obtain rfl := Sum.inl.inj h <;> exact sound_checked ..
  · obtain rfl := Sum.inl.inj h
    exact sound_stopped ..

lemma sound_unpackFrom (packed : Bytes) (bound : Nat) (p : Progress) :
    Sound e (unpackFrom run cause e packed bound p) := by
  induction bound generalizing p with
  | zero => exact sound_stopped ..
  | succ bound ih =>
    simp only [unpackFrom]
    split
    · exact sound_stopped ..
    · split
      next h => exact sound_of_settle run cause h
      next => exact ih _

/-- However an entry is packed and whatever its bytes are, what is written without an error has the
listed checksum and no more than the listed size, and an error leaves whole chunks. -/
theorem Opened.sound (o : Opened) : Sound o.entry o.unpack := sound_unpackFrom ..

/-! ### Stored entries -/

lemma slice_ne_nil {bs : Bytes} {start count : Nat} (h : start < bs.length) (hc : count ≠ 0) :
    bs.slice start count ≠ [] := by
  rw [Bytes.slice, ne_eq, List.take_eq_nil_iff, List.drop_eq_nil_iff]
  omega

lemma wanted_pos {p : Progress} (hp : p.left = 0) (h : p.taken < e.packedSize) :
    0 < p.wanted e := by
  have hleast : 0 < leastRead := by decide
  have hneeded : p.before.length % chunk < chunk := Nat.mod_lt _ (by decide)
  simp only [Progress.wanted]
  split <;> omega

section Stored

variable {packed : Bytes} (hp : e.packedSize = packed.length) (hs : e.size = packed.length)
  (hc : (Checksum.ofBytes packed).toNat = e.checksum)

include hp hs hc

/-- What is stored settles nothing before its end, and then is the content. -/
lemma settle_stored {n : Nat} (p : Progress) (hn : n ≤ packed.length) :
    settle Packing.stored.decoder cause e p (packed.take n) =
      if n = packed.length then .inl ⟨packed, none⟩ else .inr ⟨n, 0, packed.take n⟩ := by
  have hlength : (packed.take n).length = n := List.length_take_of_le hn
  simp only [settle, Packing.decoder, hlength, hp, hs, and_true]
  split
  next h =>
    obtain rfl : n = packed.length := Nat.le_antisymm hn h
    simp [checked, hs, hc]
  next h => rw [if_neg (Nat.ne_of_lt (Nat.not_le.mp h))]

/-- A stored entry is given whole from wherever it is read so far, if not all of it is read. -/
lemma unpackFrom_stored (bound k : Nat) (hk : k < packed.length ∨ k = 0)
    (hb : packed.length < k + bound) :
    unpackFrom Packing.stored.decoder cause e packed bound ⟨k, 0, packed.take k⟩ =
      ⟨packed, none⟩ := by
  induction bound generalizing k with
  | zero => omega
  | succ bound ih =>
    let p : Progress := ⟨k, 0, packed.take k⟩
    let piece := packed.slice k (p.wanted e)
    -- A piece is empty only if the whole entry is.
    have hpiece (h : k < packed.length) : piece ≠ [] :=
      slice_ne_nil h (Nat.ne_of_gt (wanted_pos (p := p) rfl (hp ▸ h)))
    have hlength : k + piece.length ≤ packed.length := by
      simp only [piece, Bytes.slice, List.length_take, List.length_drop]
      omega
    have hgoes : ¬(piece = [] ∧ p.wanted e ≠ 0) := by
      rintro ⟨hempty, hwanted⟩
      refine hwanted ?_
      have hend : packed.length ≤ k := Nat.not_lt.mp fun h => hpiece h hempty
      simp only [Progress.wanted, hp, p, Nat.sub_eq_zero_of_le hend, Nat.min_zero, ite_self]
    have hstep : unpackFrom Packing.stored.decoder cause e packed (bound + 1) p =
        if k + piece.length = packed.length then ⟨packed, none⟩
        else unpackFrom Packing.stored.decoder cause e packed bound
          ⟨k + piece.length, 0, packed.take (k + piece.length)⟩ := by
      rw [unpackFrom, if_neg hgoes, settle_stored cause hp hs hc p hlength]
      split_ifs <;> rfl
    rw [hstep]
    split
    next => rfl
    next hne =>
      have hmore : k < packed.length := by omega
      have hpos : 0 < piece.length := List.length_pos_iff.mpr (hpiece hmore)
      exact ih _ (.inl (by omega)) (by omega)

end Stored

/-- A stored entry of the listed sizes and with the listed checksum is written as it is. -/
theorem Opened.unpack_stored {o : Opened} (hpacking : o.packing = .stored)
    (hp : o.entry.packedSize = o.packed.length) (hs : o.entry.size = o.packed.length)
    (hc : (Checksum.ofBytes o.packed).toNat = o.entry.checksum) : o.unpack = ⟨o.packed, none⟩ := by
  rw [Opened.unpack, hpacking]
  exact unpackFrom_stored _ hp hs hc _ 0 (.inr rfl) (by omega)

end SourceRecovery.Archive
