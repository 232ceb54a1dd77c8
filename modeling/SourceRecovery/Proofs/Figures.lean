import SourceRecovery.Console.Figures
import SourceRecovery.Proofs.Number.Rounding

/-!
# Figures that can be written

There is a text for a number of bytes, and a bar for a part of a total, as long as their quotients
are in the range of double precision. A part that is at most the total always has a bar.
-/

namespace SourceRecovery.Figures

open Binary64

/-! ### Sizes -/

/-- The least number of bytes that is too great to be written as a size. -/
def sizeLimit : ℕ := ceiling * (1024 * 1024)

lemma isSome_size?_iff (bytes : ℕ) : (size? bytes).isSome ↔ bytes < sizeLimit := by
  have hpos := two_pow_le_ceiling (n := 10) (by decide)
  unfold size? sizeLimit
  split_ifs with h
  · have hbytes : bytes < ceiling * 1024 := by omega
    rw [Option.isSome_map, isSome_quotient?_iff _ (by norm_num), Int.natAbs_natCast]
    exact iff_of_true hbytes (hbytes.trans_le (Nat.mul_le_mul_left _ (by norm_num)))
  · rw [Option.isSome_map, isSome_quotient?_iff _ (by norm_num), Int.natAbs_natCast]

namespace Bar

lemma isDrawable_iff {b : Bar} : b.isDrawable = true ↔
    -bound ≤ b.filled ∧ b.filled < bound ∧ -bound ≤ b.empty ∧ b.empty < bound := by
  simp only [isDrawable, Bool.and_eq_true, decide_eq_true_eq, and_assoc]

/-- Cells between none and all can be drawn. -/
lemma isDrawable_of_le {filled width : ℤ} (h : 0 ≤ filled) (h' : filled ≤ width)
    (hw : width < bound) : isDrawable ⟨filled, width - filled⟩ = true := by
  refine isDrawable_iff.mpr ⟨?_, ?_, ?_, ?_⟩
  all_goals
    dsimp only [bound] at hw ⊢
    omega

/-- A part of a total has a bar if the number of its cells is in the range of double precision. -/
lemma isSome_of?_iff {current : ℕ} {total : ℤ} : (of? current total defaultWidth).isSome ↔
    total ≤ 0 ∨ current * 40 < ceiling * total.toNat := by
  have hcells (filled : ℤ) (h : 0 ≤ filled) (h' : filled ≤ defaultWidth) :
      isDrawable ⟨filled, defaultWidth - filled⟩ = true := isDrawable_of_le h h' (by decide)
  by_cases ht : total ≤ 0
  · have hzero : isDrawable ⟨0, defaultWidth⟩ = true := hcells 0 le_rfl (by decide)
    simp [of?, filled?, ht, hzero]
  · have hquotient : (quotient? ((current * 40 : ℕ) : ℤ) total.toNat).isSome ↔
        current * 40 < ceiling * total.toNat := isSome_quotient?_iff _ (by omega)
    have hfilled : filled? current total defaultWidth =
        (quotient? ((current * 40 : ℕ) : ℤ) total.toNat).map fun share =>
          min defaultWidth share.truncate := by
      simp only [filled?, ht, if_false, defaultWidth]
      push_cast
      rfl
    simp only [of?, hfilled, ht, false_or, ← hquotient]
    cases hq : quotient? ((current * 40 : ℕ) : ℤ) total.toNat with
    | none => simp
    | some share =>
      have hpos : 0 ≤ min defaultWidth share.truncate :=
        le_min (by decide) (truncate_nonneg hq)
      simp [hcells _ hpos (min_le_left _ _)]

/-- A part that is at most the total has a bar. -/
lemma isSome_of?_of_le {current : ℕ} {total : ℤ} (h : current ≤ total) :
    (of? current total defaultWidth).isSome := by
  rw [isSome_of?_iff]
  by_cases ht : total ≤ 0
  · exact .inl ht
  · have hle : current * 64 ≤ total.toNat * 2 ^ 6 := Nat.mul_le_mul_right _ (by omega)
    have hceiling := Nat.mul_le_mul_left total.toNat (two_pow_le_ceiling (n := 6) (by decide))
    rw [Nat.mul_comm ceiling]
    exact .inr (by omega)

/-- A count in the range of double precision has a bar. -/
lemma isSome_of? {current : ℕ} (hc : current < 2 ^ 1000) (total : ℤ) :
    (of? current total defaultWidth).isSome := by
  rw [isSome_of?_iff]
  by_cases ht : total ≤ 0
  · exact .inl ht
  · right
    calc current * 40 < 2 ^ 1000 * 2 ^ 6 := by omega
      _ = 2 ^ 1006 := by rw [← pow_add]
      _ ≤ ceiling * 1 := (two_pow_le_ceiling (by decide)).trans_eq (mul_one _).symm
      _ ≤ ceiling * total.toNat := Nat.mul_le_mul_left _ (by omega)

end Bar

end SourceRecovery.Figures
