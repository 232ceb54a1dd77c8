import Mathlib.Algebra.Order.Field.Power
import Mathlib.Data.Rat.Cast.Order
import Mathlib.Tactic.Common
import Mathlib.Tactic.Linarith
import Mathlib.Tactic.Ring
import SourceRecovery.Number.Binary64

/-!
# Rounding to double precision

The last place that is kept of a positive quotient is found from its binary logarithm. A quotient
has a number of double precision nearest to it if and only if it is below the middle between the
greatest of these numbers and the power of two that would follow it. As long as the numerator has
at most 53 bits, rounding a quotient does not reach the next whole number.
-/

namespace SourceRecovery

/-- Rounding gives at least an even number if and only if the quotient is at least half below it:
there it is rounded up. -/
lemma le_roundDiv_iff {num den t : ℕ} (hden : 0 < den) (ht : 2 ∣ t) (hpos : 0 < t) :
    t ≤ roundDiv num den ↔ (2 * t - 1) * den ≤ 2 * num := by
  obtain ⟨s, rfl⟩ := ht
  have hnum := Nat.div_add_mod num den
  have hrest := Nat.mod_lt num hden
  simp only [roundDiv]
  generalize num / den = q at hnum ⊢
  generalize num % den = r at hnum hrest ⊢
  subst hnum
  have hright : (2 * (2 * s) - 1) * den ≤ 2 * (den * q + r) ↔
      (4 * s) * den ≤ 2 * q * den + 2 * r + den := by
    rw [show 2 * (2 * s) - 1 = 4 * s - 1 by omega, Nat.sub_mul, one_mul, Nat.sub_le_iff_le_add]
    rw [show 2 * (den * q + r) = 2 * q * den + 2 * r by ring]
  rw [hright]
  rcases Nat.lt_trichotomy (q + 1) (2 * s) with hlt | heq | hgt
  · -- Below the neighbour of the number, the quotient is rounded to that neighbour at most.
    have hle : (2 * q + 4) * den ≤ 4 * s * den := Nat.mul_le_mul_right den (by omega)
    rw [Nat.add_mul] at hle
    constructor
    · intro h
      split_ifs at h <;> omega
    · intro h
      omega
  · -- Next to the number, which is even, a half goes up to it.
    have hmul : 4 * s * den = 2 * q * den + 2 * den := by
      rw [← Nat.add_mul, show 4 * s = 2 * q + 2 by omega]
    constructor
    · intro h
      split_ifs at h <;> omega
    · intro h
      split_ifs <;> omega
  · have hle : 4 * s * den ≤ 2 * q * den := Nat.mul_le_mul_right den (by omega)
    constructor
    · intro _
      omega
    · intro _
      split_ifs <;> omega

lemma roundDiv_le (num den : ℕ) : roundDiv num den ≤ num / den + 1 := by
  simp only [roundDiv]
  split_ifs <;> omega

lemma div_le_roundDiv (num den : ℕ) : num / den ≤ roundDiv num den := by
  simp only [roundDiv]
  split_ifs <;> omega

/-- Rounding adds at most a half. -/
lemma two_mul_roundDiv_le (num den : ℕ) : 2 * den * roundDiv num den ≤ 2 * num + den := by
  have hnum := Nat.div_add_mod num den
  simp only [roundDiv]
  generalize num / den = q at hnum ⊢
  generalize num % den = r at hnum ⊢
  subst hnum
  have hnext : 2 * den * (q + 1) = 2 * (den * q) + 2 * den := by ring
  have hsame : 2 * den * q = 2 * (den * q) := by ring
  split_ifs <;> omega

/-- Rounding at a binary place does not reach the next whole number if the quotient is further from
it than half of the place, as its denominator is too small, or if the quotient is below a half. -/
lemma roundDiv_lt {num den k : ℕ} (hden : 0 < den) (h : den < 2 ^ (k + 1) ∨ 2 * num < den) :
    roundDiv (num * 2 ^ k) den < (num / den + 1) * 2 ^ k := by
  have hround := two_mul_roundDiv_le (num * 2 ^ k) den
  have hpow : 0 < 2 ^ k := by positivity
  refine Nat.lt_of_mul_lt_mul_left (a := 2 * den) (hround.trans_lt ?_)
  rcases h with h | h
  · have hnext : num + 1 ≤ den * (num / den + 1) := Nat.lt_mul_div_succ num hden
    calc 2 * (num * 2 ^ k) + den < 2 * (num * 2 ^ k) + 2 ^ (k + 1) := by omega
      _ = 2 * ((num + 1) * 2 ^ k) := by ring
      _ ≤ 2 * (den * (num / den + 1) * 2 ^ k) := by gcongr
      _ = 2 * den * ((num / den + 1) * 2 ^ k) := by ring
  · calc 2 * (num * 2 ^ k) + den ≤ 2 * (num * 2 ^ k) + den * 2 ^ k := by
          have := Nat.le_mul_of_pos_right den hpow
          omega
      _ = (2 * num + den) * 2 ^ k := by ring
      _ < (2 * den) * 2 ^ k := by gcongr; omega
      _ ≤ 2 * den * ((num / den + 1) * 2 ^ k) := by
          gcongr
          exact Nat.le_mul_of_pos_left _ (Nat.succ_pos _)

namespace Binary64

variable {num den : ℕ}

/-! ### The last place -/

/-- Two naturals are compared up to a power of two without leaving the naturals. -/
lemma scaled_le_iff (k : ℤ) :
    den * Nat.pow 2 k.toNat ≤ num * Nat.pow 2 (-k).toNat ↔ (den : ℚ) * 2 ^ k ≤ num := by
  simp only [Nat.pow_eq]
  obtain ⟨n, rfl | rfl⟩ := k.eq_nat_or_neg
  · have hneg : (-(n : ℤ)).toNat = 0 := by omega
    rw [hneg, Int.toNat_natCast, pow_zero, mul_one, zpow_natCast]
    exact_mod_cast Iff.rfl
  · have hneg : (-(n : ℤ)).toNat = 0 := by omega
    rw [hneg, neg_neg, Int.toNat_natCast, pow_zero, mul_one, zpow_neg, zpow_natCast,
      mul_inv_le_iff₀ (by positivity)]
    exact_mod_cast Iff.rfl

/-- The last place that is kept lies 52 bits below the binary logarithm of a quotient, but not below
all places. -/
lemma lastPlace_spec (hnum : num ≠ 0) (hden : den ≠ 0) : ∃ f : ℤ,
    lastPlace num den = max (f - 52) (-1074) ∧ (den : ℚ) * 2 ^ f ≤ num ∧
      (num : ℚ) < den * 2 ^ (f + 1) := by
  have hbounds (n : ℕ) (hn : n ≠ 0) :
      (2 : ℚ) ^ (n.log2 : ℤ) ≤ n ∧ (n : ℚ) < 2 ^ ((n.log2 : ℤ) + 1) := by
    refine ⟨?_, ?_⟩
    · exact_mod_cast Nat.log2_self_le hn
    · exact_mod_cast Nat.lt_log2_self (n := n)
  obtain ⟨hnum₁, hnum₂⟩ := hbounds num hnum
  obtain ⟨hden₁, hden₂⟩ := hbounds den hden
  simp only [lastPlace]
  generalize hk : (num.log2 : ℤ) - den.log2 = k
  have htwo : (2 : ℚ) ≠ 0 := by norm_num
  split_ifs with h
  · refine ⟨k, rfl, (scaled_le_iff k).mp h, ?_⟩
    calc (num : ℚ) < 2 ^ ((num.log2 : ℤ) + 1) := hnum₂
      _ = 2 ^ (den.log2 : ℤ) * 2 ^ (k + 1) := by rw [← zpow_add₀ htwo]; congr 1; omega
      _ ≤ den * 2 ^ (k + 1) := by gcongr
  · rw [scaled_le_iff, not_le] at h
    refine ⟨k - 1, rfl, ?_, by rwa [sub_add_cancel]⟩
    calc (den : ℚ) * 2 ^ (k - 1) ≤ 2 ^ ((den.log2 : ℤ) + 1) * 2 ^ (k - 1) := by gcongr
      _ = 2 ^ (num.log2 : ℤ) := by rw [← zpow_add₀ htwo]; congr 1; omega
      _ ≤ num := hnum₁

/-- Where a quotient is great, the last place that is kept is at or above one. -/
lemma lastPlace_of_le {e : ℕ} (h : lastPlace num den = e) (hnum : num ≠ 0) (hden : den ≠ 0) :
    den * 2 ^ (e + 52) ≤ num ∧ num < den * 2 ^ (e + 53) := by
  obtain ⟨f, hf, hlow, hhigh⟩ := lastPlace_spec hnum hden
  obtain rfl : f = ((e + 52 : ℕ) : ℤ) := by omega
  rw [zpow_natCast] at hlow
  rw [show ((e + 52 : ℕ) : ℤ) + 1 = ((e + 53 : ℕ) : ℤ) by omega, zpow_natCast] at hhigh
  exact ⟨by exact_mod_cast hlow, by exact_mod_cast hhigh⟩

/-- Where the last place that is kept is behind the point, a quotient is small. -/
lemma lt_of_lastPlace_neg (h : lastPlace num den < 0) (hnum : num ≠ 0) (hden : den ≠ 0) :
    num < den * 2 ^ 52 := by
  obtain ⟨f, hf, -, hhigh⟩ := lastPlace_spec hnum hden
  have hpow : (2 : ℚ) ^ (f + 1) ≤ 2 ^ ((52 : ℕ) : ℤ) :=
    zpow_le_zpow_right₀ (by norm_num) (by omega)
  rw [zpow_natCast] at hpow
  have hden' : (0 : ℚ) ≤ den := Nat.cast_nonneg den
  have hlt : (num : ℚ) < den * 2 ^ 52 := hhigh.trans_le (mul_le_mul_of_nonneg_left hpow hden')
  exact_mod_cast hlt

/-! ### The range -/

/-- A rounded mantissa has 53 bits, or is the power of two with one bit more. -/
lemma roundDiv_mul_le {e : ℕ} (h : num < den * 2 ^ (e + 53)) :
    roundDiv num (den * 2 ^ e) * 2 ^ e ≤ 2 ^ (e + 53) := by
  have hdiv : num / (den * 2 ^ e) < 2 ^ 53 :=
    Nat.div_lt_of_lt_mul (by rwa [Nat.mul_assoc, ← pow_add])
  rw [pow_add, Nat.mul_comm (2 ^ e)]
  exact Nat.mul_le_mul_right _ ((roundDiv_le _ _).trans hdiv)

lemma le_roundDiv_mul {e : ℕ} (hden : 0 < den) (h : den * 2 ^ (e + 52) ≤ num) :
    2 ^ (e + 52) ≤ roundDiv num (den * 2 ^ e) * 2 ^ e := by
  rw [pow_add, Nat.mul_comm (2 ^ e)]
  refine Nat.mul_le_mul_right _ ?_
  rw [le_roundDiv_iff (by positivity) (by decide) (by decide)]
  calc (2 * 2 ^ 52 - 1) * (den * 2 ^ e) ≤ 2 * 2 ^ 52 * (den * 2 ^ e) :=
        Nat.mul_le_mul_right _ (Nat.sub_le _ _)
    _ = 2 * (den * 2 ^ (e + 52)) := by ring
    _ ≤ 2 * num := Nat.mul_le_mul_left _ h

/-- A rounded quotient reaches a power of two if and only if the quotient is at least half of the
last place below it. -/
lemma two_pow_le_iff {e n : ℕ} (hden : 0 < den) (hlow : den * 2 ^ (e + 52) ≤ num)
    (hhigh : num < den * 2 ^ (e + 53)) :
    2 ^ (n + 54) ≤ roundDiv num (den * 2 ^ e) * 2 ^ e ↔ (2 ^ 54 - 1) * 2 ^ n * den ≤ num := by
  rcases Nat.lt_trichotomy e (n + 1) with hlt | rfl | hgt
  · have hleft : roundDiv num (den * 2 ^ e) * 2 ^ e < 2 ^ (n + 54) :=
      (roundDiv_mul_le hhigh).trans_lt (Nat.pow_lt_pow_right (by decide) (by omega))
    have hright : num < (2 ^ 54 - 1) * 2 ^ n * den := by
      calc num < den * 2 ^ (e + 53) := hhigh
        _ ≤ den * 2 ^ (53 + n) :=
          Nat.mul_le_mul_left _ (Nat.pow_le_pow_right (by decide) (by omega))
        _ = 2 ^ 53 * 2 ^ n * den := by rw [pow_add, Nat.mul_comm]
        _ ≤ (2 ^ 54 - 1) * 2 ^ n * den :=
          Nat.mul_le_mul_right _ (Nat.mul_le_mul_right _ (by decide))
    exact iff_of_false hleft.not_ge hright.not_ge
  · -- At this last place, the power of two is the one with one bit more than a mantissa.
    have hpow : 0 < 2 ^ (n + 1) := by positivity
    rw [show n + 54 = 53 + (n + 1) by omega, pow_add, Nat.mul_le_mul_right_iff hpow,
      le_roundDiv_iff (by positivity) (by decide) (by decide), pow_succ 2 n]
    generalize 2 ^ n = p
    rw [show (2 * 2 ^ 53 - 1) * (den * (p * 2)) = 2 * ((2 ^ 54 - 1) * p * den) by ring]
    omega
  · have hright : (2 ^ 54 - 1) * 2 ^ n * den ≤ num := by
      calc (2 ^ 54 - 1) * 2 ^ n * den ≤ 2 ^ 54 * 2 ^ n * den :=
            Nat.mul_le_mul_right _ (Nat.mul_le_mul_right _ (by decide))
        _ = den * 2 ^ (54 + n) := by rw [← pow_add, Nat.mul_comm]
        _ ≤ den * 2 ^ (e + 52) :=
          Nat.mul_le_mul_left _ (Nat.pow_le_pow_right (by decide) (by omega))
        _ ≤ num := hlow
    exact iff_of_true ((Nat.pow_le_pow_right (by decide) (by omega)).trans
      (le_roundDiv_mul hden hlow)) hright

/-- The least number that is rounded beyond the range: half of the greatest last place below the
power of two that bounds the range. -/
@[irreducible] def ceiling : ℕ := (2 ^ 54 - 1) * 2 ^ 970

lemma two_pow_le_ceiling {n : ℕ} (h : n ≤ 1023) : 2 ^ n ≤ ceiling := by
  unfold ceiling
  generalize hk : 970 = k
  calc 2 ^ n ≤ 2 ^ (53 + k) := Nat.pow_le_pow_right (by decide) (by omega)
    _ = 2 ^ 53 * 2 ^ k := pow_add _ _ _
    _ ≤ (2 ^ 54 - 1) * 2 ^ k := Nat.mul_le_mul_right _ (by decide)

lemma ceiling_pos : 0 < ceiling := two_pow_le_ceiling (Nat.zero_le 1023)

lemma overflows_iff (hnum : num ≠ 0) (hden : 0 < den) :
    overflows (nearest num den).1 (nearest num den).2 = true ↔ ceiling * den ≤ num := by
  simp only [nearest, hnum, if_false, overflows, Bool.and_eq_true, decide_eq_true_eq, Nat.pow_eq]
  unfold ceiling
  -- The powers are not to be computed.
  generalize hn : 970 = n
  rw [show 1024 = n + 54 by omega]
  by_cases hneg : lastPlace num den < 0
  · have hsmall : num < (2 ^ 54 - 1) * 2 ^ n * den := by
      calc num < den * 2 ^ 52 := lt_of_lastPlace_neg hneg hnum hden.ne'
        _ = 2 ^ 52 * 1 * den := by rw [mul_one, Nat.mul_comm]
        _ ≤ (2 ^ 54 - 1) * 2 ^ n * den :=
          Nat.mul_le_mul_right _ (Nat.mul_le_mul (by decide) Nat.one_le_two_pow)
    exact iff_of_false (fun h => hneg.not_ge h.1) hsmall.not_ge
  · obtain ⟨e, he⟩ := Int.eq_ofNat_of_zero_le (not_lt.mp hneg)
    obtain ⟨hlow, hhigh⟩ := lastPlace_of_le he hnum hden.ne'
    have hzero : (-(e : ℤ)).toNat = 0 := by omega
    simp only [he, hzero, Int.toNat_natCast, pow_zero, mul_one, Int.natCast_nonneg, true_and]
    exact two_pow_le_iff hden hlow hhigh

/-- A quotient has a number of double precision nearest to it if and only if it is below the least
number that is rounded beyond the range. -/
theorem isSome_ofRatio?_iff (negative : Bool) (num : ℕ) (hden : 0 < den) :
    (ofRatio? negative num den).isSome ↔ num < ceiling * den := by
  by_cases hnum : num = 0
  · subst hnum
    have hfits : overflows 0 (-1074) = false := rfl
    simp [ofRatio?, nearest, hfits, Nat.mul_pos ceiling_pos hden]
  · have hover := overflows_iff hnum hden
    simp only [ofRatio?]
    split_ifs with h
    · simpa using hover.mp h
    · simpa using fun hle => h (hover.mpr hle)

lemma isSome_quotient?_iff (num : ℤ) (hden : 0 < den) :
    (quotient? num den).isSome ↔ num.natAbs < ceiling * den := isSome_ofRatio?_iff _ _ hden

/-- The quotient of naturals is not negative. -/
lemma truncate_nonneg {x : Binary64} (h : quotient? (num : ℤ) den = some x) : 0 ≤ x.truncate := by
  have hsign : x.negative = false := by
    simp only [quotient?, ofRatio?] at h
    split_ifs at h
    cases h
    simp
  simp only [truncate, hsign, Bool.false_eq_true, if_false]
  exact Int.natCast_nonneg _

/-! ### Whole parts -/

/-- The last place that is kept of a quotient whose numerator has at most 53 bits is at the point or
behind it, and far enough for the denominator unless the quotient is below a half. -/
lemma lastPlace_of_lt (hnum : num ≠ 0) (hden : 0 < den) (h : num < 2 ^ 53) :
    ∃ k : ℕ, lastPlace num den = -k ∧ (den < 2 ^ (k + 1) ∨ 2 * num < den) := by
  obtain ⟨f, hf, hlow, hhigh⟩ := lastPlace_spec hnum hden.ne'
  have hden' : (1 : ℚ) ≤ den := by exact_mod_cast hden
  have hnum' : (num : ℚ) < 2 ^ (53 : ℤ) := by exact_mod_cast h
  have htwo : (1 : ℚ) < 2 := by norm_num
  have hplace : f < 53 := by
    rw [← zpow_lt_zpow_iff_right₀ htwo]
    calc (2 : ℚ) ^ f ≤ den * 2 ^ f := le_mul_of_one_le_left (by positivity) hden'
      _ < 2 ^ (53 : ℤ) := hlow.trans_lt hnum'
  obtain ⟨k, hk⟩ := Int.eq_ofNat_of_zero_le (show 0 ≤ -lastPlace num den by omega)
  refine ⟨k, by omega, ?_⟩
  by_cases hsmall : f < -1
  · right
    have hhalf : (2 : ℚ) * num < den := by
      calc (2 : ℚ) * num < 2 * (den * 2 ^ (f + 1)) := by gcongr
        _ = den * 2 ^ (f + 1 + 1) := by rw [zpow_add_one₀ (by norm_num) (f + 1)]; ring
        _ ≤ den := mul_le_of_le_one_right (by positivity)
            (zpow_le_one_of_nonpos₀ htwo.le (by omega))
    exact_mod_cast hhalf
  · left
    have hpow : (den : ℚ) < 2 ^ ((k + 1 : ℕ) : ℤ) := by
      calc (den : ℚ) = den * 2 ^ f * 2 ^ (-f) := by
            rw [mul_assoc, ← zpow_add₀ (by norm_num), add_neg_cancel, zpow_zero, mul_one]
        _ < 2 ^ (53 : ℤ) * 2 ^ (-f) := by gcongr; exact hlow.trans_lt hnum'
        _ = 2 ^ ((k + 1 : ℕ) : ℤ) := by rw [← zpow_add₀ (by norm_num)]; congr 1; omega
    exact_mod_cast hpow

/-- A quotient whose numerator has at most 53 bits is rounded to a number with its whole part. -/
lemma exists_quotient? (hden : 0 < den) (h : num < 2 ^ 53) :
    ∃ x, quotient? (num : ℤ) den = some x ∧ x.truncate = ((num / den : ℕ) : ℤ) := by
  have hrange : (quotient? (num : ℤ) den).isSome := by
    rw [isSome_quotient?_iff _ hden, Int.natAbs_natCast]
    calc num < 2 ^ 53 := h
      _ ≤ ceiling := two_pow_le_ceiling (by decide)
      _ ≤ ceiling * den := Nat.le_mul_of_pos_right _ hden
  obtain ⟨x, hx⟩ := Option.isSome_iff_exists.mp hrange
  refine ⟨x, hx, ?_⟩
  obtain ⟨k, m, hnearest, hlow, hhigh⟩ : ∃ k m : ℕ, nearest num den = (m, -(k : ℤ)) ∧
      num / den * 2 ^ k ≤ m ∧ m < (num / den + 1) * 2 ^ k := by
    by_cases hnum : num = 0
    · obtain ⟨k, hk⟩ : ∃ k : ℕ, k = 1074 := ⟨_, rfl⟩
      refine ⟨k, 0, by rw [hnum, hk]; rfl, ?_, Nat.mul_pos (Nat.succ_pos _) (Nat.two_pow_pos k)⟩
      rw [hnum, Nat.zero_div, Nat.zero_mul]
    · obtain ⟨k, hk, hcase⟩ := lastPlace_of_lt hnum hden h
      refine ⟨k, roundDiv (num * 2 ^ k) den, by simp [nearest, hnum, hk], ?_,
        roundDiv_lt hden hcase⟩
      refine (Nat.le_div_iff_mul_le hden).mpr ?_ |>.trans (div_le_roundDiv _ _)
      rw [Nat.mul_right_comm]
      exact Nat.mul_le_mul_right _ (Nat.div_mul_le_self _ _)
  have hsign : decide ((num : ℤ) < 0) = false := by simp
  simp only [quotient?, ofRatio?, Int.natAbs_natCast, hnearest, hsign] at hx
  split_ifs at hx
  cases hx
  have hplace : (-(k : ℤ)).toNat = 0 := by omega
  simp only [truncate, ratio, hplace, neg_neg, Int.toNat_natCast, Nat.pow_eq, pow_zero, mul_one,
    Bool.false_eq_true, if_false]
  rw [Nat.div_eq_of_lt_le hlow hhigh]

end Binary64

end SourceRecovery
