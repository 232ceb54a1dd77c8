import SourceRecovery.Proofs.Console

/-!
# Shares of a total

The filled cells of a bar and the percentage beside it are the same figure, a share of a total in
whole units, although the one is found by a division in double precision and the other by one in
integers. So the bar is full exactly when the percentage is a hundred, which is when the total is
reached, and neither goes back while the count goes on.
-/

namespace SourceRecovery.Figures

open Binary64

variable {current current' total width : ℕ}

/-- The share of a total in a number of units: whole units, and at most all of them. -/
def share (current total units : ℕ) : ℕ := min units (current * units / total)

lemma share_le (current total units : ℕ) : share current total units ≤ units := Nat.min_le_left _ _

lemma share_eq_iff (ht : 0 < total) {units : ℕ} (hu : 0 < units) :
    share current total units = units ↔ total ≤ current := by
  rw [share, min_eq_left_iff, Nat.le_div_iff_mul_le ht, Nat.mul_comm, Nat.mul_le_mul_right_iff hu]

lemma share_mono (h : current ≤ current') (total units : ℕ) :
    share current total units ≤ share current' total units := by
  unfold share
  gcongr

lemma percentage_eq_share (current total : ℕ) :
    percentage current total = (share current total 100 : ℤ) := by
  rw [percentage, share, Int.fdiv_eq_ediv_of_nonneg _ (Int.natCast_nonneg total)]
  push_cast
  rfl

lemma percentage_eq_hundred_iff (ht : 0 < total) :
    percentage current total = 100 ↔ total ≤ current := by
  rw [percentage_eq_share, ← share_eq_iff ht (by norm_num : 0 < 100)]
  omega

namespace Bar

/-- The bar whose filled cells are the share of a total. -/
def ofShare (current total width : ℕ) : Bar :=
  ⟨share current total width, (width : ℤ) - share current total width⟩

lemma text_ofShare (current total width : ℕ) : (ofShare current total width).text =
    String.ofList (List.replicate (share current total width) '█' ++
      List.replicate (width - share current total width) '░') := by
  rw [text, ofShare, Int.toNat_natCast, Int.toNat_sub]

lemma filled?_eq (ht : 0 < total) (h : current * width < 2 ^ 53) :
    filled? current total width = some (share current total width : ℤ) := by
  obtain ⟨x, hx, hwhole⟩ := exists_quotient? ht h
  have hpos : ¬ (total : ℤ) ≤ 0 := by omega
  push_cast at hx
  rw [filled?, if_neg hpos, Int.toNat_natCast, hx, Option.map_some, hwhole, share]
  push_cast
  rfl

/-- A bar is drawn with the share of the total, unless its cells are too many. -/
lemma of?_eq (ht : 0 < total) (h : current * width < 2 ^ 53) (hw : width < 2 ^ 63) :
    of? current total width = some (ofShare current total width) := by
  have hdrawable : (ofShare current total width).isDrawable = true := by
    refine isDrawable_of_le (Int.natCast_nonneg _) ?_ ?_
    · exact_mod_cast share_le current total width
    · dsimp only [bound]
      omega
  unfold ofShare at hdrawable ⊢
  rw [of?, filled?_eq ht h, Option.bind_eq_bind, Option.bind_some, if_pos hdrawable]

lemma text_ofShare_eq_full_iff : (ofShare current total width).text =
    String.ofList (List.replicate width '█') ↔ share current total width = width := by
  have hle := share_le current total width
  rw [text_ofShare, String.ofList_inj]
  refine ⟨fun h => ?_, fun h => by rw [h, Nat.sub_self, List.replicate_zero, List.append_nil]⟩
  -- An empty cell would be one of the full bar.
  by_contra hne
  have hempty : '░' ∈ List.replicate width '█' := by
    rw [← h, List.mem_append]
    exact .inr (List.mem_replicate.mpr ⟨by omega, rfl⟩)
  exact absurd (List.mem_replicate.mp hempty).2 (by decide)

end Bar

end SourceRecovery.Figures

namespace SourceRecovery.Console

open Figures

/-- Progress is drawn exactly, although its bar is found in double precision: as long as the count
times the cells is below `2 ^ 53`, the whole part of the share is filled, and the other cells are
empty. So a bar that is shown is full exactly when the percentage beside it is a hundred, and
neither of them goes back while the count goes on. A bar is a text, which has less than `2 ^ 63`
cells. -/
theorem showProgress_exact {total : ℕ} (ht : 0 < total) :
    (∀ current width : ℕ, current * width < 2 ^ 53 → width < 2 ^ 63 →
      ∃ bar, Bar.of? current total width = some bar ∧ bar.text = String.ofList
        (List.replicate (min width (current * width / total)) '█' ++
          List.replicate (width - min width (current * width / total)) '░')) ∧
    (∀ current : ℕ, current * 40 < 2 ^ 53 →
      ∃ bar, Bar.of? current total 40 = some bar ∧
        (∀ label w, (showProgress current total label).run w = .ok () { w with
          console := drawn w.console
            (drawing (.ofFlag w.console.colored) current total bar label) }) ∧
        (bar.text = String.ofList (List.replicate 40 '█') ↔ percentage current total = 100) ∧
        (percentage current total = 100 ↔ total ≤ current)) ∧
    ∀ current current' : ℕ, current ≤ current' → current' * 40 < 2 ^ 53 →
      ∃ bar bar', Bar.of? current total 40 = some bar ∧ Bar.of? current' total 40 = some bar' ∧
        bar.filled ≤ bar'.filled ∧ percentage current total ≤ percentage current' total := by
  have hbar {current : ℕ} (h : current * 40 < 2 ^ 53) :
      Bar.of? current total 40 = some (.ofShare current total 40) :=
    Bar.of?_eq ht h (by norm_num)
  refine ⟨fun current width h hw => ⟨_, Bar.of?_eq ht h hw, Bar.text_ofShare _ _ _⟩,
    fun current h => ⟨_, hbar h, fun label w => ?_, ?_, ?_⟩,
    fun current current' hle h => ⟨_, _, hbar (by omega), hbar h, ?_, ?_⟩⟩
  · exact run_showProgress label (by omega) (hbar h) w
  · rw [Bar.text_ofShare_eq_full_iff, share_eq_iff ht (by norm_num), percentage_eq_hundred_iff ht]
  · exact percentage_eq_hundred_iff ht
  · exact Int.ofNat_le.mpr (share_mono hle total 40)
  · rw [percentage_eq_share, percentage_eq_share]
    exact_mod_cast share_mono hle total 100

/-- Two thirds of five cells are three of them, and the next third fills the bar that is shown. -/
theorem showProgress_exact_sample : 0 < 3 ∧
    (∃ bar, Bar.of? 2 3 5 = some bar ∧ bar.text = "███░░") ∧
    ∃ bar bar', Bar.of? 2 3 40 = some bar ∧ Bar.of? 3 3 40 = some bar' ∧
      bar.filled ≤ bar'.filled ∧ percentage 2 3 ≤ percentage 3 3 := by
  obtain ⟨hexact, -, hmono⟩ := showProgress_exact (show (0 : ℕ) < 3 by decide)
  exact ⟨by decide, hexact 2 5 (by decide) (by decide), hmono 2 3 (by decide) (by decide)⟩

/-- There is no text of `2 ^ 63` cells. -/
theorem not_drawn_sample : 0 * 2 ^ 63 < 2 ^ 53 ∧ Bar.of? 0 1 (2 ^ 63) = none := by
  decide +kernel

end SourceRecovery.Console
