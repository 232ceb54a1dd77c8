import Mathlib.Data.List.Lex
import SourceRecovery.Text.Surrogate

/-!
# The order of texts

Texts are ordered by the numbers of their characters. Since a stand-in counts as the surrogate
that it stands in for, this is not the order of the characters, but it is a linear order as well.
-/

namespace SourceRecovery.Text

variable {a b c : String}

lemma number_eq (c : Char) : number c =
    if 0x10D800 ≤ c.toNat ∧ c.toNat ≤ 0x10DFFF then c.toNat - surrogateShift else c.toNat := by
  unfold number surrogate?
  split_ifs
  · rw [Option.getD_some]
  · rw [Option.getD_none]

/-- No character has the number of a surrogate, so that a stand-in can be told from all others. -/
lemma number_injective : Function.Injective number := by
  intro c d h
  have hc : c.toNat.isValidChar := c.valid
  have hd : d.toNat.isValidChar := d.valid
  refine Char.toNat_inj.mp ?_
  rw [number_eq, number_eq, surrogateShift] at h
  split_ifs at h <;> omega

/-- The numbers of the characters of a text. -/
def numbers (a : String) : List ℕ := a.toList.map number

lemma numbers_injective : Function.Injective numbers := fun _ _ h =>
  String.toList_inj.mp (List.map_injective_iff.mpr number_injective h)

lemma precedes_iff : precedes a b = true ↔ numbers a < numbers b := decide_eq_true_iff

lemma not_precedes_self (a : String) : precedes a a = false := by
  rw [← Bool.not_eq_true, precedes_iff]
  exact lt_irrefl _

/-- Of two texts that differ, one comes first. -/
lemma precedes_of_ne (h : a ≠ b) (hba : precedes b a = false) : precedes a b = true := by
  rw [← Bool.not_eq_true, precedes_iff, not_lt] at hba
  exact precedes_iff.mpr (hba.lt_of_ne (numbers_injective.ne h))

lemma not_precedes_trans (hba : precedes b a = false) (hcb : precedes c b = false) :
    precedes c a = false := by
  rw [← Bool.not_eq_true, precedes_iff, not_lt] at *
  exact hba.trans hcb

lemma not_precedes_of_precedes (h : precedes a b = true) : precedes b a = false := by
  rw [← Bool.not_eq_true, precedes_iff, not_lt]
  exact (precedes_iff.mp h).le

/-- Sorting by texts leaves none in front of one that comes before it. -/
lemma pairwise_mergeSort {α : Type} (key : α → String) (l : List α) :
    (l.mergeSort fun x y => !precedes (key y) (key x)).Pairwise fun x y =>
      precedes (key y) (key x) = false := by
  have htrans (x y z : α) (hxy : (!precedes (key y) (key x)) = true)
      (hyz : (!precedes (key z) (key y)) = true) : (!precedes (key z) (key x)) = true := by
    rw [Bool.not_eq_true'] at *
    exact not_precedes_trans hxy hyz
  have htotal (x y : α) : (!precedes (key y) (key x) || !precedes (key x) (key y)) = true := by
    cases hyx : precedes (key y) (key x) with
    | false => rfl
    | true => rw [not_precedes_of_precedes hyx]; rfl
  have hsorted := List.pairwise_mergeSort htrans htotal l
  simpa only [Bool.not_eq_true'] using hsorted

end SourceRecovery.Text
