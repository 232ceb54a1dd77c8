import SourceRecovery.Proofs.Text.Replace
import SourceRecovery.Text.Line

/-!
# What unifying newlines leaves

Newlines are unified from the left, and whether a carriage return was read last is all that is
kept in mind. Together that is the same as replacing each carriage return that a line feed follows
along with it, and then each one that is left.
-/

namespace SourceRecovery.Text

/-! ### Unifying newlines in parts -/

/-- What a character is written as, after a carriage return or not. -/
def unified (afterReturn : Bool) (c : Char) : List Char :=
  if c = '\r' then ['\n'] else if c = '\n' ∧ afterReturn then [] else [c]

/-- The characters with unified newlines, after a carriage return or not. -/
def unifyFrom (afterReturn : Bool) (cs : List Char) : List Char :=
  (cs.foldl unifyStep ([], afterReturn)).1.reverse

lemma unifyStep_eq (read : List Char) (afterReturn : Bool) (c : Char) :
    unifyStep (read, afterReturn) c = (unified afterReturn c ++ read, decide (c = '\r')) := by
  unfold unifyStep unified
  by_cases hr : c = '\r'
  · simp [hr]
  · by_cases hn : c = '\n' ∧ afterReturn = true
    · simp [hn.1, hn.2]
    · rw [if_neg hr, if_neg hn]
      simpa [hr] using hn

lemma reverse_unified (afterReturn : Bool) (c : Char) :
    (unified afterReturn c).reverse = unified afterReturn c := by
  rw [unified]
  split_ifs <;> rfl

lemma foldl_unifyStep (read cs : List Char) (afterReturn : Bool) :
    (cs.foldl unifyStep (read, afterReturn)).1.reverse =
      read.reverse ++ unifyFrom afterReturn cs := by
  induction cs generalizing read afterReturn with
  | nil => simp [unifyFrom]
  | cons c cs ih =>
    rw [unifyFrom, List.foldl_cons, List.foldl_cons, unifyStep_eq, unifyStep_eq, ih, ih]
    simp

lemma unifyFrom_cons (afterReturn : Bool) (c : Char) (cs : List Char) :
    unifyFrom afterReturn (c :: cs) =
      unified afterReturn c ++ unifyFrom (decide (c = '\r')) cs := by
  rw [unifyFrom, List.foldl_cons, unifyStep_eq, foldl_unifyStep, List.append_nil, reverse_unified]

lemma unifyNewlineChars_eq (cs : List Char) : unifyNewlineChars cs = unifyFrom false cs := rfl

lemma unifyFrom_true {cs : List Char} (h : ¬ ['\n'] <+: cs) :
    unifyFrom true cs = unifyFrom false cs := by
  cases cs with
  | nil => rfl
  | cons c cs =>
    have hc : c ≠ '\n' := by
      rintro rfl
      exact h (List.prefix_append ['\n'] cs)
    simp [unifyFrom_cons, unified, hc]

/-! ### Newlines as patterns -/

/-- A text with each carriage return written as a line feed, together with a line feed that follows
it. -/
def withLineFeeds (s : String) : String :=
  String.ofList (replaceAll ['\r'] ['\n'] (replaceAll ['\r', '\n'] ['\n'] s.toList))

lemma unifyFrom_eq_replaceAll (cs : List Char) :
    unifyFrom false cs = replaceAll ['\r'] ['\n'] (replaceAll ['\r', '\n'] ['\n'] cs) := by
  have hfeed (ds : List Char) : ¬ ['\r'] <+: '\n' :: ds := by simp
  induction cs using replace_induction (p := ['\r', '\n']) (by simp) with
  | hnil => simp [unifyFrom]
  | hself cs ih =>
    rw [replaceAll_append_self (by simp), List.singleton_append, replaceAll_cons (hfeed _), ← ih]
    simp [unifyFrom_cons, unified]
  | hcons c cs hc ih =>
    rw [replaceAll_cons hc, unifyFrom_cons]
    by_cases hr : c = '\r'
    · subst hr
      have hnext : ¬ ['\n'] <+: cs := fun h => hc ((List.prefix_cons_inj '\r').mpr h)
      rw [decide_eq_true rfl, unifyFrom_true hnext, ih]
      exact (replaceAll_append_self (p := ['\r']) (by simp)).symm
    · have hother : unified false c = [c] := by simp [unified, hr]
      have hstart (ds : List Char) : ¬ ['\r'] <+: c :: ds := by simp [Ne.symm hr]
      rw [hother, decide_eq_false hr, ih, replaceAll_cons (hstart _), List.singleton_append]

/-- Unifying newlines writes each of them, whichever it is, as a line feed. -/
lemma unifyNewlines_eq (s : String) : unifyNewlines s = withLineFeeds s := by
  rw [unifyNewlines, withLineFeeds, unifyNewlineChars_eq, unifyFrom_eq_replaceAll]

/-- Unifying newlines leaves nothing of nothing only. -/
lemma unifyNewlineChars_eq_nil_iff {cs : List Char} : unifyNewlineChars cs = [] ↔ cs = [] := by
  cases cs with
  | nil => exact Iff.rfl
  | cons c cs =>
    have hne : unified false c ≠ [] := by
      by_cases hr : c = '\r' <;> simp [unified, hr]
    rw [unifyNewlineChars_eq, unifyFrom_cons]
    simp [hne]

lemma not_mem_withLineFeeds (s : String) : '\r' ∉ (withLineFeeds s).toList := by
  rw [withLineFeeds, String.toList_ofList, ← List.singleton_infix_iff]
  exact not_infix_replaceAll (by simp) (by decide)

lemma withLineFeeds_eq_self {s : String} (h : '\r' ∉ s.toList) : withLineFeeds s = s := by
  have hreturn (q : List Char) : ¬ ('\r' :: q) <:+: s.toList :=
    fun hin => h (hin.subset (.head q))
  rw [withLineFeeds, replaceAll_eq_self (by simp) (hreturn _), replaceAll_eq_self (by simp)
    (hreturn _), String.ofList_toList]

end SourceRecovery.Text
