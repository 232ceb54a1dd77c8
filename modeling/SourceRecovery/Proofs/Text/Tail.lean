import Mathlib.Data.Int.Notation
import Mathlib.Tactic.Common
import SourceRecovery.Text.Line

/-!
# The lines at the end of a text

A text falls into lines in one way: each line ends with its line feed, and a last one may have none.
The end of a text are its last lines as many as are asked for, and all of them if there are fewer.
Asking for none is the exception, which gives the whole text.
-/

namespace SourceRecovery.Text

variable {cs ds line : List Char} {ls : List (List Char)} {c : Char} {count : ℕ}

/-! ### Lines -/

/-- The lines that characters fall into, each with its line feed. A last line may lack one. -/
inductive IsLines : List Char → List (List Char) → Prop
  | nil : IsLines [] []
  | last {line : List Char} (nonempty : line ≠ []) (unbroken : '\n' ∉ line) : IsLines line [line]
  | cons {line cs : List Char} {ls : List (List Char)} (unbroken : '\n' ∉ line)
      (rest : IsLines cs ls) : IsLines (line ++ '\n' :: cs) ((line ++ ['\n']) :: ls)

lemma lines_cons (c : Char) (cs : List Char) : lines (c :: cs) = consLine c (lines cs) := rfl

lemma consLine_feed (ls : List (List Char)) : consLine '\n' ls = ['\n'] :: ls := by
  cases ls with
  | nil => rfl
  | cons line ls => rw [consLine, if_pos rfl]

/-- A character that is no line feed comes into the first line. -/
lemma IsLines.consLine (hc : c ≠ '\n') (h : IsLines cs ls) : IsLines (c :: cs) (consLine c ls) := by
  cases h with
  | nil => exact .last (List.cons_ne_nil _ _) (by simpa using hc.symm)
  | last nonempty unbroken =>
    rw [Text.consLine, if_neg hc]
    exact .last (List.cons_ne_nil _ _) (by simp [hc.symm, unbroken])
  | @cons line cs ls unbroken rest =>
    have hline : '\n' ∉ c :: line := by simp [hc.symm, unbroken]
    rw [Text.consLine, if_neg hc]
    exact .cons hline rest

lemma isLines_lines (cs : List Char) : IsLines cs (lines cs) := by
  induction cs with
  | nil => exact .nil
  | cons c cs ih =>
    rw [lines_cons]
    by_cases hc : c = '\n'
    · subst hc
      rw [consLine_feed]
      have hline : '\n' ∉ ([] : List Char) := List.not_mem_nil
      exact .cons hline ih
    · exact ih.consLine hc

lemma lines_of_notMem (hne : line ≠ []) (h : '\n' ∉ line) : lines line = [line] := by
  induction line with
  | nil => exact absurd rfl hne
  | cons c line ih =>
    obtain ⟨hc, hline⟩ := not_or.mp (List.mem_cons.not.mp h)
    cases line with
    | nil => rfl
    | cons d line =>
      rw [lines_cons, ih (List.cons_ne_nil _ _) hline, consLine, if_neg (Ne.symm hc)]

lemma lines_append_feed (h : '\n' ∉ line) (cs : List Char) :
    lines (line ++ '\n' :: cs) = (line ++ ['\n']) :: lines cs := by
  induction line with
  | nil => exact consLine_feed _
  | cons c line ih =>
    obtain ⟨hc, hline⟩ := not_or.mp (List.mem_cons.not.mp h)
    rw [List.cons_append, lines_cons, ih hline, consLine, if_neg (Ne.symm hc), List.cons_append]

/-- A text falls into lines in one way. -/
lemma isLines_iff : IsLines cs ls ↔ ls = lines cs := by
  constructor
  · intro h
    induction h with
    | nil => rfl
    | last nonempty unbroken => exact (lines_of_notMem nonempty unbroken).symm
    | cons unbroken rest ih => rw [ih, lines_append_feed unbroken]
  · rintro rfl
    exact isLines_lines cs

/-- Texts without line feeds are the lines of what they make up with one behind each. -/
lemma isLines_join {rows : List String} (h : ∀ row ∈ rows, '\n' ∉ row.toList) :
    IsLines (String.join (rows.map (· ++ "\n"))).toList
      (rows.map fun row => (row ++ "\n").toList) := by
  induction rows with
  | nil => exact .nil
  | cons row rows ih =>
    obtain ⟨hrow, hrows⟩ := List.forall_mem_cons.mp h
    have hjoin : (String.join ((row :: rows).map (· ++ "\n"))).toList =
        row.toList ++ '\n' :: (String.join (rows.map (· ++ "\n"))).toList := by
      simp
    rw [hjoin, List.map_cons, String.toList_append]
    exact .cons hrow (ih hrows)

/-! ### The end -/

/-- The end of a text: its last lines, as many as are asked for, or all if there are fewer. -/
def IsTail (count : ℕ) (cs ds : List Char) : Prop :=
  ∃ front back, IsLines cs (front ++ back) ∧ back.length = min count (front ++ back).length ∧
    ds = back.flatten

lemma isTail_iff :
    IsTail count cs ds ↔ ds = ((lines cs).drop ((lines cs).length - count)).flatten := by
  constructor
  · rintro ⟨front, back, hlines, hlength, rfl⟩
    have hfront : (front ++ back).length - count = front.length := by
      rw [List.length_append] at *
      omega
    rw [← isLines_iff.mp hlines, hfront, List.drop_left]
  · rintro rfl
    refine ⟨(lines cs).take ((lines cs).length - count), _, ?_, ?_, rfl⟩
    · rw [List.take_append_drop]
      exact isLines_lines cs
    · rw [List.take_append_drop, List.length_drop]
      omega

lemma tail_zero (cs : List Char) : tail 0 cs = cs := by
  simp [tail, lastLines]

lemma tail_of_ne_zero (h : count ≠ 0) (cs : List Char) :
    tail count cs = ((lines cs).drop ((lines cs).length - count)).flatten := by
  have hpos : ¬ (count : ℤ) ≤ 0 := by omega
  rw [tail, lastLines, if_neg hpos, Int.toNat_natCast]

/-- What is given as the end of a text is its end, unless none of its lines are asked for. -/
lemma isTail_tail_iff : IsTail count cs (tail count cs) ↔ (count = 0 → cs = []) := by
  rw [isTail_iff]
  by_cases h : count = 0
  · subst h
    have hnone : ((lines cs).drop ((lines cs).length - 0)).flatten = [] := by simp
    have hall : tail ((0 : ℕ) : ℤ) cs = cs := tail_zero cs
    rw [hnone, hall, imp_iff_right rfl]
  · simp only [tail_of_ne_zero h, h, false_imp_iff]

end SourceRecovery.Text
