import Mathlib.Data.List.Induction
import SourceRecovery.Number.Numeral

/-!
# Reading what is written

A number is read back from its digits, which stay the same when blanks around them are trimmed. A
number that is read has no more digits than a numeral may have.
-/

namespace SourceRecovery

variable {cs front back : List Char} {c : Char}

/-! ### Blanks around a text -/

lemma Text.toNat_of_isDigit (h : c.isDigit = true) : 48 ≤ c.toNat ∧ c.toNat ≤ 57 := by
  simpa using Char.isDigit_iff_toNat.mp h

lemma Text.isBlank_of_isDigit (h : c.isDigit = true) : isBlank c = false := by
  obtain ⟨hlow, hhigh⟩ := toNat_of_isDigit h
  simp only [isBlank, Bool.or_eq_false_iff, Bool.and_eq_false_iff, decide_eq_false_iff_not,
    beq_eq_false_iff_ne]
  omega

/-- A text without blanks is all that is left of it and blanks around it. -/
lemma Text.trimChars_append (hfront : ∀ c ∈ front, isBlank c = true)
    (hback : ∀ c ∈ back, isBlank c = true) (hcs : ∀ c ∈ cs, isBlank c = false) :
    trimChars (front ++ cs ++ back) = cs := by
  have hkept (ds : List Char) (hds : ∀ c ∈ ds, isBlank c = false) : ds.dropWhile isBlank = ds := by
    cases ds with
    | nil => rfl
    | cons d ds => exact List.dropWhile_cons_of_neg (by simp [hds d (.head _)])
  have hend : (back.reverse ++ cs.reverse).dropWhile isBlank = cs.reverse := by
    rw [List.dropWhile_append_of_pos fun c hc => hback c (List.mem_reverse.mp hc)]
    exact hkept _ fun c hc => hcs c (List.mem_reverse.mp hc)
  rw [trimChars, List.append_assoc, List.dropWhile_append_of_pos hfront]
  cases cs with
  | nil =>
    rw [List.nil_append, ← List.append_nil back, List.dropWhile_append_of_pos hback]
    rfl
  | cons c cs =>
    rw [List.cons_append, List.dropWhile_cons_of_neg (by simp [hcs c (.head _)]),
      ← List.cons_append, List.reverse_append, hend, List.reverse_reverse]

lemma Text.trim_append {s before after : String} (hbefore : ∀ c ∈ before.toList, isBlank c = true)
    (hafter : ∀ c ∈ after.toList, isBlank c = true) (hs : ∀ c ∈ s.toList, isBlank c = false) :
    trim (before ++ s ++ after) = s := by
  rw [trim, String.toList_append, String.toList_append, trimChars_append hbefore hafter hs,
    String.ofList_toList]

namespace Numeral

/-! ### Digits -/

lemma digit?_of_isDigit (h : c.isDigit = true) : Text.digit? c = some (c.toNat - '0'.toNat) := by
  obtain ⟨hlow, hhigh⟩ := Text.toNat_of_isDigit h
  rw [Text.digit?, if_pos (by omega), if_pos ⟨hlow, hhigh⟩]
  rfl

lemma digitRun_of_isDigit (h : ∀ c ∈ cs, c.isDigit = true) (afterDigit : Bool)
    (hne : afterDigit = true ∨ cs ≠ []) :
    digitRun afterDigit cs = some (cs.map fun c => c.toNat - '0'.toNat, []) := by
  induction cs generalizing afterDigit with
  | nil => simp [digitRun, hne.resolve_right (· rfl)]
  | cons c cs ih =>
    have hrest := ih (fun d hd => h d (.tail _ hd)) true (.inl rfl)
    simp [digitRun, digit?_of_isDigit (h c (.head _)), hrest]

lemma ofDigits_map (cs : List Char) :
    ofDigits (cs.map fun c => c.toNat - '0'.toNat) = Nat.ofDigitChars 10 cs 0 := by
  rw [ofDigits, Nat.ofDigitChars_eq_foldl, List.foldl_map]

/-- Digits read as the number that they write. -/
lemma read_of_isDigit {s : String} (h : ∀ c ∈ s.toList, c.isDigit = true) (hne : s.toList ≠ [])
    (hlength : s.length ≤ maxDigits) : read s = .ok (Nat.ofDigitChars 10 s.toList 0) := by
  obtain ⟨c, cs, hs⟩ := List.exists_cons_of_ne_nil hne
  rw [hs] at h
  obtain ⟨hlow, hhigh⟩ := Text.toNat_of_isDigit (h c (.head _))
  have hpadding : isPadding c = false := by
    simp only [isPadding, Bool.or_eq_false_iff, Bool.and_eq_false_iff, decide_eq_false_iff_not,
      beq_eq_false_iff_ne]
    omega
  have hdrop : (c :: cs).dropWhile isPadding = c :: cs :=
    List.dropWhile_cons_of_neg (by simp [hpadding])
  have hsign : sign (c :: cs) = (false, c :: cs) := by
    unfold sign
    split
    · rename_i heq
      obtain ⟨rfl, -⟩ := List.cons_eq_cons.mp heq
      exact absurd hlow (by decide)
    · rename_i heq
      obtain ⟨rfl, -⟩ := List.cons_eq_cons.mp heq
      exact absurd hlow (by decide)
    · rfl
  have hrun := digitRun_of_isDigit h false (.inr (List.cons_ne_nil _ _))
  have hcount : ¬maxDigits < (c :: cs).length := by
    rw [← hs, String.length_toList]
    exact Nat.not_lt.mpr hlength
  rw [read, hs, hdrop, hsign]
  simp only [hrun, List.length_map, if_neg hcount, ofDigits_map]
  rfl

lemma isDigit_of_mem_repr {n : ℕ} (h : c ∈ n.repr.toList) : c.isDigit = true := by
  rw [Nat.toList_repr] at h
  exact Nat.isDigit_of_mem_toDigits (by decide) (by decide) h

/-- A number is read back from its text. -/
lemma read_repr {n : ℕ} (h : n.repr.length ≤ maxDigits) : read n.repr = .ok n := by
  have hne : n.repr.toList ≠ [] := by
    rw [Nat.toList_repr]
    exact Nat.toDigits_ne_nil
  rw [read_of_isDigit (fun c hc => isDigit_of_mem_repr hc) hne h, Nat.toList_repr,
    Nat.ofDigitChars_ten_toDigits]

/-! ### The number of digits -/

lemma ofDigits_concat (ds : List ℕ) (d : ℕ) : ofDigits (ds ++ [d]) = 10 * ofDigits ds + d := by
  simp [ofDigits]

lemma ofDigits_lt {ds : List ℕ} (h : ∀ d ∈ ds, d < 10) : ofDigits ds < Nat.pow 10 ds.length := by
  induction ds using List.reverseRecOn with
  | nil => simp [ofDigits]
  | append_singleton ds d ih =>
    have hd : d < 10 := h d (by simp)
    have hds := ih fun e he => h e (by simp [he])
    have hpow : Nat.pow 10 (ds.length + 1) = Nat.pow 10 ds.length * 10 := rfl
    rw [ofDigits_concat, List.length_append, List.length_singleton, hpow]
    omega

lemma lt_of_mem_digitRun {afterDigit : Bool} {ds : List ℕ} {rest : List Char}
    (h : digitRun afterDigit cs = some (ds, rest)) : ∀ d ∈ ds, d < 10 := by
  fun_induction digitRun afterDigit cs generalizing ds with
  | case1 =>
    cases h
    simp
  | case2 => cases h
  | case3 _ c cs d hd ih =>
    obtain ⟨⟨ds', rest'⟩, hrun, heq⟩ := Option.map_eq_some_iff.mp h
    cases heq
    intro e he
    rcases List.mem_cons.mp he with rfl | he
    · exact Text.digit?_lt hd
    · exact ih hrun e he
  | case4 => cases h
  | case5 _ cs _ _ ih => exact ih h
  | case6 =>
    cases h
    simp

/-- A number that is read is written by digits, perhaps with a sign. -/
lemma exists_digitRun_of_read {s : String} {n : Int} (h : read s = .ok n) :
    ∃ cs ds rest, digitRun false cs = some (ds, rest) ∧ ds.length ≤ maxDigits ∧
      n.natAbs = ofDigits ds := by
  unfold read at h
  split at h
  rename_i negative cs _
  split at h
  · cases h
  · rename_i ds rest hrun
    split_ifs at h with hlong hpadded hnegative
    · cases h
      exact ⟨cs, ds, rest, hrun, Nat.not_lt.mp hlong, by simp⟩
    · cases h
      exact ⟨cs, ds, rest, hrun, Nat.not_lt.mp hlong, by simp⟩

/-- A number that is read has at most as many digits as a numeral may have. -/
lemma length_repr_le_of_read {s : String} {n : Int} (h : read s = .ok n) :
    n.natAbs.repr.length ≤ maxDigits := by
  obtain ⟨cs, ds, rest, hrun, hlength, hn⟩ := exists_digitRun_of_read h
  rw [hn, Nat.length_repr_le_iff (by decide)]
  calc
    ofDigits ds < 10 ^ ds.length := ofDigits_lt (lt_of_mem_digitRun hrun)
    _ ≤ 10 ^ maxDigits := Nat.pow_le_pow_right (by decide) hlength

end Numeral

end SourceRecovery
