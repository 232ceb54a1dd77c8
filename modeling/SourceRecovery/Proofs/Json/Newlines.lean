import SourceRecovery.Proofs.Json.Grammar
import SourceRecovery.Proofs.Text.Line

/-!
# Newlines in catalog files

A file is read with every newline in it written as one line feed. A newline in the text of a value
stands in its white space only, so the text writes the same value afterwards.
-/

namespace SourceRecovery

namespace Json

open Text

/-- Unifying the newlines in characters, whatever comes before and follows, gives characters with
a property. -/
def Unifies (P : List Char → Prop) (cs : List Char) : Prop :=
  ∀ afterReturn, ∃ cs' afterReturn', P cs' ∧
    ∀ rest, unifyFrom afterReturn (cs ++ rest) = cs' ++ unifyFrom afterReturn' rest

variable {cs ds : List Char}

/-- Characters without control characters among them. -/
def IsSolid (cs : List Char) : Prop := ∀ c ∈ cs, 0x20 ≤ c.toNat

lemma isSolid_nil : IsSolid [] := nofun

lemma isSolid_cons {c : Char} : IsSolid (c :: cs) ↔ 0x20 ≤ c.toNat ∧ IsSolid cs := by
  simp [IsSolid]

lemma isSolid_append : IsSolid (cs ++ ds) ↔ IsSolid cs ∧ IsSolid ds := by
  simp [IsSolid, or_imp, forall_and]

/-- A character that is no control character stays. -/
lemma unifyFrom_cons_of_le {c : Char} (h : 0x20 ≤ c.toNat) (afterReturn : Bool)
    (rest : List Char) : unifyFrom afterReturn (c :: rest) = c :: unifyFrom false rest := by
  have hc : c ≠ '\r' ∧ c ≠ '\n' := by
    constructor <;>
    · rintro rfl
      simp at h
  rw [unifyFrom_cons, unified, if_neg hc.1, if_neg fun hn => hc.2 hn.1, decide_eq_false hc.1]
  rfl

lemma IsSolid.unifies (h : IsSolid cs) : Unifies (· = cs) cs := by
  induction cs with
  | nil => exact fun afterReturn => ⟨[], afterReturn, rfl, fun rest => rfl⟩
  | cons c cs ih =>
    intro afterReturn
    obtain ⟨hc, hcs⟩ := isSolid_cons.mp h
    obtain ⟨_, after, rfl, hunify⟩ := ih hcs false
    refine ⟨_, after, rfl, fun rest => ?_⟩
    rw [List.cons_append, unifyFrom_cons_of_le hc, hunify, List.cons_append]

lemma IsBlank.unifies (h : IsBlank cs) : Unifies IsBlank cs := by
  induction cs with
  | nil => exact fun afterReturn => ⟨[], afterReturn, isBlank_nil, fun rest => rfl⟩
  | cons c cs ih =>
    intro afterReturn
    obtain ⟨cs', after, hblank, hunify⟩ := ih (fun d hd => h d (.tail _ hd)) (decide (c = '\r'))
    refine ⟨unified afterReturn c ++ cs', after, ?_, fun rest => ?_⟩
    · intro d hd
      rcases List.mem_append.mp hd with hd | hd
      · rw [unified] at hd
        split_ifs at hd
        · simp_all [isSpace]
        · simp at hd
        · rw [List.mem_singleton.mp hd]
          exact h c (.head _)
      · exact hblank d hd
    · rw [List.cons_append, unifyFrom_cons, hunify, List.append_assoc]

/-! ### The text of a value -/

lemma le_toNat_of_hexValue? {c : Char} {n : ℕ} (h : hexValue? c = some n) : 0x20 ≤ c.toNat := by
  have hle : ∀ d : Char, d ≤ c → d.toNat ≤ c.toNat := fun d hd => UInt32.le_iff_toNat_le.mp hd
  unfold hexValue? at h
  split_ifs at h with h1 h2 h3
  · exact Nat.le_trans (by decide) (hle _ h1.1)
  · exact Nat.le_trans (by decide) (hle _ h2.1)
  · exact Nat.le_trans (by decide) (hle _ h3.1)

lemma le_toNat_of_escaped? {l c : Char} (h : escaped? l = some c) : 0x20 ≤ l.toNat := by
  unfold escaped? at h
  split at h <;> first | decide | cases h

lemma Spells.isSolid (h : Spells cs ds) : IsSolid cs := by
  induction h with
  | nil => simp [IsSolid]
  | plain hc _ _ _ ih => exact isSolid_cons.mpr ⟨hc, ih⟩
  | letter hl _ ih =>
    exact isSolid_cons.mpr ⟨by decide, isSolid_cons.mpr ⟨le_toNat_of_escaped? hl, ih⟩⟩
  | code hn _ ih =>
    simp only [hexValue4?, Option.bind_eq_bind, Option.bind_eq_some_iff] at hn
    obtain ⟨_, ha, _, hb, _, hc, _, hd, -⟩ := hn
    simp only [isSolid_cons]
    exact ⟨by decide, by decide, le_toNat_of_hexValue? ha, le_toNat_of_hexValue? hb,
      le_toNat_of_hexValue? hc, le_toNat_of_hexValue? hd, ih⟩

lemma IsQuoted.isSolid {s : String} (h : IsQuoted cs s) : IsSolid cs := by
  obtain ⟨h⟩ := h
  simp [isSolid_cons, isSolid_append, isSolid_nil, h.isSolid]

lemma IsDigits.isSolid (h : IsDigits cs) : IsSolid cs := by
  intro c hc
  have := h.2 c hc
  simp only [Char.isDigit, Bool.and_eq_true, decide_eq_true_eq] at this
  exact Nat.le_trans (by decide) (UInt32.le_iff_toNat_le.mp this.1)

lemma IsNumber.isSolid {v : Json} (h : IsNumber cs v) : IsSolid cs := by
  have hminus : ∀ negative, IsSolid (minus negative) := by
    intro negative
    cases negative <;> simp [minus, IsSolid]
  cases h with
  | int hw => exact isSolid_append.mpr ⟨hminus _, hw.1.isSolid⟩
  | real hw hpoint hpower =>
    refine isSolid_append.mpr ⟨hminus _, isSolid_append.mpr ⟨hw.1.isSolid, ?_⟩⟩
    refine isSolid_append.mpr ⟨?_, ?_⟩
    · cases hpoint with
      | absent => simp [IsSolid]
      | point h => exact isSolid_cons.mpr ⟨by decide, h.isSolid⟩
    · cases hpower with
      | absent => simp [IsSolid]
      | bare he h | positive he h | negative he h =>
        have := h.isSolid
        rcases he with rfl | rfl <;> simp [isSolid_cons, this]

lemma IsSimple.isSolid {v : Json} (h : IsSimple cs v) : IsSolid cs := by
  cases h with
  | text h => exact h.isSolid
  | number h => exact h.isSolid
  | word h =>
    have hwords : ∀ w ∈ words, IsSolid w.1 := by simp [words_eq, IsSolid]
    exact hwords _ h

lemma Unifies.mono {P Q : List Char → Prop} (h : Unifies P cs) (hPQ : ∀ cs, P cs → Q cs) :
    Unifies Q cs := by
  intro afterReturn
  obtain ⟨cs', after, hcs, hunify⟩ := h afterReturn
  exact ⟨cs', after, hPQ _ hcs, hunify⟩

lemma IsSimple.unifies {v : Json} (h : IsSimple cs v) : Unifies (IsSimple · v) cs :=
  h.isSolid.unifies.mono fun _ hcs => hcs ▸ h

variable {α : Type} {W : List Char → α → Prop}

lemma IsSequence.unifies {as : List α} (hW : ∀ cs a, W cs a → Unifies (W · a) cs)
    (h : IsSequence W cs as) : Unifies (IsSequence W · as) cs := by
  induction h with
  | last h hb =>
    intro afterReturn
    obtain ⟨cs', r, hcs, hunify⟩ := hW _ _ h afterReturn
    obtain ⟨blanks', r', hblanks, hunify'⟩ := hb.unifies r
    refine ⟨_, r', .last hcs hblanks, fun rest => ?_⟩
    simp only [List.append_assoc, hunify, hunify']
  | cons h hbefore hafter _ ih =>
    -- Whether a carriage return stands last is handed from each part to the next.
    intro afterReturn
    obtain ⟨cs', r, hcs, hunify⟩ := hW _ _ h afterReturn
    obtain ⟨before', _, hbefore', hunify₁⟩ := hbefore.unifies r
    obtain ⟨after', r₂, hafter', hunify₂⟩ := hafter.unifies false
    obtain ⟨rest', r₃, hrest', hunify₃⟩ := ih r₂
    refine ⟨_, r₃, .cons hcs hbefore' hafter' hrest', fun rest => ?_⟩
    simp only [List.append_assoc, List.cons_append, hunify, hunify₁, hunify₂, hunify₃,
      unifyFrom_cons_of_le (c := ',') (by decide)]

variable {V : List Char → Json → Prop}

lemma IsMember.unifies {m : String × Json} (hV : ∀ cs v, V cs v → Unifies (V · v) cs)
    (h : IsMember V cs m) : Unifies (IsMember V · m) cs := by
  obtain ⟨hname, hbefore, hafter, h⟩ := h
  intro afterReturn
  obtain ⟨_, r, rfl, hunify⟩ := hname.isSolid.unifies afterReturn
  obtain ⟨before', _, hbefore', hunify₁⟩ := hbefore.unifies r
  obtain ⟨after', r₂, hafter', hunify₂⟩ := hafter.unifies false
  obtain ⟨cs', r₃, hcs, hunify₃⟩ := hV _ _ h r₂
  refine ⟨_, r₃, .mk hname hbefore' hafter' hcs, fun rest => ?_⟩
  simp only [List.append_assoc, List.cons_append, hunify, hunify₁, hunify₂, hunify₃,
    unifyFrom_cons_of_le (c := ':') (by decide)]

/-- White space and parts between the marks of a container. -/
lemma unifies_between {opening closing : Char} (ho : 0x20 ≤ opening.toNat)
    (hc : 0x20 ≤ closing.toNat) {blanks : List Char} {P Q : List Char → Prop} (hb : IsBlank blanks)
    (h : Unifies P cs)
    (hQ : ∀ blanks cs, IsBlank blanks → P cs → Q (opening :: (blanks ++ (cs ++ [closing])))) :
    Unifies Q (opening :: (blanks ++ (cs ++ [closing]))) := by
  intro afterReturn
  obtain ⟨blanks', r, hblanks', hunify⟩ := hb.unifies false
  obtain ⟨cs', _, hcs, hunify'⟩ := h r
  refine ⟨_, false, hQ _ _ hblanks' hcs, fun rest => ?_⟩
  simp only [List.append_assoc, List.cons_append, List.nil_append, hunify, hunify',
    unifyFrom_cons_of_le ho, unifyFrom_cons_of_le hc]

lemma IsLayer.unifies {v : Json} (hV : ∀ cs v, V cs v → Unifies (V · v) cs)
    (h : IsLayer V cs v) : Unifies (IsLayer V · v) cs := by
  cases h with
  | simple h => exact h.unifies.mono fun _ => .simple
  | noItems hb =>
    refine unifies_between (by decide) (by decide) hb isSolid_nil.unifies ?_
    rintro blanks _ hb rfl
    exact .noItems hb
  | items hb h =>
    exact unifies_between (by decide) (by decide) hb (h.unifies hV) fun _ _ => .items
  | noMembers hb =>
    refine unifies_between (by decide) (by decide) hb isSolid_nil.unifies ?_
    rintro blanks _ hb rfl
    exact .noMembers hb
  | members hb h =>
    refine unifies_between (by decide) (by decide) hb (h.unifies fun _ _ => ?_) fun _ _ => .members
    exact IsMember.unifies hV

lemma Writes.unifies {depth : ℕ} {v : Json} (h : Writes depth cs v) :
    Unifies (Writes depth · v) cs := by
  induction depth generalizing cs v with
  | zero => exact IsSimple.unifies h
  | succ depth ih => exact IsLayer.unifies (fun _ _ => ih) h

/-- Unifying the newlines in the text of a value gives a text of it. -/
theorem IsText.unifyNewlines {s : String} {v : Json} (h : IsText s v) :
    IsText (Text.unifyNewlines s) v := by
  obtain ⟨before, cs, after, hbefore, hcs, hafter, hs⟩ := h
  obtain ⟨before', r, hbefore', hunify⟩ := hbefore.unifies false
  obtain ⟨cs', r', hcs', hunify'⟩ := hcs.unifies r
  obtain ⟨after', _, hafter', hunify''⟩ := hafter.unifies r'
  refine ⟨before', cs', after', hbefore', hcs', hafter', ?_⟩
  have hlast := hunify'' []
  rw [List.append_nil] at hlast
  rw [Text.unifyNewlines, String.toList_ofList, unifyNewlineChars_eq, hs, hunify, hunify', hlast]
  simp [unifyFrom]

end Json

end SourceRecovery
