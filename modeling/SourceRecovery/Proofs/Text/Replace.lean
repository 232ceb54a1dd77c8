import Mathlib.Data.List.Infix
import Mathlib.Tactic.Common
import SourceRecovery.Text.Replace

/-!
# What replacing leaves

A text falls into pieces between the occurrences of a pattern, and replacing puts the pieces
together again with something else between them. What is put in makes no occurrence of a pattern
that it is apart from. Deleting a pattern leaves it in a text exactly if the text has one that is
torn: cut into parts, with whole patterns between them.
-/

namespace SourceRecovery.Text

variable {p q new u x y z cs : List Char}

/-! ### Occurrences -/

lemma occursIn_iff : occursIn p cs = true ↔ p <:+: cs := by
  induction cs with
  | nil => simp [occursIn]
  | cons c cs ih =>
    rw [occursIn, Bool.or_eq_true, ih, List.isPrefixOf_iff_prefix, List.infix_cons_iff]

/-- A text can start inside another one: an end of that one and the text agree as far as both go. -/
def CanStartIn (q p : List Char) : Prop := ∃ s ∈ p.tails, s ≠ [] ∧ (s <+: q ∨ q <+: s)

instance : Decidable (CanStartIn q p) := inferInstanceAs (Decidable (∃ s ∈ p.tails, _))

lemma canStartIn_of_suffix {s : List Char} (h : s <:+ p) (hne : s ≠ []) (hs : s <+: q ∨ q <+: s) :
    CanStartIn q p :=
  ⟨s, (List.mem_tails s p).mpr h, hne, hs⟩

/-- Two patterns share no character of a text, wherever in it they occur. -/
structure Apart (p q : List Char) : Prop where
  left : ¬ CanStartIn q p
  right : ¬ CanStartIn p q

instance : Decidable (Apart p q) :=
  decidable_of_iff (¬ CanStartIn q p ∧ ¬ CanStartIn p q) ⟨fun h => ⟨h.1, h.2⟩, fun h => ⟨h.1, h.2⟩⟩

/-- Two occurrences of a pattern share no character: it can start in no end of itself. -/
def Unbordered (p : List Char) : Prop := ¬ CanStartIn p p.tail

instance : Decidable (Unbordered p) := inferInstanceAs (Decidable (¬ _))

lemma Apart.ne_nil (h : Apart p q) (hp : p ≠ []) : q ≠ [] := by
  rintro rfl
  exact h.left (canStartIn_of_suffix List.suffix_rfl hp (.inr List.nil_prefix))

/-- What is apart from something occurs in front of it or behind. -/
lemma Apart.front_or_back (h : Apart p q) (hp : p <:+: x ++ (q ++ y)) : p <:+: x ∨ p <:+: y := by
  by_cases hne : p = []
  · exact .inl (hne ▸ List.nil_infix)
  rcases List.infix_append_iff.mp hp with hx | hqy | ⟨s, t, rfl, hs, ht⟩
  · exact .inl hx
  · rcases List.infix_append_iff.mp hqy with ⟨v, w, rfl⟩ | hy | ⟨s, t, rfl, hs, ht⟩
    · exact absurd (canStartIn_of_suffix ⟨v, by simp⟩ (by simp [hne])
        (.inr (List.prefix_append p w))) h.right
    · exact .inr hy
    · by_cases hs' : s = []
      · exact .inr (by simpa [hs'] using ht.isInfix)
      · exact absurd (canStartIn_of_suffix hs hs' (.inl (List.prefix_append s t))) h.right
  · by_cases ht' : t = []
    · exact .inl (by simpa [ht'] using hs.isInfix)
    · exact absurd (canStartIn_of_suffix (List.suffix_append s t) ht'
        (List.prefix_or_prefix_of_prefix ht (List.prefix_append q y))) h.left

lemma Apart.infix_append_iff (h : Apart p q) :
    p <:+: x ++ (q ++ y) ↔ p <:+: x ∨ p <:+: y := by
  refine ⟨h.front_or_back, ?_⟩
  rintro (hx | hy)
  · exact hx.trans (List.prefix_append x _).isInfix
  · exact hy.trans ((List.suffix_append q y).trans (List.suffix_append x _)).isInfix

lemma Apart.not_inside (h : Apart p q) (hp : p ≠ []) : ¬ p <:+: q := by
  have hnone := h.infix_append_iff (x := []) (y := [])
  rw [List.nil_append, List.append_nil, List.infix_nil, or_self] at hnone
  exact mt hnone.mp hp

/-- What is apart from something, and does not occur in front of it, occurs behind it only. -/
lemma Apart.length_le (h : Apart p q) (hu : ¬ p <:+: u) (heq : u ++ (q ++ z) = x ++ (p ++ y)) :
    (u ++ q).length ≤ x.length := by
  have hp : p ≠ [] := fun he => hu (he ▸ List.nil_infix)
  rw [← List.append_assoc, List.append_eq_append_iff] at heq
  rcases heq with ⟨v, rfl, -⟩ | ⟨v, hv, hz⟩
  · simp
  · by_contra hlt
    have hv' : v ≠ [] := by
      rintro rfl
      simp [hv] at hlt
    -- The pattern starts at `v`, in the text in front or in what it is apart from.
    rcases List.prefix_or_prefix_of_prefix ⟨y, hz⟩ (List.prefix_append v z) with hpv | hvp
    · have hin : p <:+: u ++ (q ++ []) := by
        rw [List.append_nil, hv]
        exact hpv.isInfix.trans (List.suffix_append x v).isInfix
      rcases h.front_or_back hin with hin | hin
      · exact hu hin
      · exact hp (List.infix_nil.mp hin)
    · have hvs : v <:+ u ++ q := hv ▸ List.suffix_append x v
      rcases List.suffix_or_suffix_of_suffix hvs (List.suffix_append u q) with hvq | ⟨w, rfl⟩
      · exact h.right (canStartIn_of_suffix hvq hv' (.inl hvp))
      · obtain ⟨r, rfl⟩ := hvp
        exact h.left (canStartIn_of_suffix ⟨w, (List.append_assoc ..).symm⟩
          (by simp [h.ne_nil hp]) (.inr (List.prefix_append q r)))

/-- No rest of a pattern without borders starts it again. -/
lemma Unbordered.not_start (h : Unbordered p) {s t : List Char} (hst : p = s ++ t) (hs : s ≠ [])
    (ht : t ≠ []) : ¬ (t <+: p ∨ p <+: t) := by
  obtain ⟨c, s, rfl⟩ := List.exists_cons_of_ne_nil hs
  refine fun hc => h (canStartIn_of_suffix ⟨s, ?_⟩ ht hc)
  rw [hst, List.cons_append, List.tail_cons]

lemma Unbordered.not_end (h : Unbordered p) {s t : List Char} (hst : p = s ++ t) (hs : s ≠ [])
    (ht : t ≠ []) : ¬ s <:+ p := by
  rintro ⟨r, hr⟩
  have hne : r ≠ [] := by
    rintro rfl
    have hlen := congrArg List.length (hst.symm.trans hr.symm)
    simp only [List.length_append, List.nil_append] at hlen
    exact ht (List.length_eq_zero_iff.mp (by omega))
  exact h.not_start hr.symm hne hs (.inl (hst ▸ List.prefix_append s t))

/-- What stands in front of a pattern without borders, in a text that starts with the pattern,
starts with all of it. -/
lemma Unbordered.starts (h : Unbordered p) (hu : u ≠ []) (heq : p ++ z = u ++ (p ++ y)) :
    p <+: u := by
  rcases List.prefix_or_prefix_of_prefix ⟨z, heq⟩ (List.prefix_append u (p ++ y)) with
    hpu | ⟨t, rfl⟩
  · exact hpu
  · by_cases ht : t = []
    · simp [ht]
    · rw [List.append_assoc, List.append_cancel_left_eq] at heq
      exact absurd (List.prefix_or_prefix_of_prefix ⟨z, heq⟩ (List.prefix_append (u ++ t) y))
        (h.not_start rfl hu ht)

/-- A pattern without borders starts nowhere else in front of an occurrence that is the first. -/
lemma Unbordered.length_le (h : Unbordered p) (hu : ¬ p <:+: u)
    (heq : u ++ (p ++ z) = x ++ (p ++ y)) : u.length ≤ x.length := by
  rcases List.append_eq_append_iff.mp heq with ⟨v, rfl, -⟩ | ⟨v, rfl, hv⟩
  · simp
  · by_cases hne : v = []
    · simp [hne]
    · exact absurd ((h.starts hne hv).isInfix.trans (List.suffix_append x v).isInfix) hu

/-- A pattern without borders stands at one place of a text if it is not in front and not behind. -/
lemma Unbordered.eq_of_append (h : Unbordered p) (hu : ¬ p <:+: u) (hz : ¬ p <:+: z)
    (heq : u ++ (p ++ z) = x ++ (p ++ y)) : x = u := by
  obtain ⟨v, rfl⟩ : u <+: x := List.prefix_of_prefix_length_le (List.prefix_append u (p ++ z))
    (heq ▸ List.prefix_append x (p ++ y)) (h.length_le hu heq)
  rw [List.append_assoc, List.append_cancel_left_eq] at heq
  by_cases hne : v = []
  · simp [hne]
  · obtain ⟨t, rfl⟩ := h.starts hne heq
    rw [List.append_assoc, List.append_cancel_left_eq] at heq
    exact absurd (heq ▸ List.infix_append' t p y) hz

/-! ### Putting pieces together -/

lemma intercalate_cons_of_ne_nil {as : List (List Char)} (h : as ≠ []) (sep a : List Char) :
    sep.intercalate (a :: as) = a ++ (sep ++ sep.intercalate as) := by
  obtain ⟨b, bs, rfl⟩ := List.exists_cons_of_ne_nil h
  rw [List.intercalate_cons_cons, List.append_assoc]

lemma cons_intercalate (c : Char) (sep a : List Char) (as : List (List Char)) :
    c :: sep.intercalate (a :: as) = sep.intercalate ((c :: a) :: as) := by
  by_cases h : as = []
  · simp [h]
  · rw [intercalate_cons_of_ne_nil h, intercalate_cons_of_ne_nil h, List.cons_append]

lemma intercalate_nil_left (as : List (List Char)) : List.intercalate [] as = as.flatten := by
  induction as with
  | nil => simp
  | cons a as ih =>
    by_cases h : as = []
    · simp [h]
    · rw [intercalate_cons_of_ne_nil h, ih, List.nil_append, List.flatten_cons]

lemma prefix_intercalate (sep a : List Char) (as : List (List Char)) :
    a <+: sep.intercalate (a :: as) := by
  by_cases h : as = []
  · simp [h]
  · rw [intercalate_cons_of_ne_nil h]
    exact List.prefix_append a _

lemma suffix_intercalate (sep a : List Char) (as : List (List Char)) :
    sep.intercalate as <:+ sep.intercalate (a :: as) := by
  by_cases h : as = []
  · simp [h]
  · rw [intercalate_cons_of_ne_nil h, ← List.append_assoc]
    exact List.suffix_append _ _

/-! ### Replacing everywhere -/

@[simp] lemma replaceAll_nil : replaceAll p new [] = [] := by rw [replaceAll]

lemma replaceAll_append_self (hp : p ≠ []) :
    replaceAll p new (p ++ cs) = new ++ replaceAll p new cs := by
  obtain ⟨c, r, rfl⟩ := List.exists_cons_of_ne_nil hp
  have hstart : (c :: r).isPrefixOf (c :: (r ++ cs)) = true :=
    List.isPrefixOf_iff_prefix.mpr (List.prefix_append (c :: r) cs)
  rw [List.cons_append, replaceAll, if_pos hstart]
  simp

lemma replaceAll_cons {c : Char} (h : ¬ p <+: c :: cs) :
    replaceAll p new (c :: cs) = c :: replaceAll p new cs := by
  rw [replaceAll, if_neg (mt List.isPrefixOf_iff_prefix.mp h)]

/-- A text is read from its start: it is empty, starts with the pattern, or with a character that
the pattern does not start at. -/
lemma replace_induction {P : List Char → Prop} (hp : p ≠ []) (hnil : P [])
    (hself : ∀ cs, P cs → P (p ++ cs)) (hcons : ∀ c cs, ¬ p <+: c :: cs → P cs → P (c :: cs))
    (cs : List Char) : P cs := by
  induction cs using replaceAll.induct p with
  | case1 => exact hnil
  | case2 c cs h ih =>
    obtain ⟨r, hr⟩ := List.isPrefixOf_iff_prefix.mp h
    obtain ⟨d, s, rfl⟩ := List.exists_cons_of_ne_nil hp
    obtain ⟨rfl, rfl⟩ := List.cons.inj hr
    exact hself r (by simpa using ih)
  | case3 c cs h ih => exact hcons c cs (mt List.isPrefixOf_iff_prefix.mpr h) ih

lemma mem_replaceAll {c : Char} (hp : p ≠ []) (h : c ∈ replaceAll p new cs) : c ∈ cs ∨ c ∈ new := by
  induction cs using replace_induction hp with
  | hnil => simp at h
  | hself cs ih =>
    rw [replaceAll_append_self hp] at h
    rcases List.mem_append.mp h with h | h
    · exact .inr h
    · exact (ih h).imp_left (List.mem_append_right p)
  | hcons d cs hd ih =>
    rw [replaceAll_cons hd] at h
    rcases List.mem_cons.mp h with rfl | h
    · exact .inl (.head _)
    · exact (ih h).imp_left (.tail d)

/-- A text falls into pieces between the occurrences of a pattern, which are what is replaced. -/
lemma exists_pieces (hp : p ≠ []) (cs : List Char) :
    ∃ piece pieces, cs = p.intercalate (piece :: pieces) ∧
      (∀ a ∈ piece :: pieces, ¬ p <:+: a) ∧
      ∀ new, replaceAll p new cs = new.intercalate (piece :: pieces) := by
  induction cs using replace_induction hp with
  | hnil => exact ⟨[], [], by simp, by simpa using hp, by simp⟩
  | hself cs ih =>
    obtain ⟨a, as, hcs, has, hreplace⟩ := ih
    refine ⟨[], a :: as, by rw [List.intercalate_cons_cons, ← hcs]; simp,
      List.forall_mem_cons.mpr ⟨by simpa using hp, has⟩, fun new => ?_⟩
    rw [replaceAll_append_self hp, hreplace, List.intercalate_cons_cons]
    simp
  | hcons c cs hc ih =>
    obtain ⟨a, as, hcs, has, hreplace⟩ := ih
    obtain ⟨ha, has⟩ := List.forall_mem_cons.mp has
    have hcs' : c :: cs = p.intercalate ((c :: a) :: as) := by rw [hcs, cons_intercalate]
    refine ⟨c :: a, as, hcs', List.forall_mem_cons.mpr ⟨fun h => ?_, has⟩, fun new => ?_⟩
    · rcases List.infix_cons_iff.mp h with h | h
      · exact hc (hcs' ▸ h.trans (prefix_intercalate p (c :: a) as))
      · exact ha h
    · rw [replaceAll_cons hc, hreplace, cons_intercalate]

/-- What is apart from a separator occurs in a part between two of them. -/
lemma Apart.infix_intercalate {as : List (List Char)} (h : Apart p q) (hp : p ≠ []) :
    p <:+: q.intercalate as ↔ ∃ a ∈ as, p <:+: a := by
  induction as with
  | nil => simp [hp]
  | cons a as ih =>
    cases as with
    | nil => simp
    | cons b bs =>
      rw [List.intercalate_cons_cons, List.exists_mem_cons_iff, ← ih, List.append_assoc,
        h.infix_append_iff]

/-- Nothing is left of a pattern where what replaces it is apart from it. -/
lemma not_infix_replaceAll (hp : p ≠ []) (h : Apart p new) : ¬ p <:+: replaceAll p new cs := by
  obtain ⟨a, as, -, has, hreplace⟩ := exists_pieces hp cs
  rw [hreplace, h.infix_intercalate hp]
  rintro ⟨b, hb, hin⟩
  exact has b hb hin

/-- What is apart from a pattern and from what replaces it occurs as before. -/
lemma infix_replaceAll_iff (hp : p ≠ []) (hq : q ≠ []) (h : Apart q p) (h' : Apart q new) :
    q <:+: replaceAll p new cs ↔ q <:+: cs := by
  obtain ⟨a, as, hcs, -, hreplace⟩ := exists_pieces hp cs
  rw [hreplace, hcs, h'.infix_intercalate hq, h.infix_intercalate hq]

lemma replaceAll_eq_self (hp : p ≠ []) (h : ¬ p <:+: cs) : replaceAll p new cs = cs := by
  induction cs using replace_induction hp with
  | hnil => exact replaceAll_nil
  | hself cs ih => exact absurd (List.prefix_append p cs).isInfix h
  | hcons c cs hc ih => rw [replaceAll_cons hc, ih fun hin => h (List.infix_cons hin)]

/-- Each replacement changes the length by the same, and there is one if the pattern occurs. -/
lemma exists_length_replaceAll (hp : p ≠ []) (new cs : List Char) :
    ∃ n, (replaceAll p new cs).length + n * p.length = cs.length + n * new.length ∧
      (n = 0 → ¬ p <:+: cs) := by
  induction cs using replace_induction hp with
  | hnil => exact ⟨0, by simp, fun _ => by simpa using hp⟩
  | hself cs ih =>
    obtain ⟨n, hlen, -⟩ := ih
    refine ⟨n + 1, ?_, nofun⟩
    rw [replaceAll_append_self hp, List.length_append, List.length_append, Nat.succ_mul,
      Nat.succ_mul]
    omega
  | hcons c cs hc ih =>
    obtain ⟨n, hlen, hn⟩ := ih
    refine ⟨n, ?_, fun hzero hin => ?_⟩
    · rw [replaceAll_cons hc, List.length_cons, List.length_cons]
      omega
    · exact (List.infix_cons_iff.mp hin).elim hc (hn hzero)

/-- Texts are replaced in one by one where no pattern begins in one and ends in the other. -/
lemma replaceAll_append (hp : p ≠ [])
    (h : ∀ s t, p = s ++ t → s ≠ [] → t ≠ [] → s <:+ x → ¬ t <+: y) :
    replaceAll p new (x ++ y) = replaceAll p new x ++ replaceAll p new y := by
  induction x using replace_induction hp with
  | hnil => simp
  | hself x ih =>
    rw [List.append_assoc, replaceAll_append_self hp, replaceAll_append_self hp, List.append_assoc,
      ih fun s t hst hs ht hsx => h s t hst hs ht (hsx.trans (List.suffix_append p x))]
  | hcons c x hc ih =>
    have hstart : ¬ p <+: c :: (x ++ y) := by
      intro hin
      rcases List.prefix_or_prefix_of_prefix hin (List.prefix_append (c :: x) y) with
        hin' | ⟨t, rfl⟩
      · exact hc hin'
      · have ht : t ≠ [] := by
          rintro rfl
          simp at hc
        exact h _ t rfl (List.cons_ne_nil c x) ht List.suffix_rfl
          ((List.prefix_append_right_inj (c :: x)).mp hin)
    rw [List.cons_append, replaceAll_cons hstart, replaceAll_cons hc, List.cons_append,
      ih fun s t hst hs ht hsx => h s t hst hs ht (hsx.trans (List.suffix_cons c x))]

/-- Around an occurrence of a pattern without borders, all else is replaced for itself. -/
lemma Unbordered.replaceAll_append (hb : Unbordered p) (hp : p ≠ []) (new x y : List Char) :
    replaceAll p new (x ++ (p ++ y)) = replaceAll p new x ++ (new ++ replaceAll p new y) := by
  rw [Text.replaceAll_append hp, replaceAll_append_self hp]
  intro s t hst hs ht _ hty
  exact hb.not_start hst hs ht (List.prefix_or_prefix_of_prefix hty (List.prefix_append p y))

/-! ### Deleting -/

/-- A pattern is torn in a text: cut into parts, none of which is all of it, it stands there with
whole patterns between the parts. -/
def IsTorn (p cs : List Char) : Prop :=
  ∃ parts : List (List Char), parts.flatten = p ∧ p ∉ parts ∧ p.intercalate parts <:+: cs

/-- Parts make up a text, each of them in one of some pieces. -/
structure IsCut (as : List (List Char)) (q : List Char) (parts : List (List Char)) : Prop where
  flatten : parts.flatten = q
  within : ∀ b ∈ parts, ∃ a ∈ as, b <:+: a

namespace IsCut

variable {as parts : List (List Char)} {a s t : List Char}

lemma single (h : q <:+: a) : IsCut (a :: as) q [q] := ⟨by simp, by simp [h]⟩

lemma mono (h : IsCut as q parts) : IsCut (a :: as) q parts := by
  refine ⟨h.flatten, fun b hb => ?_⟩
  obtain ⟨c, hc, hbc⟩ := h.within b hb
  exact ⟨c, .tail a hc, hbc⟩

lemma cons (h : IsCut as t parts) (hs : s <:+: a) : IsCut (a :: as) (s ++ t) (s :: parts) where
  flatten := by rw [List.flatten_cons, h.flatten]
  within := List.forall_mem_cons.mpr ⟨⟨a, .head as, hs⟩, h.mono.within⟩

/-- Between parts and between pieces, the same can be put behind the end of one of them. -/
lemma prefix_cons (h : IsCut as t parts) (ht : t ≠ []) {sep : List Char}
    (hstart : sep.intercalate parts <+: sep.intercalate as) (r : List Char) :
    r ++ sep.intercalate (s :: parts) <+: sep.intercalate ((r ++ s) :: as) := by
  have hparts : parts ≠ [] := by
    rintro rfl
    exact ht h.flatten.symm
  have has : as ≠ [] := by
    rintro rfl
    obtain ⟨b, bs, rfl⟩ := List.exists_cons_of_ne_nil hparts
    obtain ⟨c, hc, -⟩ := h.within b (.head bs)
    cases hc
  rw [intercalate_cons_of_ne_nil hparts, intercalate_cons_of_ne_nil has, List.append_assoc,
    List.prefix_append_right_inj, List.prefix_append_right_inj, List.prefix_append_right_inj]
  exact hstart

end IsCut

/-- A start of pieces put together is made of pieces, the last of them cut. -/
lemma exists_cut_of_start {as : List (List Char)} (h : q <+: as.flatten) :
    ∃ parts, IsCut as q parts ∧ ∀ sep, List.intercalate sep parts <+: sep.intercalate as := by
  induction as generalizing q with
  | nil => exact ⟨[], ⟨by simpa [eq_comm] using h, by simp⟩, by simp⟩
  | cons a as ih =>
    rw [List.flatten_cons] at h
    rcases List.prefix_or_prefix_of_prefix h (List.prefix_append a as.flatten) with hqa | ⟨t, rfl⟩
    · exact ⟨[q], .single hqa.isInfix,
        fun sep => by simpa using hqa.trans (prefix_intercalate sep a as)⟩
    · by_cases ht : t = []
      · exact ⟨[a], by simpa [ht] using .single List.infix_rfl,
          fun sep => by simpa using prefix_intercalate sep a as⟩
      · obtain ⟨parts, hcut, hstarts⟩ := ih ((List.prefix_append_right_inj a).mp h)
        exact ⟨a :: parts, hcut.cons List.infix_rfl,
          fun sep => by simpa using hcut.prefix_cons (s := a) ht (hstarts sep) []⟩

/-- What occurs in pieces put together is made of pieces, the first and the last of them cut. -/
lemma exists_cut_of_part {as : List (List Char)} (h : q <:+: as.flatten) :
    ∃ parts, IsCut as q parts ∧ ∀ sep, List.intercalate sep parts <:+: sep.intercalate as := by
  induction as with
  | nil => exact ⟨[], ⟨by simpa [eq_comm] using h, by simp⟩, by simp⟩
  | cons a as ih =>
    have hone (hqa : q <:+: a) : ∃ parts, IsCut (a :: as) q parts ∧
        ∀ sep, List.intercalate sep parts <:+: sep.intercalate (a :: as) :=
      ⟨[q], .single hqa, fun sep => by simpa using hqa.trans (prefix_intercalate sep a as).isInfix⟩
    rw [List.flatten_cons] at h
    rcases List.infix_append_iff.mp h with hqa | hrest | ⟨s, t, rfl, ⟨r, rfl⟩, ht⟩
    · exact hone hqa
    · obtain ⟨parts, hcut, hstands⟩ := ih hrest
      exact ⟨parts, hcut.mono,
        fun sep => (hstands sep).trans (suffix_intercalate sep a as).isInfix⟩
    · -- The text begins in the first piece and goes on in the others.
      by_cases hne : t = []
      · exact hone (by simpa [hne] using (List.suffix_append r s).isInfix)
      · obtain ⟨parts, hcut, hstarts⟩ := exists_cut_of_start ht
        refine ⟨s :: parts, hcut.cons (List.suffix_append r s).isInfix, fun sep => ?_⟩
        exact (List.suffix_append r _).isInfix.trans
          (hcut.prefix_cons hne (hstarts sep) r).isInfix

/-- A pattern without borders is deleted between parts of itself, and these are left. -/
lemma Unbordered.delete_between (hb : Unbordered p) (hp : p ≠ []) {parts : List (List Char)}
    (hparts : ∀ a ∈ parts, ¬ p <:+: a) (hend : parts.flatten <:+ p) (y : List Char) :
    replaceAll p [] (p.intercalate parts ++ y) = parts.flatten ++ replaceAll p [] y := by
  induction parts with
  | nil => simp
  | cons a parts ih =>
    obtain ⟨ha, hparts⟩ := List.forall_mem_cons.mp hparts
    rw [List.flatten_cons] at hend
    cases parts with
    | nil =>
      rw [List.intercalate_singleton, Text.replaceAll_append hp, replaceAll_eq_self hp ha]
      · simp
      · intro s t hst hs ht hsa _
        exact hb.not_end hst hs ht (hsa.trans (by simpa using hend))
    | cons b bs =>
      rw [List.intercalate_cons_cons, List.append_assoc, List.append_assoc,
        hb.replaceAll_append hp, replaceAll_eq_self hp ha,
        ih hparts ((List.suffix_append a _).trans hend)]
      simp

/-- No rest of a pattern without borders starts a torn one. -/
lemma Unbordered.not_start_torn (hb : Unbordered p) (hp : p ≠ []) {parts : List (List Char)}
    (hflatten : parts.flatten = p) (hmem : p ∉ parts) {s t : List Char} (hst : p = s ++ t)
    (hs : s ≠ []) (ht : t ≠ []) (y : List Char) : ¬ t <+: p.intercalate parts ++ y := by
  intro hin
  match parts, hflatten, hmem with
  | [], hflatten, _ => exact hp hflatten.symm
  | [a], hflatten, hmem => exact hmem (by simpa using hflatten.symm)
  | a :: b :: bs, hflatten, _ =>
    have hap : a <+: p := ⟨(b :: bs).flatten, hflatten⟩
    rw [List.intercalate_cons_cons, List.append_assoc, List.append_assoc] at hin
    rcases List.prefix_or_prefix_of_prefix hin (List.prefix_append a _) with hta | ⟨r, rfl⟩
    · exact hb.not_start hst hs ht (.inl (hta.trans hap))
    · have hr := (List.prefix_append_right_inj a).mp hin
      by_cases hne : r = []
      · exact hb.not_start hst hs ht (.inl (by simpa [hne] using hap))
      · exact hb.not_start (hst.trans (List.append_assoc s a r).symm) (by simp [hs]) hne
          (List.prefix_or_prefix_of_prefix hr (List.prefix_append p _))

/-- What has been deleted once is left in a text exactly if it was torn there. -/
lemma infix_delete_iff (hb : Unbordered p) (hp : p ≠ []) :
    p <:+: replaceAll p [] cs ↔ IsTorn p cs := by
  constructor
  · intro h
    -- Deleting joins the pieces, and what occurs then is cut by them into the parts.
    obtain ⟨a, as, hcs, has, hreplace⟩ := exists_pieces hp cs
    rw [hreplace, intercalate_nil_left] at h
    obtain ⟨parts, hcut, hstands⟩ := exists_cut_of_part h
    refine ⟨parts, hcut.flatten, fun hmem => ?_, hcs ▸ hstands p⟩
    obtain ⟨b, hb, hin⟩ := hcut.within p hmem
    exact has b hb hin
  · rintro ⟨parts, hflatten, hmem, x, y, rfl⟩
    have hparts : ∀ a ∈ parts, ¬ p <:+: a := by
      intro a ha hin
      have hap : a <:+: p := hflatten ▸ List.infix_of_mem_flatten ha
      exact hmem (List.infix_antisymm hap hin ▸ ha)
    rw [List.append_assoc, replaceAll_append hp fun s t hst hs ht _ =>
        hb.not_start_torn hp hflatten hmem hst hs ht y,
      hb.delete_between hp hparts (hflatten ▸ List.suffix_rfl), hflatten]
    exact ⟨replaceAll p [] x, replaceAll p [] y, by simp⟩

/-! ### Replacing once -/

@[simp] lemma replaceFirst_nil : replaceFirst p new [] = [] := rfl

lemma replaceFirst_append_self (hp : p ≠ []) (cs : List Char) :
    replaceFirst p new (p ++ cs) = new ++ cs := by
  obtain ⟨c, r, rfl⟩ := List.exists_cons_of_ne_nil hp
  have hstart : (c :: r).isPrefixOf (c :: (r ++ cs)) = true :=
    List.isPrefixOf_iff_prefix.mpr (List.prefix_append (c :: r) cs)
  rw [List.cons_append, replaceFirst, if_pos hstart]
  simp

lemma replaceFirst_cons {c : Char} (h : ¬ p <+: c :: cs) :
    replaceFirst p new (c :: cs) = c :: replaceFirst p new cs := by
  rw [replaceFirst, if_neg (mt List.isPrefixOf_iff_prefix.mp h)]

lemma replaceFirst_eq_self (hp : p ≠ []) (h : ¬ p <:+: cs) :
    replaceFirst p new cs = cs := by
  induction cs using replace_induction hp with
  | hnil => exact replaceFirst_nil
  | hself cs ih => exact absurd (List.prefix_append p cs).isInfix h
  | hcons c cs hc ih => rw [replaceFirst_cons hc, ih fun hin => h (List.infix_cons hin)]

/-- The occurrence of a pattern is replaced that none is in front of. -/
lemma exists_replaceFirst (hp : p ≠ []) (h : p <:+: cs) :
    ∃ front back, ¬ p <:+: front ∧ cs = front ++ (p ++ back) ∧
      ∀ new, replaceFirst p new cs = front ++ (new ++ back) := by
  induction cs using replace_induction hp with
  | hnil => exact absurd (List.infix_nil.mp h) hp
  | hself cs ih =>
    exact ⟨[], cs, by simpa using hp, rfl, fun new => by rw [replaceFirst_append_self hp]; rfl⟩
  | hcons c cs hc ih =>
    obtain ⟨front, back, hfront, rfl, hreplace⟩ := ih ((List.infix_cons_iff.mp h).resolve_left hc)
    refine ⟨c :: front, back, fun hin => ?_, rfl, fun new => ?_⟩
    · rcases List.infix_cons_iff.mp hin with hin | hin
      · exact hc (hin.trans (List.prefix_append (c :: front) _))
      · exact hfront hin
    · rw [replaceFirst_cons hc, hreplace, List.cons_append]

/-! ### Texts in texts -/

/-- A text occurs in another one. -/
def Occurs (part s : String) : Prop := ∃ front back, s = front ++ part ++ back

/-- A text stands at one place of another one or at none. -/
def AtMostOnce (part s : String) : Prop :=
  ∀ front back front' back', s = front ++ part ++ back → s = front' ++ part ++ back' →
    front = front'

/-- A text stands behind `front` in another one, and nowhere before that. -/
structure IsFirst (part front s : String) : Prop where
  here : ∃ back, s = front ++ part ++ back
  not_before : ∀ front' back, s = front' ++ part ++ back → front.length ≤ front'.length

variable {part front back s : String}

lemma eq_append_iff : s = front ++ part ++ back ↔
    s.toList = front.toList ++ (part.toList ++ back.toList) := by
  simp [← String.toList_inj]

/-- A text inside itself is torn. -/
lemma isTorn_inside {s t : String} (hs : s ≠ "") (ht : t ≠ "") :
    IsTorn (s ++ t).toList (s ++ (s ++ t) ++ t).toList :=
  ⟨[s.toList, t.toList], by simp, by simp [hs, ht], [], [], by simp [List.intercalate_cons_cons]⟩

lemma occurs_iff : Occurs part s ↔ part.toList <:+: s.toList := by
  constructor
  · rintro ⟨front, back, rfl⟩
    exact ⟨front.toList, back.toList, by simp⟩
  · rintro ⟨x, y, h⟩
    exact ⟨String.ofList x, String.ofList y, by simpa [eq_append_iff] using h.symm⟩

end SourceRecovery.Text
