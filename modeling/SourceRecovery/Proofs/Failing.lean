import Mathlib.Tactic.Common

/-!
# Results that fail

A result may fail in different ways, which are told apart by a predicate on errors. A sequence fails
in a way if one of its parts is the first to do so; a traversal fails in a way if some element does
and all in front of it have results.
-/

namespace SourceRecovery

variable {ε α β : Type} {P : ε → Prop}

/-- A result is an error that satisfies `P`. -/
def FailsWith (P : ε → Prop) (r : Except ε α) : Prop := ∃ e, r = .error e ∧ P e

@[simp] lemma not_failsWith_ok (a : α) : ¬ FailsWith P (.ok a : Except ε α) := nofun

@[simp] lemma not_failsWith_pure (a : α) : ¬ FailsWith P (pure a : Except ε α) := nofun

@[simp] lemma failsWith_error {e : ε} : FailsWith P (.error e : Except ε α) ↔ P e := by
  simp [FailsWith]

@[simp] lemma failsWith_throw {e : ε} : FailsWith P (throw e : Except ε α) ↔ P e :=
  failsWith_error

lemma failsWith_bind {r : Except ε α} {f : α → Except ε β} :
    FailsWith P (r >>= f) ↔ FailsWith P r ∨ ∃ a, r = .ok a ∧ FailsWith P (f a) := by
  cases r <;> simp [bind, Except.bind]

/-- What only uses a result does not fail itself. -/
lemma failsWith_bind_pure {r : Except ε α} {f : α → β} :
    FailsWith P (r >>= fun a => pure (f a)) ↔ FailsWith P r := by
  rw [failsWith_bind]
  simp

lemma failsWith_map {r : Except ε α} {f : α → β} : FailsWith P (f <$> r) ↔ FailsWith P r := by
  cases r <;> simp

lemma exists_of_map_eq_ok {r : Except ε α} {f : α → β} {b : β} (h : f <$> r = .ok b) :
    ∃ a, r = .ok a ∧ f a = b := by
  cases r with
  | error e => cases h
  | ok a =>
    cases h
    exact ⟨a, rfl, rfl⟩

/-- A traversal fails at the first element that has no result. -/
lemma failsWith_mapM {f : α → Except ε β} {as : List α} :
    FailsWith P (as.mapM f) ↔
      ∃ front a back, as = front ++ a :: back ∧ (∀ x ∈ front, ∃ b, f x = .ok b) ∧
        FailsWith P (f a) := by
  induction as with
  | nil => simp
  | cons a as ih =>
    rw [List.mapM_cons, failsWith_bind]
    simp only [failsWith_bind_pure, ih]
    constructor
    · rintro (h | ⟨b, hb, front, c, back, rfl, hfront, hc⟩)
      · exact ⟨[], a, as, rfl, nofun, h⟩
      · exact ⟨a :: front, c, back, rfl, List.forall_mem_cons.mpr ⟨⟨b, hb⟩, hfront⟩, hc⟩
    · rintro ⟨_ | ⟨x, front⟩, c, back, heq, hfront, hc⟩
      · obtain ⟨rfl, rfl⟩ := List.cons.inj heq
        exact .inl hc
      · obtain ⟨rfl, rfl⟩ := List.cons.inj heq
        obtain ⟨⟨b, hb⟩, hfront⟩ := List.forall_mem_cons.mp hfront
        exact .inr ⟨b, hb, front, c, back, rfl, hfront, hc⟩

/-- A run through a list fails at the first element that there is no going on from. -/
lemma failsWith_foldlM {f : β → α → Except ε β} {b : β} {as : List α} :
    FailsWith P (as.foldlM f b) ↔
      ∃ front a back c, as = front ++ a :: back ∧ front.foldlM f b = .ok c ∧
        FailsWith P (f c a) := by
  induction as generalizing b with
  | nil => simp
  | cons a as ih =>
    rw [List.foldlM_cons, failsWith_bind]
    simp only [ih]
    constructor
    · rintro (h | ⟨d, hd, front, x, back, c, rfl, hc, hx⟩)
      · exact ⟨[], a, as, b, rfl, rfl, h⟩
      · exact ⟨a :: front, x, back, c, rfl, by rw [List.foldlM_cons, hd]; exact hc, hx⟩
    · rintro ⟨_ | ⟨y, front⟩, x, back, c, heq, hc, hx⟩
      · obtain ⟨rfl, rfl⟩ := List.cons.inj heq
        cases hc
        exact .inl hx
      · obtain ⟨rfl, rfl⟩ := List.cons.inj heq
        rw [List.foldlM_cons] at hc
        cases hd : f b a with
        | error e => simp [hd, bind, Except.bind] at hc
        | ok d => exact .inr ⟨d, rfl, front, x, back, c, rfl, by rw [hd] at hc; exact hc, hx⟩

/-- Of two results that are both asked for, one is an error, of whatever kind. -/
lemma failsWith_true_bind {γ : Type} {r : Except ε α} {s : Except ε β} {f : α → β → γ} :
    FailsWith (fun _ => True) (r >>= fun a => s >>= fun b => pure (f a b)) ↔
      FailsWith (fun _ => True) r ∨ FailsWith (fun _ => True) s := by
  cases r with
  | error e => exact iff_of_true (failsWith_error.mpr trivial) (.inl (failsWith_error.mpr trivial))
  | ok a => exact failsWith_bind_pure.trans (or_iff_right (not_failsWith_ok a)).symm

end SourceRecovery
