import Mathlib.Tactic.Common
import Mathlib.Order.Defs.Unbundled
import SourceRecovery.World

/-!
# Outcomes of actions

An action that is started in a world ends in a world, with a result or with a fault. Inversion
lemmas take a sequence of actions apart at its outcome. `Action.Keeps R` says that the worlds in
front of an action and after it are related by `R` however the action ends; a reflexive and
transitive relation is kept by a sequence if its parts keep it. `Action.Raises P` says the same of
the faults that an action can stop with.
-/

namespace SourceRecovery.Action

variable {α β : Type} {x : Action α} {f : α → Action β} {u v w : World} {e : Fault}

/-! ### Taking a sequence apart -/

lemma run_bind_of_ok {a : α} (h : x.run w = .ok a v) : (x >>= f).run w = (f a).run v := by
  simp [h]

lemma run_bind_of_error (h : x.run w = .error e v) : (x >>= f).run w = .error e v := by
  simp [h]

/-- What follows actions that go the same way goes the same way. -/
lemma run_bind_congr {y : Action α} (h : x.run w = y.run v) :
    (x >>= f).run w = (y >>= f).run v := by
  rw [EStateM.run_bind, EStateM.run_bind, h]

/-- A sequence has a result if both of its parts have one. -/
lemma bind_eq_ok {b : β} :
    (x >>= f).run w = .ok b v ↔ ∃ a u, x.run w = .ok a u ∧ (f a).run u = .ok b v := by
  rw [EStateM.run_bind]
  cases x.run w <;> simp

/-- A sequence stops in its first part or in its second one. -/
lemma bind_eq_error :
    (x >>= f).run w = .error e v ↔
      x.run w = .error e v ∨ ∃ a u, x.run w = .ok a u ∧ (f a).run u = .error e v := by
  rw [EStateM.run_bind]
  cases x.run w <;> simp

@[simp] lemma run_throw : (throw e : Action α).run w = .error e w := rfl

@[simp high] lemma run_map {g : α → β} : (g <$> x).run w = match x.run w with
    | .ok a v => .ok (g a) v
    | .error e v => .error e v := by
  simp only [Functor.map, EStateM.map, EStateM.run]
  cases x w <;> rfl

@[simp high] lemma run_tryCatch {h : Fault → Action α} : (tryCatch x h).run w = match x.run w with
    | .ok a v => .ok a v
    | .error e v => (h e).run v := by
  simp only [tryCatch, tryCatchThe, MonadExceptOf.tryCatch, EStateM.tryCatch, EStateM.run]
  cases x w <;> rfl

/-- What is done at the end is done however an action ends, and a fault of its own prevails. -/
lemma run_tryFinally {y : Action β} : (tryFinally x y).run w = match x.run w with
    | .ok a u => (match y.run u with
      | .ok _ v => .ok a v
      | .error e v => .error e v)
    | .error e u => match y.run u with
      | .ok _ v => .error e v
      | .error e' v => .error e' v := by
  simp only [tryFinally, tryFinally', Functor.map, EStateM.map, EStateM.run]
  cases x w with
  | ok a u =>
    dsimp only
    cases y u <;> rfl
  | error e u =>
    dsimp only
    cases y u <;> rfl

@[simp] lemma run_ofExcept_ok {ε : Type} (fault : ε → Fault) (a : α) :
    (ofExcept fault (.ok a)).run w = .ok a w := rfl

@[simp] lemma run_ofExcept_error {ε : Type} (fault : ε → Fault) (c : ε) :
    (ofExcept fault (.error c : Except ε α)).run w = .error (fault c) w := rfl

lemma ofExcept_eq_ok {ε : Type} {fault : ε → Fault} {r : Except ε α} {a : α} :
    (ofExcept fault r).run w = .ok a v ↔ r = .ok a ∧ v = w := by
  cases r <;> simp [eq_comm]

/-! ### What an action leaves -/

/-- The world that an action leaves, however it ends. -/
def after (x : Action α) (w : World) : World :=
  match x.run w with
  | .ok _ v => v
  | .error _ v => v

lemma after_of_ok {a : α} (h : x.run w = .ok a v) : x.after w = v := by simp [after, h]

lemma after_of_error (h : x.run w = .error e v) : x.after w = v := by simp [after, h]

/-- Actions that go the same way leave the same. -/
lemma after_congr {y : Action α} (h : x.run w = y.run v) : x.after w = y.after v := by
  rw [after, h, after]

lemma after_bind_of_ok {a : α} (h : x.run w = .ok a v) : (x >>= f).after w = (f a).after v := by
  simp only [after, run_bind_of_ok h]

/-- What is done at the end is done to the world that an action leaves, however it ends. -/
lemma after_tryFinally {y : Action β} : (tryFinally x y).after w = y.after (x.after w) := by
  simp only [after, run_tryFinally]
  cases x.run w with
  | ok a u =>
    dsimp only
    cases y.run u <;> rfl
  | error e u =>
    dsimp only
    cases y.run u <;> rfl

/-- What two actions leave in common after the same results, they leave after what gives these. -/
lemma after_bind_congr {γ δ : Type} {g : α → Action γ} {F : World → δ}
    (h : ∀ a v, F ((f a).after v) = F ((g a).after v)) (x : Action α) (w : World) :
    F ((x >>= f).after w) = F ((x >>= g).after w) := by
  cases hx : x.run w with
  | ok a v => rw [after_bind_of_ok hx, after_bind_of_ok hx, h]
  | error e v =>
    rw [after_of_error (run_bind_of_error hx), after_of_error (run_bind_of_error hx)]

lemma after_bind_pure {g : α → β} : (x >>= fun a => pure (g a)).after w = x.after w := by
  cases h : x.run w with
  | ok a v => rw [after_bind_of_ok h, after_of_ok h]; rfl
  | error e v => rw [after_of_error (run_bind_of_error h), after_of_error h]

lemma run_discard_of_ok {a : α} (h : x.run w = .ok a v) : (discard x).run w = .ok () v :=
  run_bind_of_ok h

lemma run_discard_of_error (h : x.run w = .error e v) : (discard x).run w = .error e v :=
  run_bind_of_error h

lemma after_discard (x : Action α) (w : World) : (discard x).after w = x.after w := after_bind_pure

/-- The result of an action, if it has one. -/
def result? (x : Action α) (w : World) : Option α :=
  match x.run w with
  | .ok a _ => some a
  | .error _ _ => none

lemma run_of_result? {a : α} (h : x.result? w = some a) : x.run w = .ok a (x.after w) := by
  unfold result? at h
  cases hx : x.run w with
  | ok b v =>
    simp only [hx, Option.some.injEq] at h
    rw [after_of_ok hx, h]
  | error e v => simp [hx] at h

lemma exists_of_result? {a : α} (h : x.result? w = some a) : ∃ v, x.run w = .ok a v :=
  ⟨_, run_of_result? h⟩

lemma exists_of_result?_eq_none (h : x.result? w = none) : ∃ e v, x.run w = .error e v := by
  unfold result? at h
  cases hx : x.run w with
  | ok a v => simp [hx] at h
  | error e v => exact ⟨e, v, rfl⟩

/-- An action relates every world that it is started in to the one that it leaves. -/
def Keeps (R : World → World → Prop) (x : Action α) : Prop := ∀ w, R w (x.after w)

namespace Keeps

variable {R : World → World → Prop}

lemma of_ok {a : α} (hx : Keeps R x) (h : x.run w = .ok a v) : R w v := after_of_ok h ▸ hx w

lemma of_error (hx : Keeps R x) (h : x.run w = .error e v) : R w v := after_of_error h ▸ hx w

lemma mono {S : World → World → Prop} (hx : Keeps R x) (h : ∀ w v, R w v → S w v) : Keeps S x :=
  fun w => h w _ (hx w)

variable [IsPreorder World R]

lemma pure (a : α) : Keeps R (Pure.pure a : Action α) := fun w => refl_of R w

lemma throwing (e : Fault) : Keeps R (throw e : Action α) := fun w => refl_of R w

lemma ofExcept {ε : Type} (fault : ε → Fault) (r : Except ε α) : Keeps R (ofExcept fault r) := by
  intro w
  cases r <;> exact refl_of R w

lemma bind (hx : Keeps R x) (hf : ∀ a, Keeps R (f a)) : Keeps R (x >>= f) := by
  intro w
  cases h : x.run w with
  | ok a v =>
    rw [after_bind_of_ok h]
    exact trans_of R (hx.of_ok h) (hf a v)
  | error e v =>
    rw [after_of_error (run_bind_of_error h)]
    exact hx.of_error h

/-- What follows an action is related to what that leaves. -/
lemma after_bind (hf : ∀ a, Keeps R (f a)) (x : Action α) (w : World) :
    R (x.after w) ((x >>= f).after w) := by
  cases h : x.run w with
  | ok a v =>
    rw [after_of_ok h, after_bind_of_ok h]
    exact hf a v
  | error e v =>
    rw [after_of_error h, after_of_error (run_bind_of_error h)]
    exact refl_of R v

/-- What is done about a fault is related to what the action leaves. -/
lemma after_catching {h : Fault → Action α} (hh : ∀ e, Keeps R (h e)) (x : Action α) (w : World) :
    R (x.after w) ((tryCatch x h).after w) := by
  cases hr : x.run w with
  | ok a v =>
    have hcaught : (tryCatch x h).run w = .ok a v := by rw [run_tryCatch, hr]
    rw [after_of_ok hr, after_of_ok hcaught]
    exact refl_of R v
  | error e v =>
    have hcaught : (tryCatch x h).after w = (h e).after v := by rw [after, run_tryCatch, hr, after]
    rw [after_of_error hr, hcaught]
    exact hh e v

lemma catching {h : Fault → Action α} (hx : Keeps R x) (hh : ∀ e, Keeps R (h e)) :
    Keeps R (tryCatch x h) :=
  fun w => trans_of R (hx w) (after_catching hh x w)

lemma forM {ι : Type} {g : ι → Action Unit} (hg : ∀ i, Keeps R (g i)) (is : List ι) :
    Keeps R (is.forM g) := by
  induction is with
  | nil => exact pure ()
  | cons i is ih => exact (hg i).bind fun _ => ih

end Keeps

/-! ### What an action stops with -/

/-- Every fault that an action stops with satisfies `P`. -/
def Raises (P : Fault → Prop) (x : Action α) : Prop := ∀ w e v, x.run w = .error e v → P e

namespace Raises

variable {P Q : Fault → Prop}

lemma pure (a : α) : Raises P (Pure.pure a : Action α) := by
  intro w e v h
  cases h

lemma mono (hx : Raises Q x) (h : ∀ e, Q e → P e) : Raises P x :=
  fun w e v he => h e (hx w e v he)

/-- An action that never stops raises nothing. -/
lemma of_ok (h : ∀ w, ∃ a v, x.run w = .ok a v) : Raises P x := by
  intro w e v he
  obtain ⟨a, u, hu⟩ := h w
  cases hu.symm.trans he

lemma throwing (h : P e) : Raises P (throw e : Action α) := by
  intro w e' v he
  cases he
  exact h

lemma ofExcept {ε : Type} {fault : ε → Fault} {r : Except ε α}
    (h : ∀ c, r = .error c → P (fault c)) : Raises P (ofExcept fault r) := by
  intro w e v he
  cases r with
  | ok a => cases he
  | error c =>
    cases he
    exact h c rfl

/-- What follows may rely on the result that it is given. -/
lemma bind_of_ok (hx : Raises P x) (hf : ∀ w a v, x.run w = .ok a v → Raises P (f a)) :
    Raises P (x >>= f) := by
  intro w e v he
  rcases bind_eq_error.mp he with hfirst | ⟨a, u, hfirst, hrest⟩
  · exact hx w e v hfirst
  · exact hf w a u hfirst u e v hrest

lemma bind (hx : Raises P x) (hf : ∀ a, Raises P (f a)) : Raises P (x >>= f) :=
  hx.bind_of_ok fun _ a _ _ => hf a

lemma discarding (hx : Raises P x) : Raises P (discard x) := hx.bind fun _ => .pure ()

/-- What follows may rely on the world that it is started in. -/
lemma bind_get {g : World → Action α} (h : ∀ w, Raises P (g w)) : Raises P (get >>= g) :=
  bind (of_ok fun w => ⟨w, w, rfl⟩) h

lemma forM {ι : Type} {g : ι → Action Unit} {is : List ι} (hg : ∀ i ∈ is, Raises P (g i)) :
    Raises P (is.forM g) := by
  induction is with
  | nil => exact pure ()
  | cons i is ih => exact (hg i (.head _)).bind fun _ => ih fun j hj => hg j (.tail _ hj)

lemma filterMapM {ι : Type} {g : ι → Action (Option α)} (hg : ∀ i, Raises P (g i))
    (is : List ι) : Raises P (is.filterMapM g) := by
  induction is with
  | nil => exact .pure []
  | cons i is ih =>
    rw [List.filterMapM_cons]
    refine .bind (hg i) fun found => ?_
    cases found with
    | none => exact ih
    | some a => exact .bind ih fun _ => .pure _

lemma finally_ {y : Action β} (hx : Raises P x) (hy : Raises P y) : Raises P (tryFinally x y) := by
  intro w e v he
  rw [run_tryFinally] at he
  cases hrx : x.run w with
  | ok a u =>
    simp only [hrx] at he
    cases hry : y.run u with
    | ok b u' => simp [hry] at he
    | error c u' =>
      simp only [hry, EStateM.Result.error.injEq] at he
      exact he.1 ▸ hy u c u' hry
  | error c u =>
    simp only [hrx] at he
    cases hry : y.run u with
    | ok b u' =>
      simp only [hry, EStateM.Result.error.injEq] at he
      exact he.1 ▸ hx w c u hrx
    | error c' u' =>
      simp only [hry, EStateM.Result.error.injEq] at he
      exact he.1 ▸ hy u c' u' hry

/-- What is caught need not satisfy `P`. -/
lemma catching {h : Fault → Action α} (hx : Raises Q x) (hh : ∀ e, Q e → Raises P (h e)) :
    Raises P (tryCatch x h) := by
  intro w e v he
  rw [run_tryCatch] at he
  cases hr : x.run w with
  | ok a u => simp [hr] at he
  | error c u =>
    simp only [hr] at he
    exact hh c (hx w c u hr) u e v he

end Raises

end SourceRecovery.Action

namespace SourceRecovery.World

/-- A world with some nodes below its working directory and an operator with some answers. -/
def sample (nodes : List (List String × Node)) (answers : List (Option String)) : World where
  tree := ⟨(["w"], .directory) :: nodes.map fun n => ("w" :: n.1, n.2)⟩
  directory := ["w"]
  programs := []
  console := ⟨"", false, false⟩
  meter := .fresh
  answers
  network := []
  addressProblem := Address.problem?
  clock := [5, 12]
  processes := []
  now := 1
  journal := []

end SourceRecovery.World
