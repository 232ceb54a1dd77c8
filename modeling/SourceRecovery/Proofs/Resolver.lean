import Mathlib.Data.List.Induction
import SourceRecovery.Resolver

/-!
# What a resolver finds

A resolver searches the absolute forms of the directories it is given, in their order; of those
that are the same, the first one counts. A name resolves where one of the files it may be in is
there, and then it is not reported.
-/

namespace SourceRecovery.Resolver

variable {r : Resolver} {t : FileTree} {cwd : List String} {name : String}

/-! ### The directories -/

lemma insert_eraseDups (ds : List String) (d : String) :
    insert ds.eraseDups d = (ds ++ [d]).eraseDups := by
  rw [List.eraseDups_append]
  by_cases h : d ∈ ds <;> simp [insert, List.removeAll, List.eraseDups_cons, h]

/-- The directories of a resolver are absolute and each is searched once. -/
lemma ofDirectories_eq (cwd ds : List String) (strict : Bool) :
    ofDirectories cwd ds strict = ⟨(ds.map (Path.absolute cwd)).eraseDups, strict⟩ := by
  induction ds using List.reverseRecOn with
  | nil => rfl
  | append_singleton ds d ih =>
    have hlast : ofDirectories cwd (ds ++ [d]) strict =
        (ofDirectories cwd ds strict).add cwd d := by
      simp [ofDirectories]
    rw [hlast, ih, add, List.map_append]
    exact congrArg (Resolver.mk · strict) (insert_eraseDups _ _)

/-! ### Names that resolve -/

/-- An ending has no slash, and is long enough to make a name of any text. -/
lemma extension_spec {e : String} (h : e ∈ extensions) : '/' ∉ e.toList ∧ 3 ≤ e.length := by
  revert e
  decide

/-- A name resolves if there is a file of it, with a known ending, in one of the directories. -/
lemma exists_resolve {d e : String} (hd : d ∈ r.directories) (he : e ∈ extensions)
    (hf : t.isFile cwd (Path.join d (name ++ e)) = true) :
    ∃ file, r.resolve t cwd name = some file ∧ t.isFile cwd file = true := by
  have hmem : Path.join d (name ++ e) ∈ r.candidates name :=
    List.mem_flatMap.mpr ⟨d, hd, List.mem_map_of_mem he⟩
  cases h : r.resolve t cwd name with
  | none => exact absurd hf (List.find?_eq_none.mp h _ hmem)
  | some file => exact ⟨file, rfl, List.find?_some h⟩

/-- A name resolves to a file of it, with a known ending, in one of the directories. -/
lemma exists_of_resolve {file : String} (h : r.resolve t cwd name = some file) :
    ∃ d ∈ r.directories, ∃ e ∈ extensions, file = Path.join d (name ++ e) ∧
      t.isFile cwd file = true := by
  obtain ⟨d, hd, hfile⟩ := List.mem_flatMap.mp (List.mem_of_find?_eq_some h)
  obtain ⟨e, he, rfl⟩ := List.mem_map.mp hfile
  exact ⟨d, hd, e, he, rfl, List.find?_some h⟩

/-! ### Names in ascending order -/

lemma eraseReps_loop (first : String) (names acc : List String) :
    List.eraseRepsBy.loop (fun a b => a == b) first names acc =
      acc.reverse ++ (first :: names).eraseReps := by
  induction names generalizing first acc with
  | nil => simp [List.eraseReps, List.eraseRepsBy, List.eraseRepsBy.loop]
  | cons next names ih =>
    simp only [List.eraseReps, List.eraseRepsBy, List.eraseRepsBy.loop]
    split
    · rw [ih first acc, ih first []]
      rfl
    · rw [ih next (first :: acc), ih next [first]]
      simp

lemma eraseReps_singleton (name : String) : [name].eraseReps = [name] := rfl

/-- Of names next to each other that are the same, one is left. -/
lemma eraseReps_cons_cons (first next : String) (names : List String) :
    (first :: next :: names).eraseReps =
      if first = next then (next :: names).eraseReps else first :: (next :: names).eraseReps := by
  simp only [List.eraseReps, List.eraseRepsBy, List.eraseRepsBy.loop]
  split_ifs with h
  · simp [h]
  · rw [beq_eq_false_iff_ne.mpr h]
    exact eraseReps_loop next names [first]

lemma mem_eraseReps {names : List String} : name ∈ names.eraseReps ↔ name ∈ names := by
  cases names with
  | nil => rfl
  | cons first names =>
    induction names generalizing first with
    | nil => rw [eraseReps_singleton]
    | cons next names ih =>
      rw [eraseReps_cons_cons]
      split_ifs with h
      · rw [ih, h]
        simp
      · rw [List.mem_cons, ih, List.mem_cons, List.mem_cons, List.mem_cons]

/-- Sorting names and leaving out repetitions keeps every name and adds none. -/
lemma mem_ascending {names : List String} : name ∈ ascending names ↔ name ∈ names := by
  rw [ascending, mem_eraseReps, List.mem_mergeSort]

/-- A name that resolves is not reported, whether as an error or not. -/
lemma notMem_of_check {names missing : List String} (hr : (r.resolve t cwd name).isSome = true)
    (h : r.check t cwd names = .ok missing ∨ r.check t cwd names = .error missing) :
    name ∉ missing := by
  have hunresolved : name ∉ r.unresolved t cwd names := by
    intro hmem
    have hnone := (List.mem_filter.mp hmem).2
    rw [Bool.and_eq_true, Option.isNone_iff_eq_none] at hnone
    simp [hnone.2] at hr
  simp only [check] at h
  split_ifs at h
  · rcases h with h | h
    · cases h
    · cases h
      exact fun hmem => hunresolved (mem_ascending.mp hmem)
  · rcases h with h | h
    · cases h
      exact hunresolved
    · cases h

end SourceRecovery.Resolver
