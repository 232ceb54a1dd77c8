import SourceRecovery.Decompiler.Basic
import SourceRecovery.Proofs.Console
import SourceRecovery.Proofs.Files.Directories

/-!
# Whether a directory for a project is used

A directory that holds a file directly is used only if the operator affirms it; the question is
asked before anything else is done. Any other directory is used without a question, and one that
is missing is made.
-/

namespace SourceRecovery.Decompiler

open SourceRecovery.Path

variable {output : String} {confirm : String → Action Bool} {t : FileTree} {cwd place : List String}
  {w v : World}

/-! ### Directories that hold a file -/

/-- A path leads to a directory that holds a file directly. -/
structure Occupied (t : FileTree) (cwd : List String) (output : String) : Prop where
  directory : t.isDirectory cwd output = true
  file : ∃ name f, t.get? (destination cwd output ++ [name]) = some (.file f)

lemma holdsFile_iff :
    holdsFile t place = true ↔ ∃ name f, t.get? (place ++ [name]) = some (.file f) := by
  simp only [holdsFile, List.any_eq_true, Prod.exists, FileTree.mem_below, Bool.and_eq_true,
    decide_eq_true_eq]
  constructor
  · rintro ⟨cs, n, ⟨-, hn⟩, hlen, hfile⟩
    obtain ⟨name, rfl⟩ := List.length_eq_one_iff.mp hlen
    cases n with
    | file f => exact ⟨name, f, hn⟩
    | directory => simp at hfile
  · rintro ⟨name, f, hf⟩
    exact ⟨[name], .file f, ⟨by simp, hf⟩, rfl, rfl⟩

/-- Another path to the same directory leads to the same files. -/
lemma Occupied.of_destination {cwd' : List String} {output' : String}
    (h : Occupied t cwd output) (hd : t.isDirectory cwd' output' = true)
    (heq : destination cwd' output' = destination cwd output) : Occupied t cwd' output' :=
  ⟨hd, heq ▸ h.file⟩

lemma exists_run_isOccupied (hd : w.tree.isDirectory w.directory output = true) :
    ∃ b, (isOccupied output).run w = .ok b w ∧
      (b = true ↔ Occupied w.tree w.directory output) := by
  obtain ⟨hplain, hdirs⟩ := FileTree.isDirectory_iff.mp hd
  obtain ⟨s, hs⟩ := FileTree.exists_locate hplain (FileTree.forall_places_iff.mp hdirs).1
  obtain ⟨-, -, hplace, -, -⟩ := FileTree.locate_eq_ok hs
  refine ⟨_, rfl, ?_⟩
  simp only [hs, holdsFile_iff, hplace]
  exact ⟨fun hf => ⟨hd, hf⟩, fun h => h.file⟩

/-! ### Asking -/

/-- What the operator is asked about a directory: one question if it holds a file directly, and
nothing else. -/
def Questions (t : FileTree) (cwd : List String) (output : String) (qs : List Event) : Prop :=
  (Occupied t cwd output ∧ ∃ text, qs = [.asked text]) ∨ (¬Occupied t cwd output ∧ qs = [])

/-- The question comes first, and its answer decides. -/
lemma run_admits_of_occupied (hc : Console.Asks confirm)
    (ho : Occupied w.tree w.directory output) :
    ∃ answer text console answers,
      (confirm (reuseQuestion w.directory output)).run w =
        .ok answer { w with console, answers, journal := w.journal ++ [.asked text] } ∧
      (admits output confirm).run w =
        .ok answer { w with console, answers, journal := w.journal ++ [.asked text] } := by
  obtain ⟨b, hb, hiff⟩ := exists_run_isOccupied ho.directory
  rw [hiff.mpr ho] at hb
  obtain ⟨answer, text, console, answers, ha⟩ := hc (reuseQuestion w.directory output) w
  refine ⟨answer, text, console, answers, ha, ?_⟩
  rw [admits, prepare, Action.run_tryCatch]
  cases answer <;> simp [Files.isDirectory, ho.directory, hb, ha]

lemma run_admits_of_isDirectory (hd : w.tree.isDirectory w.directory output = true)
    (ho : ¬Occupied w.tree w.directory output) :
    (admits output confirm).run w = .ok true w := by
  obtain ⟨b, hb, hiff⟩ := exists_run_isOccupied hd
  rw [Bool.eq_false_iff.mpr fun h => ho (hiff.mp h)] at hb
  rw [admits, prepare, Action.run_tryCatch]
  simp [Files.isDirectory, hd, hb]

/-- A directory that is missing is made without a question. -/
lemma run_admits_of_missing (hd : w.tree.isDirectory w.directory output = false) :
    (admits output confirm).run w = match (Files.makeDirectories output false).run w with
      | .ok _ v => .ok true v
      | .error e v => .error e v := by
  rw [admits, prepare, Action.run_tryCatch]
  cases hm : (Files.makeDirectories output false).run w with
  | ok a v => simp [Files.isDirectory, hd, hm]
  | error e v =>
    obtain ⟨problem, q, rfl⟩ := Files.raises_makeDirectoriesTo _ _ _ w e v hm
    simp [Files.isDirectory, hd, hm]

/-- What is found of a directory decides how it comes to be used, or not. -/
lemma admits_eq_ok {answer : Bool} (hc : Console.Asks confirm)
    (h : (admits output confirm).run w = .ok answer v) :
    ∃ tree console answers qs, Questions w.tree w.directory output qs ∧
      v = { w with tree, console, answers, journal := w.journal ++ qs } ∧
      w.tree.GrowsAlong (places w.directory output) tree ∧ (answer = true → output ≠ "") := by
  have hne (u : World) (hd : u.tree.isDirectory u.directory output = true) : output ≠ "" :=
    (FileTree.isDirectory_iff.mp hd).1.ne_empty
  by_cases ho : Occupied w.tree w.directory output
  · obtain ⟨a, text, console, answers, -, ha⟩ := run_admits_of_occupied hc ho
    cases h.symm.trans ha
    exact ⟨_, console, answers, _, .inl ⟨ho, text, rfl⟩, rfl, .refl _ _,
      fun _ => hne w ho.directory⟩
  · cases hd : w.tree.isDirectory w.directory output with
    | true =>
      cases h.symm.trans (run_admits_of_isDirectory hd ho)
      exact ⟨w.tree, w.console, w.answers, [], .inr ⟨ho, rfl⟩, by simp, .refl _ _,
        fun _ => hne _ hd⟩
    | false =>
      rw [run_admits_of_missing hd] at h
      cases hm : (Files.makeDirectories output false).run w with
      | error e u => simp [hm] at h
      | ok a u =>
        simp only [hm] at h
        cases h
        obtain ⟨tree, rfl, htree⟩ := (Files.growsAlong_makeDirectoriesTo _ _ _).of_ok hm
        refine ⟨tree, w.console, w.answers, [], .inr ⟨ho, rfl⟩, by simp, htree, fun _ he => ?_⟩
        subst he
        exact hne _ (Files.isDirectory_of_makeDirectories (by decide) hm) rfl

end SourceRecovery.Decompiler
