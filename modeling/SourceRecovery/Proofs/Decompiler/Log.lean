import SourceRecovery.Decompiler.External
import SourceRecovery.Proofs.Files.Operations
import SourceRecovery.Proofs.Text.Line
import SourceRecovery.Proofs.Text.Tail
import SourceRecovery.Proofs.Text.Utf8

/-!
# The end of a log

A log is read leniently, its newlines are unified, and its last lines are given. A log that the
system refuses to open has none. Asking for no lines gives the whole log instead, and a path that
the system cannot be given stops the reading.
-/

namespace SourceRecovery.External

open SourceRecovery.Action SourceRecovery.Path

variable {p : String} {log : Bytes} {problem : FileProblem} {w : World} {count : ℕ}

/-- What is given as the end of a log. -/
def logEnd (log : Bytes) (count : Int) : String :=
  String.ofList (Text.tail count (Text.unifyNewlineChars (Text.readableChars log)))

lemma run_readLogTail_of_ok (h : w.tree.read w.directory p = .ok log) (count : Int) :
    (readLogTail p count).run w = .ok (logEnd log count) w := by
  simp only [readLogTail, EStateM.run_bind, run_tryCatch, Files.run_read, h]
  rfl

lemma run_readLogTail_of_error (h : w.tree.read w.directory p = .error problem) (count : Int) :
    (readLogTail p count).run w =
      if problem.isSystem = true then .ok "" w else .error (.file problem p none) w := by
  simp only [readLogTail, EStateM.run_bind, run_tryCatch, Files.run_read, h]
  split_ifs <;> rfl

/-- The end of the log at a path is told: its last lines, as many as are asked for, where it can be
opened, and else none. -/
structure TellsTail (w : World) (p : String) (count : ℕ) : Prop where
  opened : ∀ log, w.tree.read w.directory p = .ok log → ∃ cs result, Text.Reads log cs ∧
    Text.IsTail count (Text.withLineFeeds (String.ofList cs)).toList result.toList ∧
    (readLogTail p count).run w = .ok result w
  refused : ∀ problem, w.tree.read w.directory p = .error problem →
    (readLogTail p count).run w = .ok "" w

/-- The end of a log is told where it can be opened, unless none of the lines of a log that has some
are asked for. -/
lemma exists_tail_iff (h : w.tree.read w.directory p = .ok log) :
    (∃ cs result, Text.Reads log cs ∧
      Text.IsTail count (Text.withLineFeeds (String.ofList cs)).toList result.toList ∧
      (readLogTail p count).run w = .ok result w) ↔ (count = 0 → Text.Reads log []) := by
  have hchars : (Text.withLineFeeds (String.ofList (Text.readableChars log))).toList =
      Text.unifyNewlineChars (Text.readableChars log) := by
    rw [← Text.unifyNewlines_eq, Text.unifyNewlines, String.toList_ofList, String.toList_ofList]
  have htail : Text.IsTail count (Text.unifyNewlineChars (Text.readableChars log))
      (logEnd log count).toList ↔ (count = 0 → Text.Reads log []) := by
    rw [logEnd, String.toList_ofList, Text.isTail_tail_iff, Text.unifyNewlineChars_eq_nil_iff,
      Text.reads_iff, eq_comm (a := [])]
  constructor
  · rintro ⟨cs, result, hcs, hresult, hrun⟩
    obtain rfl := Text.reads_iff.mp hcs
    rw [run_readLogTail_of_ok h] at hrun
    cases hrun
    exact htail.mp (hchars ▸ hresult)
  · intro hzero
    exact ⟨_, _, Text.reads_iff.mpr rfl, hchars ▸ htail.mpr hzero, run_readLogTail_of_ok h _⟩

/-- The end of the log at a path is told if and only if the system can be given the path, and no
lines are asked for only of a log without any readable character. -/
theorem tellsTail_iff : TellsTail w p count ↔ IsAdmissible p ∧
    (count = 0 → ∀ log, w.tree.read w.directory p = .ok log → Text.Reads log []) := by
  constructor
  · intro h
    refine ⟨?_, fun hzero log hlog => (exists_tail_iff hlog).mp (h.opened log hlog) hzero⟩
    cases hr : w.tree.read w.directory p with
    | ok log => exact (FileTree.read_eq_ok hr).1.isAdmissible
    | error problem =>
      rw [← FileTree.isSystem_of_read_iff hr]
      by_contra hsystem
      have hrun := h.refused problem hr
      rw [run_readLogTail_of_error hr, if_neg hsystem] at hrun
      cases hrun
  · rintro ⟨hp, hzero⟩
    refine ⟨fun log hlog => (exists_tail_iff hlog).mpr fun hc => hzero hc log hlog, ?_⟩
    intro problem hr
    rw [run_readLogTail_of_error hr, if_pos ((FileTree.isSystem_of_read_iff hr).mpr hp)]

/-- Asking for none of the two lines of a log gives both. -/
theorem not_tellsTail_sample :
    ¬ TellsTail (World.sample [(["log"], .file ⟨[0x61, 0x0a, 0x62], false, 1⟩)] []) "log" 0 := by
  intro h
  have hreads : Text.Reads [0x61, 0x0a, 0x62] [] := (exists_tail_iff rfl).mp (h.opened _ rfl) rfl
  have hlog : ([0x61, 0x0a, 0x62] : Bytes) = Text.encodeChar 'a' ++ [0x0a, 0x62] := by
    rw [Text.encodeChar_eq]
    rfl
  rw [hlog] at hreads
  obtain ⟨cs, -, hcs⟩ := Text.reads_encodeChar_append_iff.mp hreads
  cases hcs

end SourceRecovery.External
