import SourceRecovery.Proofs.Console
import SourceRecovery.Proofs.Files.Directories
import SourceRecovery.Server.Archive

/-!
# Extractions that fail

An extraction makes its directory first and takes nothing back: directories stay directories and
files stay files, wherever it stops. Whether the directory is there tells the next run only that an
extraction was begun, not that it came to its end.
-/

namespace SourceRecovery.Server

open SourceRecovery.Action SourceRecovery.Path

variable {path target : String} {w v : World} {e : Fault}

/-! ### Nothing is taken back -/

lemma keepsKinds_makeDirectories (p : String) (existing : Bool) :
    Keeps World.KeepsKinds (Files.makeDirectories p existing) :=
  (Files.growsAlong_makeDirectoriesTo _ _ _).mono fun _ _ h => h.keepsKinds

lemma keepsKinds_makeAbove (p : String) : Keeps World.KeepsKinds (makeAbove p) := by
  refine (Files.keeps_inspect _).bind fun missing => ?_
  split
  · exact keepsKinds_makeDirectories _ _
  · exact .pure ()

lemma keepsKinds_writeMember (c : Archive.Contents) (p : String) (m : Archive.Entry) :
    Keeps World.KeepsKinds (writeMember c p m) := by
  refine .bind (.ofExcept _ _) fun packed => ?_
  refine (Files.keepsKinds_write _ _).bind fun _ => (Files.keepsKinds_append _ _).bind fun _ => ?_
  split
  · exact .throwing _
  · exact .pure ()

lemma keepsKinds_extractMember (c : Archive.Contents) (target : String) (m : Archive.Entry) :
    Keeps World.KeepsKinds (extractMember c target m) := by
  refine (keepsKinds_makeAbove _).bind fun _ => ?_
  split
  · refine (Files.keeps_inspect _).bind fun found => ?_
    split
    · exact .pure ()
    · exact (Files.growsAlong_makeDirectory _).mono fun _ _ h => h.keepsKinds
  · exact keepsKinds_writeMember _ _ _

lemma keepsKinds_unpackInto (path target : String) :
    Keeps World.KeepsKinds (unpackInto path target) := by
  refine (Files.keeps_read _).bind fun data => .bind (.ofExcept _ _) fun contents => ?_
  exact .forM (fun m => keepsKinds_extractMember contents target m) _

/-! ### Where an extraction stops -/

/-- Without a directory there is nothing to ask about. -/
lemma run_ensureExtracted_of_missing (hnew : w.tree.isDirectory w.directory target = false) :
    (ensureExtracted path target).run w = (do extract path target; return true).run w := by
  simp [ensureExtracted, wantsExtraction, Files.isDirectory, hnew]

/-- An extraction stops while its directory is made, or after that. -/
lemma extract_eq_error (h : (extract path target).run w = .error e v) :
    (openTarget path target).run w = .error e v ∨
      ∃ u, (openTarget path target).run w = .ok () u ∧
        (unpackInto path target).run u = .error e v := by
  rcases bind_eq_error.mp h with hopen | ⟨⟨⟩, u, hopen, hrest⟩
  · exact .inl hopen
  · rcases bind_eq_error.mp hrest with hunpack | ⟨⟨⟩, u', -, hinfo⟩
    · exact .inr ⟨u, hopen, hunpack⟩
    · obtain ⟨c, hc⟩ := Console.prints_log .info s!"Extracted to {target}" u'
      cases hinfo.symm.trans hc

/-- Announcing an archive changes nothing of how its directory is made. -/
lemma run_openTarget (path target : String) (w : World) :
    ∃ console, (openTarget path target).run w =
      (Files.makeDirectories target true).run { w with console } := by
  obtain ⟨c, hc⟩ := Console.prints_log .step s!"Extracting {path}" w
  exact ⟨c, run_bind_of_ok hc⟩

/-- An extraction that stops leaves its directory behind if and only if it could be made. -/
lemma isDirectory_iff_of_extract (h : (extract path target).run w = .error e v) :
    v.tree.isDirectory v.directory target = true ↔ w.tree.IsClear w.directory target := by
  obtain ⟨c, hc⟩ := run_openTarget path target w
  have hclear := Files.isClear_iff (w := { w with console := c }) (p := target)
  rcases extract_eq_error h with hopen | ⟨u, hopen, hunpack⟩
  · rw [hc] at hopen
    rw [Files.not_isDirectory_of_makeDirectoriesTo hopen]
    constructor
    · intro hd
      cases hd
    · intro hw
      obtain ⟨u, hu, -⟩ := hclear.mp hw
      cases hopen.symm.trans hu
  · rw [hc] at hopen
    have hk := (keepsKinds_unpackInto path target).of_error hunpack
    constructor
    · exact Files.isClear_of_keepsKinds (w := { w with console := c }) hopen hk
    · intro hw
      obtain ⟨u', hu', hd⟩ := hclear.mp hw
      cases hopen.symm.trans hu'
      rw [hk.directory]
      exact hk.tree.isDirectory hd

/-- An archive whose directory is there is not extracted unless the operator asks for it. -/
lemma run_ensureExtracted_of_isDirectory (hd : w.tree.isDirectory w.directory target = true)
    (hno : (w.answers.headD none).map Text.trim ≠ some "y") :
    ∃ text console, (ensureExtracted path target).run w = .ok false { w with
      console, answers := w.answers.tail, journal := w.journal ++ [.asked text] } := by
  obtain ⟨text, c, hc⟩ := Console.run_confirm (extractQuestion target) w
  refine ⟨text, c, ?_⟩
  rw [decide_eq_false hno] at hc
  simp [ensureExtracted, wantsExtraction, Files.isDirectory, hd, hc]

/-- An extraction that stops leaves its directory behind if and only if no file stood in the way of
it. A later run is then asked whether to keep what is there as extracted, and does so unless told
otherwise; only without the directory is the archive extracted again. -/
theorem failed_extraction_leaves_directory_iff
    (hnew : w.tree.isDirectory w.directory target = false)
    (h : (ensureExtracted path target).run w = .error e v) :
    (v.tree.isDirectory v.directory target = true ↔ w.tree.IsClear w.directory target) ∧
      ∀ w', w'.tree = v.tree → w'.directory = v.directory →
        (v.tree.isDirectory v.directory target = true →
          (w'.answers.headD none).map Text.trim ≠ some "y" →
            ∃ text console, (ensureExtracted path target).run w' = .ok false { w' with
              console, answers := w'.answers.tail, journal := w'.journal ++ [.asked text] }) ∧
        (v.tree.isDirectory v.directory target = false →
          (ensureExtracted path target).run w' = (do extract path target; return true).run w') := by
  refine ⟨?_, fun w' ht hc => ⟨fun hd hno => ?_, fun hd => ?_⟩⟩
  · rw [run_ensureExtracted_of_missing hnew] at h
    rcases bind_eq_error.mp h with hextract | ⟨⟨⟩, u, -, hdone⟩
    · exact isDirectory_iff_of_extract hextract
    · cases hdone
  · exact run_ensureExtracted_of_isDirectory (by rw [ht, hc, hd]) hno
  · exact run_ensureExtracted_of_missing (by rw [ht, hc, hd])

/-- Where the archive is missing, its directory is left behind all the same. -/
theorem failed_extraction_sample : ∃ e v,
    (ensureExtracted "a.zip" "a").run (World.sample [] []) = .error e v ∧
      v.tree.isDirectory v.directory "a" = true := by
  obtain ⟨e, v, h⟩ := exists_of_result?_eq_none
    (show (ensureExtracted "a.zip" "a").result? (World.sample [] []) = none by decide +kernel)
  have hclear : (World.sample [] []).tree.IsClear ["w"] "a" := by
    have hplaces : places ["w"] "a" = [["w"], ["w", "a"]] := by decide +kernel
    refine ⟨⟨by decide, by decide, by decide⟩, rfl, fun q hq f hf => ?_⟩
    simp only [hplaces, List.mem_cons, List.not_mem_nil, or_false] at hq
    rcases hq with rfl | rfl <;> cases hf
  exact ⟨e, v, h, (failed_extraction_leaves_directory_iff (by decide +kernel) h).1.mpr hclear⟩

/-- A missing archive is an extraction that stops after its directory is made. -/
theorem missing_archive_leaves_directory :
    (World.sample [] []).tree.isDirectory ["w"] "a" = false ∧
      (ensureExtracted "a.zip" "a").result? (World.sample [] []) = none ∧
      ((ensureExtracted "a.zip" "a").after (World.sample [] [])).tree.isDirectory ["w"] "a" =
        true := by
  decide +kernel

end SourceRecovery.Server
