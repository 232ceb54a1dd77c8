import SourceRecovery.Proofs.Server.Staging

/-!
# Downloads that fail

A download gathers its bytes beside the archive and gives them its name only when all are there, so
that whatever was at the archive's path would stay until then. An archive that is downloaded again
is removed first, though: where the download stops, nothing is left of it.
-/

namespace SourceRecovery.Server

open SourceRecovery.Action SourceRecovery.Path

variable {url path : String} {w : World}

/-! ### What a download needs -/

/-- An answer can be gathered beside a file and given its name: progress can be shown at every mark,
there is no directory beside the file, and the path ends in a name of its own. -/
structure Gatherable (w : World) (path : String) (r : Response) (total : Int) : Prop where
  shown : ∀ n, IsMark r.body.length n → Showable total n
  free : w.tree.get? (destination w.directory (path ++ ".part")) ≠ some .directory
  named : name path ≠ ".."

/-- A download comes to its end: the address answers, announcing a length that is a number, and the
answer can be gathered. -/
def Obtainable (w : World) (url path : String) : Prop :=
  ∃ r total, w.response url = .ok r ∧ announcedLength r = .ok total ∧
    Gatherable w path r total

example : Obtainable { World.sample [] [] with network := [("http://h/a", ⟨[1, 2], some "2"⟩)] }
    "http://h/a" "a" := by
  refine ⟨⟨[1, 2], some "2"⟩, 2, by decide +kernel, by decide +kernel, ?_, by decide, by decide⟩
  rintro n ⟨hpos, hle, rfl | hn⟩
  · exact ⟨by decide +kernel, by decide +kernel, .inr (by decide +kernel)⟩
  · exact absurd (Nat.le_of_dvd hpos hn) (by simp [Archive.chunk] at hle ⊢; omega)

/-- Where there is nothing at the end of a path, its answer can be delivered as soon as it can be
gathered beside it. -/
lemma deliverable_iff {r : Response} {total : Int} (hplain : IsPlain path)
    (hslash : endsInSlash path = false)
    (hdirs : ∀ q ∈ (places w.directory path).dropLast, w.tree.get? q = some .directory)
    (hnone : w.tree.get? (destination w.directory path) = none) :
    Deliverable w url path r total ↔ w.response url = .ok r ∧
      announcedLength r = .ok total ∧ Gatherable w path r total := by
  have hname := name_ne_empty hplain.ne_empty hslash
  have hfront : ∀ q ∈ (places w.directory (path ++ ".part")).dropLast,
      w.tree.get? q = some .directory := by
    rw [dropLast_places_part, ← dropLast_places_eq_parent _ hname]
    exact hdirs
  have hfree : w.tree.isDirectory w.directory path = false := by
    by_contra hd
    rw [Bool.not_eq_false, FileTree.isDirectory_iff, FileTree.forall_places_iff] at hd
    cases hnone.symm.trans hd.2.2
  constructor
  · rintro ⟨hr, ht, hs, hshown⟩
    exact ⟨hr, ht, hshown, hs.beside.no_directory, hs.named⟩
  · rintro ⟨hr, ht, hshown, hd, hnamed⟩
    exact ⟨hr, ht, ⟨⟨isPlain_part hplain, hfront, by simp [endsInSlash], hd⟩,
      hplain.ne_empty, hfree, hnamed⟩, hshown⟩

/-- A download comes to its end if it is obtainable, and otherwise leaves no file at its path. -/
lemma download_cases (url : String) (hplain : IsPlain path) (hslash : endsInSlash path = false)
    (hdirs : ∀ q ∈ (places w.directory path).dropLast, w.tree.get? q = some .directory)
    (hnone : w.tree.get? (destination w.directory path) = none) :
    Obtainable w url path ∧ (∃ v, (download url path).run w = .ok () v) ∨
      ¬ Obtainable w url path ∧ ∃ e v, (download url path).run w = .error e v ∧
        v.directory = w.directory ∧ v.tree.get? (destination w.directory path) = none := by
  have hname := name_ne_empty hplain.ne_empty hslash
  have hiff : Obtainable w url path ↔ ∃ r total, Deliverable w url path r total := by
    simp only [Obtainable, deliverable_iff hplain hslash hdirs hnone]
  by_cases h : ∃ r total, Deliverable w url path r total
  · obtain ⟨r, total, hd⟩ := h
    obtain ⟨v, hv, -⟩ := download_eq_ok hd
    exact .inl ⟨hiff.mpr ⟨r, total, hd⟩, v, hv⟩
  · obtain ⟨e, v, hv, hspared⟩ := download_eq_error fun r total hd => h ⟨r, total, hd⟩
    refine .inr ⟨fun ho => h (hiff.mp ho), e, v, hv, hspared.directory, ?_⟩
    rw [hspared.frame _ (destination_part_ne _ hname).symm, hnone]

/-! ### Archives that are downloaded again -/

/-- Downloading an archive that is there keeps it, with its content, where it stops. -/
def KeepsArchive (w : World) (url path : String) : Prop :=
  ∀ f e v, w.tree.find w.directory path = .ok (.file f) →
    (ensureArchive url path).run w = .error e v →
      ∃ g, v.tree.find v.directory path = .ok (.file g) ∧ g.data = f.data

/-- The world once the operator has been asked something. -/
abbrev asked (w : World) (text : String) (console : Console) : World :=
  { w with console, answers := w.answers.tail, journal := w.journal ++ [.asked text] }

/-- An archive that is there is not asked for if the operator keeps it, and removed if not. -/
lemma run_ensureArchive {f : File} (url : String)
    (hf : w.tree.find w.directory path = .ok (.file f)) :
    ∃ text console, (ensureArchive url path).run w =
      if (w.answers.headD none).map Text.trim = some "y" then
        (do download url path; return true : Action Bool).run
          { asked w text console with tree := w.tree.erase (destination w.directory path) }
      else .ok false (asked w text console) := by
  obtain ⟨text, c, hc⟩ := Console.run_confirm (downloadQuestion path) w
  refine ⟨text, c, ?_⟩
  have hfile : w.tree.isFile w.directory path = true := FileTree.isFile_iff.mpr ⟨f, hf⟩
  have hremove : (Files.remove path).run (asked w text c) =
      .ok () { asked w text c with tree := w.tree.erase (destination w.directory path) } :=
    Files.change_eq_ok.mpr ⟨_, FileTree.remove_of_find hf, rfl⟩
  by_cases hyes : (w.answers.headD none).map Text.trim = some "y"
  · rw [decide_eq_true hyes] at hc
    rw [if_pos hyes]
    simp [ensureArchive, wantsArchive, Files.isFile, hfile, hc, hremove]
  · rw [decide_eq_false hyes] at hc
    rw [if_neg hyes]
    simp [ensureArchive, wantsArchive, Files.isFile, hfile, hc]

/-- Whether an archive can be obtained has nothing to do with the file at its path. -/
lemma obtainable_erase_iff (url text : String) (console : Console) (hname : name path ≠ "") :
    Obtainable { asked w text console with
        tree := w.tree.erase (destination w.directory path) } url path ↔
      Obtainable w url path := by
  have hget := FileTree.get?_erase_of_ne w.tree (destination_part_ne w.directory hname)
  constructor
  · rintro ⟨r, total, hr, ht, hg⟩
    exact ⟨r, total, hr, ht, hg.shown, hget ▸ hg.free, hg.named⟩
  · rintro ⟨r, total, hr, ht, hg⟩
    exact ⟨r, total, hr, ht, hg.shown, hget.symm ▸ hg.free, hg.named⟩

/-- An archive that is downloaded again is kept where the download stops only if it cannot stop:
either the operator keeps the archive, or what is downloaded can be obtained to its end. -/
theorem keepsArchive_iff : KeepsArchive w url path ↔
    (w.tree.isFile w.directory path = true →
      (w.answers.headD none).map Text.trim = some "y" → Obtainable w url path) := by
  by_cases hfile : w.tree.isFile w.directory path = true
  swap
  · refine ⟨fun _ hf => absurd hf hfile, fun _ f e v hf => ?_⟩
    exact absurd (FileTree.isFile_iff.mpr ⟨f, hf⟩) hfile
  obtain ⟨f, hf⟩ := FileTree.isFile_iff.mp hfile
  obtain ⟨text, c, hrun⟩ := run_ensureArchive url hf
  by_cases hyes : (w.answers.headD none).map Text.trim = some "y"
  swap
  · rw [if_neg hyes] at hrun
    refine ⟨fun _ _ hy => absurd hy hyes, fun _ f e v _ he => ?_⟩
    cases hrun.symm.trans he
  rw [if_pos hyes] at hrun
  obtain ⟨hplain, -, hslash, -⟩ := FileTree.find_eq_file.mp hf
  obtain ⟨hdirs', hnone⟩ := FileTree.get?_erase_of_find hf
  have hobtainable := obtainable_erase_iff (w := w) url text c
    (name_ne_empty hplain.ne_empty hslash)
  rcases download_cases (w := { asked w text c with
    tree := w.tree.erase (destination w.directory path) })
    url hplain hslash hdirs' hnone with ⟨hgot, v, hv⟩ | ⟨hgot, e, v, hv, hc, hgone⟩
  · refine ⟨fun _ _ _ => hobtainable.mp hgot, fun _ f' e' v' _ he => ?_⟩
    rw [run_bind_of_ok hv] at hrun
    cases hrun.symm.trans he
  · refine ⟨fun hkeeps => ?_, fun h => absurd (hobtainable.mpr (h hfile hyes)) hgot⟩
    rw [run_bind_of_error hv] at hrun
    obtain ⟨g, hg, -⟩ := hkeeps f e v hf hrun
    rw [hc] at hg
    cases hgone.symm.trans (FileTree.find_eq_file.mp hg).2.2.2

/-- An archive, an operator who asks for it again, and a network without an answer. -/
def unansweredSample : World :=
  World.sample [(["a.zip"], .file ⟨[1], false, 0⟩)] [some "y"]

/-- An archive that the operator asks for again is lost where its address does not answer. -/
theorem not_keepsArchive_sample : ¬ KeepsArchive unansweredSample "http://h/a.zip" "a.zip" := by
  intro h
  obtain ⟨e, v, hv⟩ := exists_of_result?_eq_none
    (show (ensureArchive "http://h/a.zip" "a.zip").result? unansweredSample = none by
      decide +kernel)
  obtain ⟨g, hg, -⟩ := h ⟨[1], false, 0⟩ e v (by decide +kernel) hv
  have hlost : ((ensureArchive "http://h/a.zip" "a.zip").after unansweredSample).tree.isFile
      ((ensureArchive "http://h/a.zip" "a.zip").after unansweredSample).directory "a.zip" =
        false := by
    decide +kernel
  rw [after_of_error hv, FileTree.isFile_iff.mpr ⟨g, hg⟩] at hlost
  cases hlost

end SourceRecovery.Server
