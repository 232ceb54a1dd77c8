import SourceRecovery.Proofs.Server.Download
import SourceRecovery.Proofs.Server.Extraction

/-!
# Getting a build again

Once an archive is downloaded and extracted, both are there: the archive is a file and what it is
extracted into is a directory, whichever of them was there before. Getting the build again then
only asks whether to keep them.
-/

namespace SourceRecovery.Server

open SourceRecovery.Action SourceRecovery.Path

variable {url path target stem : String} {done : Bool} {results : Bool × Bool} {w v : World}

/-- Download the archive of a build and extract it, as far as that is wanted; which of both was
done. -/
def acquire (url stem : String) : Action (Bool × Bool) := do
  let downloaded ← ensureArchive url (stem ++ ".zip")
  let extracted ← ensureExtracted (stem ++ ".zip") stem
  return (downloaded, extracted)

/-! ### What is there in the end -/

/-- What is not to be done was found to be there, and the operator keeps it: the files are as they
were. -/
lemma kept_of_unwanted {found : FileTree → List String → Bool} {question : String}
    {remove : Action Unit}
    (h : (do
      if ← Files.inspect found then
        if ← Console.confirm question then
          remove
          return true
        else return false
      else return true : Action Bool).run w = .ok false v) :
    found w.tree w.directory = true ∧ v.tree = w.tree ∧ v.directory = w.directory := by
  rw [run_bind_of_ok (Files.run_inspect found)] at h
  split_ifs at h with hfound
  · obtain ⟨text, c, hc⟩ := Console.run_confirm question w
    rw [run_bind_of_ok hc] at h
    split_ifs at h
    · obtain ⟨⟨⟩, u, -, hdone⟩ := bind_eq_ok.mp h
      cases hdone
    · cases h
      exact ⟨hfound, rfl, rfl⟩
  · cases h

/-- An archive that was to be there was kept or downloaded. -/
lemma ensureArchive_eq_ok (h : (ensureArchive url path).run w = .ok done v) :
    w.tree.isFile w.directory path = true ∧ v.tree = w.tree ∧ v.directory = w.directory ∨
      ∃ u, (download url path).run u = .ok () v := by
  obtain ⟨wanted, u, hwants, hrest⟩ := bind_eq_ok.mp h
  cases wanted with
  | true =>
    obtain ⟨⟨⟩, u', hdownload, hdone⟩ := bind_eq_ok.mp hrest
    cases hdone
    exact .inr ⟨u, hdownload⟩
  | false =>
    cases hrest
    exact .inl (kept_of_unwanted hwants)

/-- What was to be extracted was kept or is extracted. -/
lemma ensureExtracted_eq_ok (h : (ensureExtracted path target).run w = .ok done v) :
    w.tree.isDirectory w.directory target = true ∧ v.tree = w.tree ∧ v.directory = w.directory ∨
      ∃ u, (extract path target).run u = .ok () v := by
  obtain ⟨wanted, u, hwants, hrest⟩ := bind_eq_ok.mp h
  cases wanted with
  | true =>
    obtain ⟨⟨⟩, u', hextract, hdone⟩ := bind_eq_ok.mp hrest
    cases hdone
    exact .inr ⟨u, hextract⟩
  | false =>
    cases hrest
    exact .inl (kept_of_unwanted hwants)

/-- A download that comes to its end leaves a file. -/
lemma isFile_of_download (h : (download url path).run w = .ok () v) :
    v.tree.isFile v.directory path = true := by
  by_cases hd : ∃ r total, Deliverable w url path r total
  · obtain ⟨r, total, hd⟩ := hd
    obtain ⟨u, hu, hdelivered⟩ := download_eq_ok hd
    cases h.symm.trans hu
    obtain ⟨f, hf, -⟩ := hdelivered.content
    exact FileTree.isFile_iff.mpr ⟨f, hf⟩
  · obtain ⟨e, u, hu, -⟩ := download_eq_error fun r total hd' => hd ⟨r, total, hd'⟩
    cases h.symm.trans hu

lemma isFile_of_ensureArchive (h : (ensureArchive url path).run w = .ok done v) :
    v.tree.isFile v.directory path = true := by
  rcases ensureArchive_eq_ok h with ⟨hfile, ht, hc⟩ | ⟨u, hu⟩
  · rw [ht, hc, hfile]
  · exact isFile_of_download hu

/-- Where directories were made and an archive is beside them, the path leads to a directory. -/
lemma isDirectory_of_makeDirectories_of_isFile
    (h : (Files.makeDirectories stem true).run w = .ok () v)
    (hfile : v.tree.isFile v.directory (stem ++ ".zip") = true) :
    v.tree.isDirectory v.directory stem = true := by
  obtain ⟨f, hf⟩ := FileTree.isFile_iff.mp hfile
  obtain ⟨-, hfront, -, -⟩ := FileTree.find_eq_file.mp hf
  rw [dropLast_places_append_ending _ _ (by decide) (by decide)] at hfront
  have hstem := (Files.isOpen_of_makeDirectoriesTo (Nat.lt_succ_self _) (.inl h)).plain
  by_cases hname : name stem = ""
  · refine FileTree.isDirectory_iff.mpr ⟨hstem, ?_⟩
    rw [places_of_name_eq_empty _ hname]
    exact hfront
  by_cases hdot : name stem = "."
  · -- Nothing is made for a dot at the end, but the archive lies in the directory in front.
    refine FileTree.isDirectory_iff.mpr ⟨hstem, ?_⟩
    rw [places_eq_parent _ hname, hdot]
    intro q hq
    rcases List.mem_append.mp hq with hq | hq
    · exact hfront q hq
    · rw [List.mem_singleton.mp hq]
      exact hfront _ (destination_mem_places _ _)
  · exact Files.isDirectory_of_makeDirectories (by rwa [Files.lastStep, if_neg hname]) h

/-- An extraction that comes to its end leaves the archive and its directory. -/
lemma isDirectory_of_extract (h : (extract (stem ++ ".zip") stem).run w = .ok () v) :
    v.tree.isFile v.directory (stem ++ ".zip") = true ∧
      v.tree.isDirectory v.directory stem = true := by
  obtain ⟨⟨⟩, u, hopen, hrest⟩ := bind_eq_ok.mp h
  obtain ⟨⟨⟩, u', hunpack, hinfo⟩ := bind_eq_ok.mp hrest
  obtain ⟨c, rfl⟩ := (Console.prints_log .info _).of_ok hinfo
  -- The archive was read, and whatever was unpacked then, it is still a file.
  have hfile : u.tree.isFile u.directory (stem ++ ".zip") = true := by
    obtain ⟨data, u'', hread, -⟩ := bind_eq_ok.mp hunpack
    rw [Files.run_read] at hread
    cases hdata : u.tree.read u.directory (stem ++ ".zip") with
    | error problem => simp [hdata] at hread
    | ok content => exact FileTree.isFile_of_read hdata
  obtain ⟨c', hmake⟩ := run_openTarget (stem ++ ".zip") stem w
  rw [hopen] at hmake
  have hdir := isDirectory_of_makeDirectories_of_isFile hmake.symm hfile
  have hk := (keepsKinds_unpackInto _ _).of_ok hunpack
  exact ⟨by rw [hk.directory]; exact hk.tree.isFile hfile,
    by rw [hk.directory]; exact hk.tree.isDirectory hdir⟩

/-- Once a build is acquired, its archive is a file and what it is extracted into a directory. -/
lemma acquire_eq_ok (h : (acquire url stem).run w = .ok results v) :
    v.tree.isFile v.directory (stem ++ ".zip") = true ∧
      v.tree.isDirectory v.directory stem = true := by
  obtain ⟨downloaded, u, harchive, hrest⟩ := bind_eq_ok.mp h
  obtain ⟨extracted, u', hextracted, hdone⟩ := bind_eq_ok.mp hrest
  cases hdone
  rcases ensureExtracted_eq_ok hextracted with ⟨hdir, ht, hc⟩ | ⟨u'', hextract⟩
  · rw [ht, hc]
    exact ⟨isFile_of_ensureArchive harchive, hdir⟩
  · exact isDirectory_of_extract hextract

/-! ### The second time -/

/-- Acquiring a build again, with answers that affirm nothing, asks whether to keep the archive and
then whether to keep what is extracted, and does nothing else, whatever the network would answer. -/
theorem acquire_again (h : (acquire url stem).run w = .ok results v) {w' : World}
    (ht : w'.tree = v.tree) (hc : w'.directory = v.directory)
    (hno : ∀ answer ∈ w'.answers, answer.map Text.trim ≠ some "y") :
    ∃ first second console, (acquire url stem).run w' = .ok (false, false) { w' with
      console, answers := w'.answers.tail.tail
      journal := w'.journal ++ [.asked first, .asked second] } := by
  obtain ⟨hfile, hdir⟩ := acquire_eq_ok h
  rw [← ht, ← hc] at hfile hdir
  have hhead (answers : List (Option String))
      (hanswers : ∀ answer ∈ answers, answer.map Text.trim ≠ some "y") :
      (answers.headD none).map Text.trim ≠ some "y" := by
    cases answers with
    | nil => simp
    | cons answer answers => exact hanswers answer List.mem_cons_self
  obtain ⟨f, hf⟩ := FileTree.isFile_iff.mp hfile
  obtain ⟨first, c, harchive⟩ := run_ensureArchive url hf
  rw [if_neg (hhead _ hno)] at harchive
  have hrest := hhead _ fun answer ha => hno answer (List.mem_of_mem_tail ha)
  obtain ⟨second, c', hextracted⟩ : ∃ second console,
      (ensureExtracted (stem ++ ".zip") stem).run (asked w' first c) = .ok false
        { asked w' first c with
          console, answers := w'.answers.tail.tail
          journal := (asked w' first c).journal ++ [.asked second] } :=
    run_ensureExtracted_of_isDirectory hdir hrest
  refine ⟨first, second, c', (run_bind_of_ok harchive).trans ((run_bind_of_ok hextracted).trans ?_)⟩
  simp only [EStateM.run_pure, List.append_assoc, List.cons_append, List.nil_append]

/-- An address that answers an archive without entries. -/
def emptyArchiveSample : World :=
  { World.sample [] [] with
    network := [("http://h/a", ⟨[0x50, 0x4B, 5, 6] ++ List.replicate 18 0, none⟩)] }

/-- An archive that was downloaded and extracted is kept without a network. -/
theorem acquire_again_sample :
    ∃ v, (acquire "http://h/a" "a").run emptyArchiveSample = .ok (true, true) v ∧
      ∃ first second console, (acquire "http://h/a" "a").run { v with
          network := [], answers := [some "n"] } = .ok (false, false) { v with
        network := [], console, answers := []
        journal := v.journal ++ [.asked first, .asked second] } := by
  obtain ⟨v, hv⟩ := exists_of_result? (show
    (acquire "http://h/a" "a").result? emptyArchiveSample = some (true, true) by decide +kernel)
  have hno : ∀ answer ∈ [some "n"], answer.map Text.trim ≠ some "y" := by decide +kernel
  exact ⟨v, hv, acquire_again hv rfl rfl hno⟩

end SourceRecovery.Server
