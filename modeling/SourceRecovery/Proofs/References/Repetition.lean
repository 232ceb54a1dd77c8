import Mathlib.Data.List.Nodup
import SourceRecovery.Proofs.References.Confinement

/-!
# Writing out embedded libraries again

Where the names that libraries declare have no slash, writing them out leaves one file for each
entry in the directory and touches nothing else. Doing so once more finds all that it writes, so
that no file gets other bytes: only the moment of the last change may be another one.

There is one way in which the second time fails. A path that ends in a dot after a file is taken for
a directory as long as something in front of it has to be made, and no longer once it is there.
-/

namespace SourceRecovery

open SourceRecovery.Path

namespace FileTree

variable {ps qs : List (List String)} {now : Int} {t t' t'' : FileTree} {cwd : List String}
  {p : String} {data : Bytes}

/-- Between two trees, files at some places may have been written again with the bytes that they
had. -/
def RewritesAt (ps : List (List String)) (now : Int) (t t' : FileTree) : Prop :=
  ∀ q, t'.get? q = t.get? q ∨
    q ∈ ps ∧ ∃ f, t.get? q = some (.file f) ∧ t'.get? q = some (.file { f with modified := now })

namespace RewritesAt

lemma refl (ps : List (List String)) (now : Int) (t : FileTree) : RewritesAt ps now t t :=
  fun _ => .inl rfl

lemma trans (h : RewritesAt ps now t t') (h' : RewritesAt ps now t' t'') :
    RewritesAt ps now t t'' := by
  intro q
  rcases h q with heq | ⟨hq, f, hf, hf'⟩
  · rw [← heq]
    exact h' q
  · refine .inr ⟨hq, f, hf, ?_⟩
    rcases h' q with heq' | ⟨-, g, hg, hg'⟩
    · rw [heq', hf']
    · rw [hf', Option.some.injEq, Node.file.injEq] at hg
      rw [hg', ← hg]

lemma mono (h : RewritesAt ps now t t') (hs : ps ⊆ qs) : RewritesAt qs now t t' := fun q =>
  (h q).imp_right fun ⟨hq, hf⟩ => ⟨hs hq, hf⟩

/-- Directories stay where they are. -/
lemma directory (h : RewritesAt ps now t t') {q : List String} (hq : t.get? q = some .directory) :
    t'.get? q = some .directory := by
  rcases h q with heq | ⟨-, f, hf, -⟩
  · rw [heq, hq]
  · rw [hq] at hf
    cases hf

/-- What could be read can be read after it was written again. -/
lemma read (h : RewritesAt ps now t t') (hr : t.read cwd p = .ok data) :
    t'.read cwd p = .ok data := by
  obtain ⟨f, hfind, hdata⟩ := read_eq_ok_iff.mp hr
  obtain ⟨hplain, hdirs, hslash, hf⟩ := find_eq_file.mp hfind
  have hfound : ∃ f', t'.get? (destination cwd p) = some (.file f') ∧ f'.data = data := by
    rcases h (destination cwd p) with heq | ⟨-, g, hg, hg'⟩
    · exact ⟨f, heq.trans hf, hdata⟩
    · rw [hf, Option.some.injEq, Node.file.injEq] at hg
      exact ⟨_, hg', hg ▸ hdata⟩
  obtain ⟨f', hf', hdata'⟩ := hfound
  exact read_eq_ok_iff.mpr ⟨f', find_eq_file.mpr ⟨hplain, fun q hq => h.directory (hdirs q hq),
    hslash, hf'⟩, hdata'⟩

/-- Files that were written at this very moment are the same afterwards. -/
lemma get?_eq (h : RewritesAt ps now t t')
    (hnow : ∀ q ∈ ps, ∀ f, t.get? q = some (.file f) → f.modified = now) (q : List String) :
    t'.get? q = t.get? q := by
  rcases h q with heq | ⟨hq, f, hf, hf'⟩
  · exact heq
  · rw [hf', hf, ← hnow q hq f hf]

end RewritesAt

/-- Writing the bytes that a file has succeeds, and rewrites this file. -/
lemma exists_write_of_read (h : t.read cwd p = .ok data) (now : Int) :
    ∃ t', t.write cwd now p data = .ok t' ∧ RewritesAt [destination cwd p] now t t' := by
  obtain ⟨f, hfind, rfl⟩ := read_eq_ok_iff.mp h
  obtain ⟨-, -, -, hf⟩ := find_eq_file.mp hfind
  have hne : destination cwd p ≠ [] := by
    intro he
    rw [he, get?_nil] at hf
    cases hf
  refine ⟨_, write_of_find hfind now f.data, fun q => ?_⟩
  by_cases hq : q = destination cwd p
  · subst hq
    exact .inr ⟨.head _, f, hf, get?_put_self _ _ hne⟩
  · exact .inl (get?_put_of_ne _ _ hq)

end FileTree

namespace References

variable {reader : ImageReader} {i : Identity} {directory : String} {count : ℕ} {w v : World}
  {entries : List (String × Bytes)}

/-! ### Writing again -/

/-- Writing files with the bytes that they have succeeds, and rewrites these files. -/
lemma exists_forM_write_of_read
    (h : ∀ e ∈ entries, w.tree.read w.directory (join directory e.1) = .ok e.2) :
    ∃ t, (entries.forM fun (name, data) => Files.write (join directory name) data).run w =
        .ok () { w with tree := t } ∧
      w.tree.RewritesAt (entries.map fun e => destination w.directory (join directory e.1)) w.now
        t := by
  induction entries generalizing w with
  | nil => exact ⟨w.tree, rfl, .refl _ _ _⟩
  | cons e entries ih =>
    obtain ⟨t, hwrite, ht⟩ := FileTree.exists_write_of_read (h e (.head _)) w.now
    have hrun : (Files.write (join directory e.1) e.2).run w = .ok () { w with tree := t } := by
      rw [Files.run_write, hwrite]
    obtain ⟨t', hrest, ht'⟩ := ih (w := { w with tree := t }) fun e' he' =>
      ht.read (h e' (.tail _ he'))
    refine ⟨t', (Action.run_bind_of_ok hrun).trans hrest, ?_⟩
    rw [List.map_cons]
    exact (ht.mono (by simp)).trans (ht'.mono (List.subset_cons_self _ _))

/-! ### What the first time leaves -/

/-- The places of the files of some entries in a directory. -/
def placesOf (cwd : List String) (directory : String) (entries : List (String × Bytes)) :
    List (List String) :=
  entries.map fun e => destination cwd directory ++ [e.1]

/-- Between two worlds, some entries were written into a directory: each is a file of its own
there, which can be read, and nothing else has changed but for the directories that were made on
the way. -/
structure WritesOut (directory : String) (entries : List (String × Bytes)) (w v : World) :
    Prop where
  distinct : (placesOf w.directory directory entries).Nodup
  file : ∀ e ∈ entries, ∃ x,
    v.tree.get? (destination w.directory directory ++ [e.1]) = some (.file ⟨e.2, x, w.now⟩)
  readable : ∀ e ∈ entries, v.tree.read w.directory (join directory e.1) = .ok e.2
  elsewhere : ∀ q, q ∉ placesOf w.directory directory entries → v.tree.get? q = w.tree.get? q ∨
    w.tree.get? q = none ∧ v.tree.get? q = some .directory ∧ q ∈ places w.directory directory
  onlyTree : w.OnlyTree v

lemma IsCollection.nodup_placesOf {platform : Platform} (h : IsCollection platform entries)
    (cwd : List String) (directory : String) : (placesOf cwd directory entries).Nodup := by
  have hplaces : placesOf cwd directory entries =
      (entries.map Prod.fst).map fun name => destination cwd directory ++ [name] := by
    rw [placesOf, List.map_map]
    rfl
  rw [hplaces]
  exact h.nodup.map fun name name' heq => by simpa using heq

/-- Names that are declared without a slash are written without one. -/
lemma slash_notMem_of_declares (hd : Declares reader i fun name => '/' ∉ name.toList)
    (hcollect : collect reader i = .ok entries) : ∀ e ∈ entries, '/' ∉ e.1.toList := by
  intro e he
  obtain ⟨lib, hlib, view, hview, hkey⟩ :=
    (mem_keys_collect hcollect e.1).mp (List.mem_map_of_mem he)
  have hsuffix := (suffix_spec (suffix_mem_of_mem_libraries hlib)).1
  rw [hkey, String.toList_append, List.mem_append, not_or]
  exact ⟨hd lib hlib view hview, hsuffix⟩

/-- What was written out is there, and nothing else is new but directories on the way. -/
lemma writesOut_of_extract (hslash : ∀ e ∈ entries, '/' ∉ e.1.toList)
    (hcollect : collect reader i = .ok entries)
    (h : (extract reader i directory).run w = .ok count v) :
    count = entries.length ∧ v.tree.IsOpen w.directory directory ∧
      WritesOut directory entries w v := by
  obtain ⟨entries', u, hcollect', rfl, hmake, hwrite⟩ := extract_eq_ok_iff.mp h
  cases hcollect.symm.trans hcollect'
  have hc := isCollection_collect hcollect
  obtain ⟨tree, rfl, hgrows⟩ := (Files.growsAlong_makeDirectoriesTo _ _ _).of_ok hmake
  have hopen := Files.isOpen_of_makeDirectoriesTo (Nat.lt_succ_self _) (.inl hmake)
  obtain ⟨hkeeps, hfiles⟩ := isFile_of_forM hwrite
  obtain ⟨t, rfl, hholds⟩ := hc.holds hslash hwrite
  refine ⟨rfl, hkeeps.tree.isOpen hopen, hc.nodup_placesOf _ _, hholds.file, fun e he => ?_,
    fun q hq => ?_, t, rfl⟩
  · obtain ⟨f, hfind⟩ :=
      FileTree.isFile_iff.mp (hfiles e ((perm_inOrder entries).mem_iff.mpr he))
    obtain ⟨-, -, -, hf⟩ := FileTree.find_eq_file.mp hfind
    obtain ⟨x, hx⟩ := hholds.file e he
    rw [destination_join (hc.isName he (hslash e he))] at hf
    cases hx.symm.trans hf
    exact FileTree.read_eq_ok_iff.mpr ⟨_, hfind, rfl⟩
  · have hframe : t.get? q = tree.get? q :=
      hholds.frame q fun e he heq => hq (List.mem_map.mpr ⟨e, he, heq.symm⟩)
    rw [hframe]
    exact hgrows q

/-- The directory is there after the first time if anything was written into it, and wherever its
path does not end in a dot. -/
lemma isDirectory_of_extract_of_pos (hslash : ∀ e ∈ entries, '/' ∉ e.1.toList)
    (hcollect : collect reader i = .ok entries)
    (h : (extract reader i directory).run w = .ok count v)
    (hdir : 0 < count ∨ (Files.lastStep directory).2 ≠ ".") :
    v.tree.isDirectory w.directory directory = true := by
  obtain ⟨hcount, hopen, hwritten⟩ := writesOut_of_extract hslash hcollect h
  rcases hdir with hpos | hdot
  · obtain ⟨e, he⟩ := List.length_pos_iff_exists_mem.mp (hcount ▸ hpos)
    obtain ⟨-, hdirs, -⟩ := FileTree.read_eq_ok (hwritten.readable e he)
    have hname := (isCollection_collect hcollect).isName he (hslash e he)
    rw [places_join hname, List.dropLast_concat] at hdirs
    exact FileTree.isDirectory_iff.mpr ⟨hopen.plain, hdirs⟩
  · obtain ⟨entries', u, -, -, hmake, hwrite⟩ := extract_eq_ok_iff.mp h
    have hkeeps := (isFile_of_forM hwrite).1
    have hmade := hkeeps.tree.isDirectory (Files.isDirectory_of_makeDirectories hdot hmake)
    obtain ⟨tree, rfl, -⟩ := (Files.growsAlong_makeDirectoriesTo _ _ _).of_ok hmake
    exact hmade

/-! ### The second time -/

/-- Once the directory and what is written into it are there, writing out rewrites it. -/
lemma exists_extract_of_read (hcollect : collect reader i = .ok entries)
    (hdir : w.tree.isDirectory w.directory directory = true)
    (hread : ∀ e ∈ entries, w.tree.read w.directory (join directory e.1) = .ok e.2)
    (hslash : ∀ e ∈ entries, '/' ∉ e.1.toList) :
    ∃ t, (extract reader i directory).run w = .ok entries.length { w with tree := t } ∧
      w.tree.RewritesAt (placesOf w.directory directory entries) w.now t := by
  have hperm := perm_inOrder entries
  have hsorted : ∀ e ∈ inOrder entries,
      w.tree.read w.directory (join directory e.1) = .ok e.2 := fun e he =>
    hread e (hperm.mem_iff.mp he)
  obtain ⟨t, hwrite, ht⟩ := exists_forM_write_of_read hsorted
  refine ⟨t, extract_eq_ok_iff.mpr ⟨entries, w, hcollect, rfl,
    Files.run_makeDirectories_of_isDirectory hdir, hwrite⟩, ht.mono fun q hq => ?_⟩
  obtain ⟨e, he, rfl⟩ := List.mem_map.mp hq
  have hmem := hperm.mem_iff.mp he
  rw [destination_join ((isCollection_collect hcollect).isName hmem (hslash e hmem))]
  exact List.mem_map.mpr ⟨e, hmem, rfl⟩

/-- Where the libraries declare names without a slash, writing them out leaves one file for each
entry, with its bytes, and touches nothing else. If the directory is there then, which can fail
only where nothing is written and its path ends in a dot, writing them out again has the same
result: at another moment, it changes no more than when the files were written last, and at the
same moment it changes nothing. -/
theorem extract_exact (hd : Declares reader i fun name => '/' ∉ name.toList)
    (h : (extract reader i directory).run w = .ok count v) :
    ∃ entries, collect reader i = .ok entries ∧ count = entries.length ∧
      WritesOut directory entries w v ∧
      (0 < count ∨ (Files.lastStep directory).2 ≠ "." →
        v.tree.isDirectory v.directory directory = true) ∧
      (v.tree.isDirectory v.directory directory = true → ∀ later, ∃ t,
        (extract reader i directory).run { v with now := later } =
            .ok count { v with now := later, tree := t } ∧
          v.tree.RewritesAt (placesOf w.directory directory entries) later t ∧
          (later = w.now → ∀ q, t.get? q = v.tree.get? q)) := by
  obtain ⟨entries, _, hcollect, -, -, -⟩ := extract_eq_ok_iff.mp h
  have hslash := slash_notMem_of_declares hd hcollect
  obtain ⟨hcount, -, hwritten⟩ := writesOut_of_extract hslash hcollect h
  have hdirectory := isDirectory_of_extract_of_pos hslash hcollect h
  obtain ⟨tree, rfl⟩ := hwritten.onlyTree
  refine ⟨entries, hcollect, hcount, hwritten, hdirectory, fun hdir later => ?_⟩
  obtain ⟨t, hrun, ht⟩ := exists_extract_of_read (w := { w with tree := tree, now := later })
    hcollect hdir hwritten.readable hslash
  rw [← hcount] at hrun
  refine ⟨t, hrun, ht, fun hnow => ht.get?_eq fun q hq f hf => ?_⟩
  obtain ⟨e, he, rfl⟩ := List.mem_map.mp hq
  obtain ⟨x, hx⟩ := hwritten.file e he
  rw [hx, Option.some.injEq, Node.file.injEq] at hf
  rw [← hf, hnow]

/-- A library is written into a new directory, and written again without a change. -/
theorem extract_exact_sample :
    (Declares (hostReader .windows "Lib" ".dll") (hostIdentity .windows ".dll") fun name =>
      '/' ∉ name.toList) ∧
    ∃ v t, (extract (hostReader .windows "Lib" ".dll") (hostIdentity .windows ".dll")
        "refs/.").run (World.sample [] []) = .ok 1 v ∧
      (extract (hostReader .windows "Lib" ".dll") (hostIdentity .windows ".dll") "refs/.").run
        { v with now := 1 } = .ok 1 { v with now := 1, tree := t } ∧
      ∀ q, t.get? q = v.tree.get? q := by
  have hd : Declares (hostReader .windows "Lib" ".dll") (hostIdentity .windows ".dll")
      fun name => '/' ∉ name.toList := by
    intro lib hlib view hview
    rw [libraries_host (by decide), List.mem_singleton] at hlib
    subst hlib
    cases hview
    decide
  obtain ⟨v, hv⟩ := Action.exists_of_result? (a := 1) (show (extract
    (hostReader .windows "Lib" ".dll") (hostIdentity .windows ".dll") "refs/.").result?
      (World.sample [] []) = some 1 by decide +kernel)
  obtain ⟨_, -, -, -, hdirectory, hagain⟩ := extract_exact hd hv
  obtain ⟨t, hrun, -, hsame⟩ := hagain (hdirectory (.inl Nat.one_pos)) 1
  exact ⟨hd, v, t, hv, hrun, hsame rfl⟩

/-- A reader that knows every image as one with nothing embedded. -/
def bareReader : ImageReader := fun _ => .ok (hostView .windows [])

/-- The classification of an image with nothing embedded. -/
def bareIdentity : Identity := { hostIdentity .windows ".dll" with view := hostView .windows [] }

/-- With nothing to write, the path `a/../f/.` is taken for a directory as long as `a` is missing,
though `f` is a file. -/
theorem not_repeated_sample :
    Identity.classify bareReader [] = .ok bareIdentity ∧
    (Declares bareReader bareIdentity fun name => '/' ∉ name.toList) ∧
    ∃ v, (extract bareReader bareIdentity "a/../f/.").run
        (World.sample [(["f"], .file ⟨[120], false, 0⟩)] []) = .ok 0 v ∧
      ∀ count u, (extract bareReader bareIdentity "a/../f/.").run v ≠ .ok count u := by
  refine ⟨rfl, by simp [Declares, bareIdentity, libraries, hostView], ?_⟩
  obtain ⟨v, hv⟩ := Action.exists_of_result? (a := 0) (show (extract bareReader bareIdentity
    "a/../f/.").result? (World.sample [(["f"], .file ⟨[120], false, 0⟩)] []) = some 0
    by decide +kernel)
  refine ⟨v, hv, ?_⟩
  have hagain : (extract bareReader bareIdentity "a/../f/.").result?
      ((extract bareReader bareIdentity "a/../f/.").after
        (World.sample [(["f"], .file ⟨[120], false, 0⟩)] [])) = none := by decide +kernel
  obtain ⟨e, u, hu⟩ := Action.exists_of_result?_eq_none hagain
  rw [Action.after_of_ok hv] at hu
  intro count u' hu'
  cases hu.symm.trans hu'

end References

end SourceRecovery
