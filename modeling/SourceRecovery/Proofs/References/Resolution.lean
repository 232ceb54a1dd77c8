import SourceRecovery.Decompiler.Basic
import SourceRecovery.Proofs.Files.Absolute
import SourceRecovery.Proofs.References
import SourceRecovery.Proofs.Resolver

/-!
# Embedded libraries that resolve

Embedded libraries are written out so that references to them resolve. A resolver that searches
their directory finds a library by the name that it declares if it was written with one of the
endings that resolvers know, which not all platforms keep to.
-/

namespace SourceRecovery.References

open SourceRecovery.Action SourceRecovery.Path

variable {reader : ImageReader} {i : Identity} {platform : Platform}
  {directory suffix name : String} {w v : World}

/-- A resolver finds what was written out: whatever else is embedded or searched, the name that a
library with some ending declares, if it has no slash, resolves to a file and is never reported. -/
def Resolves (platform : Platform) (suffix name : String) : Prop :=
  ∀ reader image i directory more tolerant w count v data view,
    Identity.classify reader image = .ok i → i.platform = platform →
    w.tree.IsPlaced w.directory → (extract reader i directory).run w = .ok count v →
    (suffix, data) ∈ libraries i.platform i.view.resources → reader data = .ok view →
    view.moduleName = name → '/' ∉ name.toList →
    (∃ file, (Decompiler.resolverFor v.directory directory more tolerant).resolve v.tree v.directory
        name = some file ∧ v.tree.isFile v.directory file = true) ∧
      ∀ names missing,
        (Decompiler.resolverFor v.directory directory more tolerant).check v.tree v.directory
            names = .ok missing ∨
          (Decompiler.resolverFor v.directory directory more tolerant).check v.tree v.directory
            names = .error missing →
        name ∉ missing

/-! ### What is written out is there -/

/-- Every library is a file in the directory in the end, under the name that it declares. -/
lemma isFile_of_extract {count : ℕ} {lib : String × Bytes} {view : ImageView}
    (h : (extract reader i directory).run w = .ok count v)
    (hlib : lib ∈ libraries i.platform i.view.resources) (hview : reader lib.2 = .ok view) :
    w.KeepsKinds v ∧ v.tree.IsOpen v.directory directory ∧
      v.tree.isFile v.directory (join directory (view.moduleName ++ lib.1)) = true := by
  obtain ⟨entries, u, hentries, -, hmake, hwrite⟩ := extract_eq_ok_iff.mp h
  obtain ⟨hkeeps, hfiles⟩ := isFile_of_forM hwrite
  have hopen := Files.isOpen_of_makeDirectoriesTo (Nat.lt_succ_self _) (.inl hmake)
  obtain ⟨e, he, hkey⟩ := List.mem_map.mp
    ((mem_keys_collect hentries _).mpr ⟨lib, hlib, view, hview, rfl⟩)
  refine ⟨trans_of _ ((Files.growsAlong_makeDirectoriesTo _ _ _).of_ok hmake).keepsKinds hkeeps,
    ?_, ?_⟩
  · rw [hkeeps.directory]
    exact hkeeps.tree.isOpen hopen
  · rw [← hkey]
    exact hfiles e ((perm_inOrder entries).mem_iff.mpr he)

/-- A library that declares a name without a slash is a file in the absolute form of the
directory, which is one that the resolver searches. -/
lemma isFile_absolute (hw : v.tree.IsPlaced v.directory)
    (hopen : v.tree.IsOpen v.directory directory) (hname : IsName (name ++ suffix))
    (hf : v.tree.isFile v.directory (join directory (name ++ suffix)) = true) :
    v.tree.isFile v.directory (join (absolute v.directory directory) (name ++ suffix)) = true := by
  obtain ⟨f, hf⟩ := FileTree.isFile_iff.mp hf
  obtain ⟨hplain, hdirs, -, hget⟩ := FileTree.find_eq_file.mp hf
  rw [places_join hname, List.dropLast_concat] at hdirs
  rw [destination_join hname] at hget
  have hdir := FileTree.isDirectory_iff.mpr ⟨hopen.plain, hdirs⟩
  refine FileTree.isFile_join (f := f) (FileTree.isDirectory_absolute hw hdir v.directory) hname
    (hplain.of_subset (subset_join _ _) hname.ne_empty) ?_
  rw [destination_absolute (fun c hc => (hw.names c hc).1), hget]

/-! ### Endings that resolvers know -/

/-- A library is found if its ending is one that resolvers know. -/
lemma resolves_of_mem (h : suffix ∈ Resolver.extensions) : Resolves platform suffix name := by
  rintro reader image i directory more tolerant w _ v data view _ _ hw hrun hlib hview rfl hslash
  obtain ⟨hkeeps, hopen, hfile⟩ := isFile_of_extract hrun hlib hview
  obtain ⟨hs, hlen⟩ := suffix_spec (suffix_mem_of_mem_libraries hlib)
  have hplaced : v.tree.IsPlaced v.directory := hkeeps.directory ▸ hkeeps.tree.isPlaced hw
  have hsearched : absolute v.directory directory ∈
      (Decompiler.resolverFor v.directory directory more tolerant).directories := by
    rw [Decompiler.resolverFor, Resolver.ofDirectories_eq, List.mem_eraseDups]
    simp
  have hresolve := Resolver.exists_resolve hsearched h
    (isFile_absolute hplaced hopen (isName_append hslash hs hlen) hfile)
  refine ⟨hresolve, fun names missing => Resolver.notMem_of_check ?_⟩
  obtain ⟨file, hfile, -⟩ := hresolve
  rw [hfile]
  rfl

/-- No library is written out under a name that the system cannot be given. -/
lemma resolves_of_not_isPlain (h : ¬IsPlain (name ++ suffix)) : Resolves platform suffix name := by
  rintro reader image i directory _ _ w _ v data view _ _ _ hrun hlib hview rfl hslash
  obtain ⟨-, -, hfile⟩ := isFile_of_extract hrun hlib hview
  obtain ⟨f, hf⟩ := FileTree.isFile_iff.mp hfile
  obtain ⟨hs, hlen⟩ := suffix_spec (suffix_mem_of_mem_libraries hlib)
  have hplain := (FileTree.find_eq_file.mp hf).1.of_subset (subset_join _ _)
    (isName_append hslash hs hlen).ne_empty
  exact absurd hplain h

/-- In a world with no other files, a library is not found if its ending is none that resolvers
know. -/
lemma not_resolves (hs : suffix ∈ suffixes platform) (hslash : '/' ∉ name.toList)
    (hplain : IsPlain (name ++ suffix)) (hunknown : suffix ∉ Resolver.extensions) :
    ¬Resolves platform suffix name := by
  intro hresolves
  have hname : IsName (name ++ suffix) := isName_append hslash (suffix_spec hs).1 (suffix_spec hs).2
  have hrefs : IsPlain "refs" := ⟨by decide, by decide, by decide⟩
  have hplaces : places [] "refs" = [[], ["refs"]] := by decide +kernel
  have hdest : destination [] (join "refs" (name ++ suffix)) = ["refs"] ++ [name ++ suffix] :=
    destination_join hname
  obtain ⟨f, v, hrun, hdirectory, htree⟩ := exists_extract_host hs hrefs (hrefs.join hplain) (by
    rw [hdest, places_join hname, List.dropLast_concat, hplaces]
    simp)
  have hplaced : (worldFor [] "refs" (name ++ suffix)).tree.IsPlaced [] :=
    ⟨by simp, fun r hr => by rw [List.prefix_nil.mp hr]; rfl⟩
  obtain ⟨⟨file, hresolve, -⟩, -⟩ := hresolves _ _ _ "refs" [] true _ _ v [1] _
    (classify_host platform name suffix) rfl hplaced hrun
    (by rw [libraries_host hs]; exact .head _) rfl rfl hslash
  obtain ⟨d, -, e, he, rfl, hfile⟩ := Resolver.exists_of_resolve hresolve
  obtain ⟨f', hfind⟩ := FileTree.isFile_iff.mp hfile
  have hget := (FileTree.find_eq_file.mp hfind).2.2.2
  rw [hdirectory, htree] at hget
  obtain ⟨heslash, helen⟩ := Resolver.extension_spec he
  rw [destination_join (isName_append hslash heslash helen), hdest] at hget
  -- The library is the only file there is, so that it was found with its own ending.
  obtain rfl : e = suffix := by simpa using (List.append_inj' (eq_of_get?_put hget) rfl).2
  exact hunknown he

/-- The name that a library with some ending declares always resolves once it is written out, if and
only if resolvers know the ending, or no library of the platform is written out under such a name:
the platform does not have the ending, the name has a slash, or the system cannot be given it. -/
theorem resolves_iff (platform : Platform) (suffix name : String) :
    Resolves platform suffix name ↔ (suffix ∈ suffixes platform → '/' ∉ name.toList →
      IsPlain (name ++ suffix) → suffix ∈ Resolver.extensions) := by
  constructor
  · intro hresolves hs hslash hplain
    by_contra hunknown
    exact not_resolves hs hslash hplain hunknown hresolves
  · intro h
    by_cases hs : suffix ∈ suffixes platform
    swap
    · intro _ _ _ _ _ _ _ _ _ _ _ _ hi _ _ hlib
      exact absurd (hi ▸ suffix_mem_of_mem_libraries hlib) hs
    by_cases hslash : '/' ∈ name.toList
    · intro _ _ _ _ _ _ _ _ _ _ _ _ _ _ _ _ _ _ hnot
      exact absurd hslash hnot
    by_cases hplain : IsPlain (name ++ suffix)
    · exact resolves_of_mem (h hs hslash hplain)
    · exact resolves_of_not_isPlain hplain

/-- What is left once a library with an ending of Linux is written out that declares a name. -/
def extractedSample : World :=
  (extract (hostReader .linux "RealX" ".so") (hostIdentity .linux ".so") "refs").after
    (World.sample [] [])

/-- A library of an image for Linux is written out with an ending that no resolver knows, and
reported under the name that it declares. -/
theorem not_resolved_sample :
    Identity.classify (hostReader .linux "RealX" ".so") [] = .ok (hostIdentity .linux ".so") ∧
      (extract (hostReader .linux "RealX" ".so") (hostIdentity .linux ".so") "refs").result?
        (World.sample [] []) = some 1 ∧
      (Decompiler.resolverFor ["w"] "refs" [] false).check extractedSample.tree
        ["w"] ["RealX"] = .error ["RealX"] := by
  decide +kernel

end SourceRecovery.References
