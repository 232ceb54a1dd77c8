import Mathlib.Data.List.Induction
import SourceRecovery.Proofs.Files.Directories
import SourceRecovery.References

/-!
# What writing out embedded libraries does

The embedded libraries are collected under distinct names, each a declared name with an ending.
Writing them out makes the directory and puts a file there for each; no other file is touched.
-/

namespace SourceRecovery.References

open SourceRecovery.Path

variable {reader : ImageReader} {i : Identity} {platform : Platform} {w v : World}

/-! ### Collecting -/

/-- The entries of a collection: no name twice, and each with an ending of its platform. -/
structure IsCollection (platform : Platform) (entries : List (String × Bytes)) : Prop where
  nodup : (entries.map Prod.fst).Nodup
  named : ∀ e ∈ entries, ∃ name, ∃ suffix ∈ suffixes platform, e.1 = name ++ suffix

/-- Replacing an entry keeps the names, and a new one is added at the end. -/
lemma keys_insert (entries : List (String × Bytes)) (name : String) (data : Bytes) :
    (insert entries name data).map Prod.fst =
      if name ∈ entries.map Prod.fst then entries.map Prod.fst
      else entries.map Prod.fst ++ [name] := by
  have hmem : entries.any (·.1 = name) = true ↔ name ∈ entries.map Prod.fst := by simp
  simp only [insert, hmem]
  split_ifs
  · rw [List.map_map]
    refine List.map_congr_left fun e _ => ?_
    by_cases he : e.1 = name <;> simp [he]
  · simp

lemma IsCollection.insert {entries : List (String × Bytes)} (h : IsCollection platform entries)
    {suffix : String} (hs : suffix ∈ suffixes platform) (name : String) (data : Bytes) :
    IsCollection platform (insert entries (name ++ suffix) data) := by
  have hkeys := keys_insert entries (name ++ suffix) data
  constructor
  · rw [hkeys]
    split_ifs with hmem
    · exact h.nodup
    · exact List.nodup_append.mpr ⟨h.nodup, by simp, by grind⟩
  · intro e he
    have hmem : e.1 ∈ (References.insert entries (name ++ suffix) data).map Prod.fst :=
      List.mem_map_of_mem he
    rw [hkeys] at hmem
    have hcases : e.1 ∈ entries.map Prod.fst ∨ e.1 = name ++ suffix := by
      split_ifs at hmem
      · exact .inl hmem
      · simpa using hmem
    rcases hcases with hold | hnew
    · obtain ⟨e', he', heq⟩ := List.mem_map.mp hold
      rw [← heq]
      exact h.named e' he'
    · exact ⟨name, suffix, hs, hnew⟩

lemma suffix_mem_of_mem_libraries {resources : List Resource} {suffix : String} {data : Bytes}
    (h : (suffix, data) ∈ libraries platform resources) : suffix ∈ suffixes platform := by
  obtain ⟨r, -, hr⟩ := List.mem_filterMap.mp h
  cases he : r.embedded with
  | false => simp [he] at hr
  | true =>
    simp only [he, if_true, Option.bind_eq_bind, Option.bind_eq_some_iff, Option.pure_def,
      Option.some.injEq, Prod.mk.injEq] at hr
    obtain ⟨_, -, s, hs, rfl, -⟩ := hr
    exact List.mem_of_find?_eq_some hs

/-- What holds of no elements and is kept by each step holds of a fold that comes to its end. -/
lemma foldlM_induction {α σ ε : Type} {f : σ → α → Except ε σ} {P : List α → σ → Prop} {s t : σ}
    {as : List α} (h : as.foldlM f s = .ok t) (hstart : P [] s)
    (hstep : ∀ front, ∀ a ∈ as, ∀ s t, f s a = .ok t → P front s → P (front ++ [a]) t) :
    P as t := by
  induction as using List.reverseRecOn generalizing t with
  | nil =>
    cases h
    exact hstart
  | append_singleton as a ih =>
    rw [List.foldlM_append] at h
    obtain ⟨s', hfold, hlast⟩ := exists_of_bind_eq_ok h
    obtain ⟨_, hlast, ⟨⟩⟩ := exists_of_bind_eq_ok hlast
    refine hstep as a (by simp) s' t hlast (ih hfold fun front b hb => ?_)
    exact hstep front b (List.mem_append_left _ hb)

/-- A collection starts empty, and each library is inserted under the name that it declares. -/
lemma collect_induction {P : List (String × Bytes) → List (String × Bytes) → Prop}
    {entries : List (String × Bytes)} (h : collect reader i = .ok entries) (hstart : P [] [])
    (hstep : ∀ front, ∀ lib ∈ libraries i.platform i.view.resources, ∀ view entries,
      reader lib.2 = .ok view → P front entries →
        P (front ++ [lib]) (insert entries (view.moduleName ++ lib.1) lib.2)) :
    P (libraries i.platform i.view.resources) entries := by
  refine foldlM_induction h hstart fun front lib hlib s t hlast hfront => ?_
  obtain ⟨view, hview, ⟨⟩⟩ := exists_of_bind_eq_ok hlast
  exact hstep front lib hlib view s hview hfront

lemma isCollection_collect {entries : List (String × Bytes)}
    (h : collect reader i = .ok entries) : IsCollection i.platform entries :=
  collect_induction (P := fun _ => IsCollection i.platform) h ⟨.nil, by simp⟩
    fun _ _ hlib _ _ _ hc => hc.insert (suffix_mem_of_mem_libraries hlib) _ _

/-- The names of a collection are those that the libraries declare, with their endings. -/
lemma mem_keys_collect {entries : List (String × Bytes)} (h : collect reader i = .ok entries)
    (key : String) : key ∈ entries.map Prod.fst ↔
      ∃ lib ∈ libraries i.platform i.view.resources, ∃ view, reader lib.2 = .ok view ∧
        key = view.moduleName ++ lib.1 := by
  refine collect_induction (P := fun libs entries => key ∈ entries.map Prod.fst ↔
    ∃ lib ∈ libs, ∃ view, reader lib.2 = .ok view ∧ key = view.moduleName ++ lib.1) h (by simp) ?_
  intro libs lib _ view entries hview hkeys
  have hinsert : key ∈ (insert entries (view.moduleName ++ lib.1) lib.2).map Prod.fst ↔
      key ∈ entries.map Prod.fst ∨ key = view.moduleName ++ lib.1 := by
    rw [keys_insert]
    split_ifs with hmem
    · exact ⟨.inl, fun hk => hk.elim id fun he => he ▸ hmem⟩
    · rw [List.mem_append, List.mem_singleton]
  rw [hinsert, hkeys]
  simp [or_and_right, exists_or, hview]

/-- An ending has no slash, and is long enough to make a name of any text. -/
lemma suffix_spec {suffix : String} (h : suffix ∈ suffixes platform) :
    '/' ∉ suffix.toList ∧ 3 ≤ suffix.length := by
  revert suffix
  cases platform <;> decide

/-- The path of a file to write ends in a name of its own. -/
lemma isName_name_join {suffix : String} (h : suffix ∈ suffixes platform)
    (directory name : String) : IsName (Path.name (join directory (name ++ suffix))) := by
  obtain ⟨hslash, hlen⟩ := suffix_spec h
  rw [join_append (isAbsolute_of_no_slash hslash), name_append hslash]
  exact isName_append (slash_notMem_name _) hslash hlen

/-- A name of a collection without a slash is a name for a file. -/
lemma IsCollection.isName {entries : List (String × Bytes)} (h : IsCollection platform entries)
    {e : String × Bytes} (he : e ∈ entries) (hslash : '/' ∉ e.1.toList) : IsName e.1 := by
  obtain ⟨name, suffix, hs, heq⟩ := h.named e he
  rw [heq] at hslash ⊢
  have hname : '/' ∉ name.toList := by
    intro hc
    exact hslash (by simp [hc])
  exact isName_append hname (suffix_spec hs).1 (suffix_spec hs).2

/-! ### Writing out -/

/-- Between two trees, files with some names are put at a place at some moment, where no
directories are, and nothing else is changed. -/
structure Holds (place : List String) (entries : List (String × Bytes)) (now : Int)
    (t t' : FileTree) : Prop where
  free : ∀ e ∈ entries, t.get? (place ++ [e.1]) ≠ some .directory
  file : ∀ e ∈ entries, ∃ x, t'.get? (place ++ [e.1]) = some (.file ⟨e.2, x, now⟩)
  frame : ∀ q, (∀ e ∈ entries, q ≠ place ++ [e.1]) → t'.get? q = t.get? q

/-- Writing files with distinct names into a directory puts them there. -/
lemma forM_write_eq_ok {directory : String} {entries : List (String × Bytes)}
    (hnodup : (entries.map Prod.fst).Nodup) (hnames : ∀ e ∈ entries, IsName e.1)
    (h : (entries.forM fun (name, data) => Files.write (join directory name) data).run w =
      .ok () v) :
    ∃ t, v = { w with tree := t } ∧
      Holds (destination w.directory directory) entries w.now w.tree t := by
  induction entries generalizing w with
  | nil =>
    cases h
    exact ⟨_, rfl, by simp, by simp, fun _ _ => rfl⟩
  | cons e entries ih =>
    obtain ⟨⟨⟩, u, hwrite, hrest⟩ := Action.bind_eq_ok.mp h
    obtain ⟨hfree, x, rfl⟩ := Files.write_eq_ok hwrite
    rw [destination_join (hnames e (.head _))] at hfree hrest
    rw [List.map_cons, List.nodup_cons] at hnodup
    have hother : ∀ e' ∈ entries, destination w.directory directory ++ [e'.1] ≠
        destination w.directory directory ++ [e.1] := by
      intro e' he' heq
      refine hnodup.1 (List.mem_map.mpr ⟨e', he', ?_⟩)
      simpa using heq
    obtain ⟨t, rfl, hrestfree, hfile, hframe⟩ :=
      ih hnodup.2 (fun e' he' => hnames e' (.tail _ he')) hrest
    refine ⟨t, rfl, fun e' he' => ?_, fun e' he' => ?_, fun q hq => ?_⟩
    · rcases List.mem_cons.mp he' with rfl | he'
      · exact hfree
      · have hrest' := hrestfree e' he'
        rwa [FileTree.get?_put_of_ne _ _ (hother e' he')] at hrest'
    · rcases List.mem_cons.mp he' with rfl | he'
      · rw [hframe _ fun e he => (hother e he).symm, FileTree.get?_put_self _ _ (by simp)]
        exact ⟨_, rfl⟩
      · exact hfile e' he'
    · rw [hframe q fun e' he' => hq e' (.tail _ he')]
      exact FileTree.get?_put_of_ne _ _ (hq e (.head _))

/-- All that is written out is files in the end. -/
lemma isFile_of_forM {directory : String} {entries : List (String × Bytes)}
    (h : (entries.forM fun (name, data) => Files.write (join directory name) data).run w =
      .ok () v) : w.KeepsKinds v ∧
        ∀ e ∈ entries, v.tree.isFile v.directory (join directory e.1) = true := by
  induction entries generalizing w with
  | nil =>
    cases h
    exact ⟨refl_of World.KeepsKinds _, by simp⟩
  | cons e entries ih =>
    obtain ⟨⟨⟩, u, hwrite, hrest⟩ := Action.bind_eq_ok.mp h
    obtain ⟨hkeeps, hfiles⟩ := ih hrest
    refine ⟨trans_of _ ((Files.keepsKinds_write _ _).of_ok hwrite) hkeeps, fun e' he' => ?_⟩
    rcases List.mem_cons.mp he' with rfl | he'
    · rw [hkeeps.directory]
      exact hkeeps.tree.isFile (Files.isFile_of_write hwrite)
    · exact hfiles e' he'

/-- Entries in the order in which they are written. -/
def inOrder (entries : List (String × Bytes)) : List (String × Bytes) :=
  entries.mergeSort fun a b => !Text.precedes b.1 a.1

lemma perm_inOrder (entries : List (String × Bytes)) : (inOrder entries).Perm entries :=
  List.mergeSort_perm _ _

lemma onlyTree_extract (reader : ImageReader) (i : Identity) (directory : String) :
    Action.Keeps World.OnlyTree (extract reader i directory) := by
  refine (Files.onlyTree_makeDirectories _ _).bind fun _ => .bind (.ofExcept _ _) fun entries => ?_
  exact .bind (.forM (fun _ => Files.onlyTree_write _ _) _) fun _ => .pure _

/-- Writing out makes the directory, collects the libraries and writes them. -/
lemma extract_eq_ok_iff {directory : String} {count : ℕ} :
    (extract reader i directory).run w = .ok count v ↔
      ∃ entries u, collect reader i = .ok entries ∧ count = entries.length ∧
        (Files.makeDirectories directory true).run w = .ok () u ∧
        ((inOrder entries).forM fun (name, data) =>
          Files.write (join directory name) data).run u = .ok () v := by
  constructor
  · intro h
    obtain ⟨⟨⟩, u, hmake, hrest⟩ := Action.bind_eq_ok.mp h
    obtain ⟨entries, u', hcollect, hrest⟩ := Action.bind_eq_ok.mp hrest
    obtain ⟨hentries, heq⟩ := Action.ofExcept_eq_ok.mp hcollect
    obtain ⟨⟨⟩, v', hwrite, hdone⟩ := Action.bind_eq_ok.mp hrest
    cases hdone
    subst heq
    exact ⟨entries, u', hentries, rfl, hmake, hwrite⟩
  · rintro ⟨entries, u, hcollect, rfl, hmake, hwrite⟩
    rw [extract, Action.run_bind_of_ok hmake, hcollect,
      Action.run_bind_of_ok (Action.run_ofExcept_ok _ _)]
    exact Action.run_bind_of_ok hwrite

/-- What was collected is put into the directory, if its names have no slash. -/
lemma IsCollection.holds {directory : String} {entries : List (String × Bytes)}
    (hc : IsCollection platform entries) (hslash : ∀ e ∈ entries, '/' ∉ e.1.toList)
    (h : ((inOrder entries).forM fun (name, data) =>
      Files.write (join directory name) data).run w = .ok () v) :
    ∃ t, v = { w with tree := t } ∧
      Holds (destination w.directory directory) entries w.now w.tree t := by
  have hperm := perm_inOrder entries
  obtain ⟨t, ht, hfree, hfile, hframe⟩ := forM_write_eq_ok
    ((hperm.map Prod.fst).nodup_iff.mpr hc.nodup)
    (fun e he => hc.isName (hperm.mem_iff.mp he) (hslash e (hperm.mem_iff.mp he))) h
  exact ⟨t, ht, fun e he => hfree e (hperm.mem_iff.mpr he),
    fun e he => hfile e (hperm.mem_iff.mpr he),
    fun q hq => hframe q fun e he => hq e (hperm.mem_iff.mp he)⟩

/-! ### An image with one library -/

/-- The type that an image of a platform starts at. -/
def launchType : Platform → String
  | .windows => "Terraria.WindowsLaunch"
  | .linux => "Terraria.LinuxLaunch"
  | .mac => "Terraria.MacLaunch"
  | .unknown => "Terraria.Launch"

/-- The view of an image of a platform with some resources. -/
def hostView (platform : Platform) (resources : List Resource) : ImageView where
  moduleName := "TerrariaServer"
  entryPoint := some (launchType platform)
  version := ⟨1, 4, 0, 5⟩
  types := [⟨releaseType, [⟨releaseField, some 230⟩]⟩]
  resources
  references := []
  typeNames := []

/-- A reader that knows the empty image as one with an embedded library, which declares a name. -/
def hostReader (platform : Platform) (name suffix : String) : ImageReader := fun data =>
  if data = [] then .ok (hostView platform [⟨"lib" ++ suffix, true, some [1]⟩])
  else .ok { hostView platform [] with moduleName := name }

/-- The classification of the image with the library. -/
def hostIdentity (platform : Platform) (suffix : String) : Identity where
  image := []
  name := "TerrariaServer"
  side := .server
  platform
  version := ⟨1, 4, 0, 5⟩
  release := 230
  view := hostView platform [⟨"lib" ++ suffix, true, some [1]⟩]

lemma classify_host (platform : Platform) (name suffix : String) :
    Identity.classify (hostReader platform name suffix) [] =
      .ok (hostIdentity platform suffix) := by
  cases platform <;> rfl

lemma libraries_host {suffix : String} (h : suffix ∈ suffixes platform) :
    libraries (hostIdentity platform suffix).platform
      (hostIdentity platform suffix).view.resources = [(suffix, [1])] := by
  revert suffix
  cases platform <;> decide

/-- Writing out the library is a single write, once the directory is there. -/
lemma extract_host {suffix directory name : String} (h : suffix ∈ suffixes platform)
    (hd : w.tree.isDirectory w.directory directory = true)
    (hw : (Files.write (join directory (name ++ suffix)) [1]).run w = .ok () v) :
    (extract (hostReader platform name suffix) (hostIdentity platform suffix) directory).run w =
      .ok 1 v := by
  have hcollect : collect (hostReader platform name suffix) (hostIdentity platform suffix) =
      .ok [(name ++ suffix, [1])] := by
    rw [collect, libraries_host h]
    rfl
  refine extract_eq_ok_iff.mpr
    ⟨_, _, hcollect, rfl, Files.run_makeDirectories_of_isDirectory hd, ?_⟩
  rw [inOrder, List.mergeSort_singleton]
  exact (Action.run_bind_of_ok hw).trans rfl

/-- The tree of some directories. -/
def directoriesAt (ps : List (List String)) : FileTree := ⟨ps.map (·, .directory)⟩

lemma get?_directoriesAt {ps : List (List String)} {q : List String} (hq : q ≠ []) :
    (directoriesAt ps).get? q = if q ∈ ps then some .directory else none := by
  obtain ⟨c, cs, rfl⟩ := List.exists_cons_of_ne_nil hq
  simp only [directoriesAt, FileTree.get?]
  induction ps with
  | nil => rfl
  | cons p ps ih =>
    simp only [List.map_cons, List.lookup_cons, List.mem_cons]
    by_cases h : c :: cs = p
    · simp [h]
    · have hb : (c :: cs == p) = false := by simpa using h
      rw [hb, ih]
      simp [h]

lemma get?_directoriesAt_of_mem {ps : List (List String)} {q : List String} (h : q ∈ ps) :
    (directoriesAt ps).get? q = some .directory := by
  by_cases hq : q = []
  · rw [hq]
    rfl
  · rw [get?_directoriesAt hq, if_pos h]

lemma get?_directoriesAt_ne_file {ps : List (List String)} {q : List String} {f : File} :
    (directoriesAt ps).get? q ≠ some (.file f) := by
  by_cases hq : q = []
  · simp [hq, FileTree.get?]
  · rw [get?_directoriesAt hq]
    split_ifs <;> simp

/-- A file that is put among directories is the only one. -/
lemma eq_of_get?_put {ps : List (List String)} {q place : List String} {f g : File}
    (h : ((directoriesAt ps).put place (.file f)).get? q = some (.file g)) : q = place := by
  by_contra hne
  rw [FileTree.get?_put_of_ne _ _ hne] at h
  exact get?_directoriesAt_ne_file h

/-- A world with just the directories that a name in a directory has to pass through. -/
def worldFor (cwd : List String) (directory name : String) : World := { World.sample [] [] with
  directory := cwd
  tree := directoriesAt (places cwd directory ++ (places cwd (join directory name)).dropLast) }

lemma destination_join_ne_nil {suffix : String} (hs : suffix ∈ suffixes platform)
    (cwd : List String) (directory name : String) :
    destination cwd (join directory (name ++ suffix)) ≠ [] := by
  have hname := isName_name_join hs directory name
  rw [destination_eq_parent cwd hname.ne_empty, hname.step]
  simp

/-- Where no more than the directories is there that its name has to pass through, the library is
written out if its name does not lead to one of them. -/
lemma exists_extract_host {suffix directory name : String} {cwd : List String}
    (hs : suffix ∈ suffixes platform) (hd : IsPlain directory)
    (hp : IsPlain (join directory (name ++ suffix)))
    (hfree : destination cwd (join directory (name ++ suffix)) ∉
      places cwd directory ++ (places cwd (join directory (name ++ suffix))).dropLast) :
    ∃ f v, (extract (hostReader platform name suffix) (hostIdentity platform suffix) directory).run
        (worldFor cwd directory (name ++ suffix)) = .ok 1 v ∧ v.directory = cwd ∧
      v.tree = (worldFor cwd directory (name ++ suffix)).tree.put
        (destination cwd (join directory (name ++ suffix))) (.file f) := by
  have hdir : (worldFor cwd directory (name ++ suffix)).tree.isDirectory cwd directory = true :=
    FileTree.isDirectory_iff.mpr ⟨hd, fun q hq =>
      get?_directoriesAt_of_mem (List.mem_append_left _ hq)⟩
  have hnone : (worldFor cwd directory (name ++ suffix)).tree.get?
      (destination cwd (join directory (name ++ suffix))) ≠ some .directory := by
    rw [worldFor, get?_directoriesAt (destination_join_ne_nil hs _ _ _), if_neg hfree]
    simp
  obtain ⟨f, hf⟩ := Files.exists_write (w := worldFor cwd directory (name ++ suffix)) hp
    (fun q hq => get?_directoriesAt_of_mem (List.mem_append_right _ hq))
    (endsInSlash_of_name (isName_name_join hs directory name).ne_empty) hnone [1]
  exact ⟨f, _, extract_host hs hdir hf, rfl, rfl⟩

end SourceRecovery.References
