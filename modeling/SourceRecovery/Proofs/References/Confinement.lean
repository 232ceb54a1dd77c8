import SourceRecovery.Proofs.References

/-!
# Where embedded libraries are written

An embedded library is written under the name that its own bytes declare, which is joined to the
directory as a path: with a slash in front it stands for itself, and `..` leads out of the
directory. Such a name reaches a file elsewhere unless a directory has to be there.
-/

namespace SourceRecovery

open SourceRecovery.Path

/-- Outside a directory, the files are the same as before. -/
structure World.KeepsOutside (p : String) (w v : World) : Prop where
  directory : v.directory = w.directory
  files : ∀ q, ¬destination w.directory p <+: q →
    ∀ f, v.tree.get? q = some (.file f) ↔ w.tree.get? q = some (.file f)

instance (p : String) : IsPreorder World (World.KeepsOutside p) where
  refl _ := ⟨rfl, fun _ _ _ => .rfl⟩
  trans _ _ _ h h' := ⟨h'.directory.trans h.directory, fun q hq f =>
    (h'.files q (h.directory ▸ hq) f).trans (h.files q hq f)⟩

namespace References

open SourceRecovery.Action

variable {reader : ImageReader} {i : Identity} {platform : Platform} {directory name : String}
  {cwd : List String} {w v : World}

/-! ### Names that lead out -/

/-- A name leads out of a directory: both paths are ones that the system can be given, the name's
leads to a place outside, and this is not one where a directory has to be. -/
structure Escapes (cwd : List String) (directory name : String) : Prop where
  plainDirectory : IsPlain directory
  plainPath : IsPlain (join directory name)
  outside : ¬destination cwd directory <+: destination cwd (join directory name)
  free : destination cwd (join directory name) ∉
    places cwd directory ++ (places cwd (join directory name)).dropLast

/-- A name without a slash does not lead out. -/
lemma not_escapes (h : IsName name) : ¬Escapes cwd directory name := fun he =>
  he.outside (by rw [destination_join h]; exact List.prefix_append _ _)

/-- Writing out the libraries of an image makes and changes no file outside the directory. -/
def Confined (reader : ImageReader) (i : Identity) (directory : String) (w : World) : Prop :=
  World.KeepsOutside directory w ((extract reader i directory).after w)

/-- Every name that a library of an image declares is one of some names. -/
def Declares (reader : ImageReader) (i : Identity) (declared : String → Prop) : Prop :=
  ∀ lib ∈ libraries i.platform i.view.resources, ∀ view, reader lib.2 = .ok view →
    declared view.moduleName

/-! ### Writing below a directory -/

/-- Where the path to the directory is open, a name that does not lead out reaches no file outside,
whether it can be written or not. -/
lemma keepsOutside_write (ho : w.tree.IsOpen w.directory directory)
    (hn : ¬Escapes w.directory directory name) (data : Bytes) :
    w.KeepsOutside directory ((Files.write (join directory name) data).after w) := by
  cases hw : (Files.write (join directory name) data).run w with
  | error e v =>
    rw [after_of_error hw, Files.write_eq_error hw]
    exact refl_of (World.KeepsOutside directory) w
  | ok a v =>
    rw [after_of_ok hw]
    obtain ⟨hplain, hdirs, -⟩ := Files.follows_of_write hw
    obtain ⟨hd, x, rfl⟩ := Files.write_eq_ok hw
    refine ⟨rfl, fun q hq f => ?_⟩
    have hne : q ≠ destination w.directory (join directory name) := by
      rintro rfl
      -- Where a directory has to be there is one, which is not written to.
      refine hn ⟨ho.plain, hplain, hq, fun hmem => hd ?_⟩
      rcases List.mem_append.mp hmem with hmem | hmem
      · exact ho.passes _ hmem fun heq => hq (heq ▸ List.prefix_rfl)
      · exact hdirs _ hmem
    rw [FileTree.get?_put_of_ne _ _ hne]

lemma keepsOutside_forM {entries : List (String × Bytes)}
    (ho : w.tree.IsOpen w.directory directory)
    (hn : ∀ e ∈ entries, ¬Escapes w.directory directory e.1) :
    w.KeepsOutside directory ((entries.forM fun (name, data) =>
      Files.write (join directory name) data).after w) := by
  induction entries generalizing w with
  | nil => exact refl_of (World.KeepsOutside directory) w
  | cons e entries ih =>
    have hstep := keepsOutside_write ho (hn e (.head _)) e.2
    change w.KeepsOutside directory ((Files.write (join directory e.1) e.2 >>= fun _ =>
      entries.forM fun (name, data) => Files.write (join directory name) data).after w)
    cases hw : (Files.write (join directory e.1) e.2).run w with
    | error c v =>
      rw [after_of_error hw] at hstep
      rw [after_of_error (run_bind_of_error hw)]
      exact hstep
    | ok a u =>
      rw [after_of_ok hw] at hstep
      rw [after_bind_of_ok hw]
      have hk := (Files.keepsKinds_write _ _).of_ok hw
      refine trans_of _ hstep (ih ?_ ?_)
      · rw [hk.directory]
        exact hk.tree.isOpen ho
      · rw [hk.directory]
        exact fun e' he' => hn e' (.tail _ he')

/-- Making directories makes and changes no file. -/
lemma keepsOutside_makeDirectories (directory p : String) (existing : Bool) :
    Keeps (World.KeepsOutside directory) (Files.makeDirectories p existing) := by
  refine (Files.growsAlong_makeDirectoriesTo _ _ _).mono ?_
  rintro w v ⟨t, rfl, ht⟩
  refine ⟨rfl, fun q _ f => ?_⟩
  rcases ht q with heq | ⟨hnone, hdir, -⟩
  · rw [heq]
  · simp [hnone, hdir]

/-- An image whose libraries declare no name that leads out is written out into the directory
only. -/
lemma confined_of_not_escapes
    (h : ∀ lib ∈ libraries i.platform i.view.resources, ∀ view, reader lib.2 = .ok view →
      ¬Escapes w.directory directory (view.moduleName ++ lib.1)) :
    Confined reader i directory w := by
  have hmake := keepsOutside_makeDirectories directory directory true w
  unfold Confined extract
  cases hm : (Files.makeDirectories directory true).run w with
  | error e v =>
    rw [after_of_error hm] at hmake
    rw [after_of_error (run_bind_of_error hm)]
    exact hmake
  | ok a u =>
    rw [after_of_ok hm] at hmake
    rw [after_bind_of_ok hm]
    refine trans_of _ hmake ?_
    cases hc : collect reader i with
    | error cause => exact refl_of (World.KeepsOutside directory) u
    | ok entries =>
      rw [after_bind_of_ok (run_ofExcept_ok _ _), after_bind_pure]
      refine keepsOutside_forM (Files.isOpen_of_makeDirectoriesTo (Nat.lt_succ_self _) (.inl hm))
        fun e he => ?_
      have hmem : e.1 ∈ entries.map Prod.fst :=
        List.mem_map_of_mem (List.mem_mergeSort.mp he)
      obtain ⟨lib, hlib, view, hview, hkey⟩ := (mem_keys_collect hc e.1).mp hmem
      rw [hkey, hmake.directory]
      exact h lib hlib view hview

/-! ### Names that are written elsewhere -/

/-- A library that declares a name that leads out is written to where the name leads. -/
lemma not_confined_of_escapes {suffix : String} (hs : suffix ∈ suffixes platform)
    (he : Escapes cwd directory (name ++ suffix)) :
    ¬Confined (hostReader platform name suffix) (hostIdentity platform suffix) directory
      (worldFor cwd directory (name ++ suffix)) := by
  obtain ⟨f, v, hrun, -, htree⟩ :=
    exists_extract_host hs he.plainDirectory he.plainPath he.free
  have hdest := destination_join_ne_nil hs cwd directory name
  intro hc
  have hbefore := (hc.files _ he.outside f).mp (by
    rw [after_of_ok hrun, htree]
    exact FileTree.get?_put_self _ _ hdest)
  exact get?_directoriesAt_ne_file hbefore

/-- Whatever the files are, writing out the libraries of any image is confined to the directory if
and only if none of the names that libraries may declare leads out with an ending of the
platform. -/
theorem confined_iff (platform : Platform) (cwd : List String) (directory : String)
    (declared : String → Prop) :
    (∀ reader image i w, Identity.classify reader image = .ok i → i.platform = platform →
        Declares reader i declared → w.directory = cwd → Confined reader i directory w) ↔
      ∀ name, declared name → ∀ suffix ∈ suffixes platform,
        ¬Escapes cwd directory (name ++ suffix) := by
  constructor
  · intro h name hname suffix hs he
    refine not_confined_of_escapes hs he (h _ _ _ _ (classify_host platform name suffix) rfl ?_ rfl)
    intro lib hlib view hview
    rw [libraries_host hs, List.mem_singleton] at hlib
    subst hlib
    cases hview
    exact hname
  · rintro h reader image i w - rfl hdeclares rfl
    exact confined_of_not_escapes fun lib hlib view hview =>
      h _ (hdeclares lib hlib view hview) _ (suffix_mem_of_mem_libraries hlib)

/-- A library that declares the name of a file in another directory replaces that file. -/
theorem not_confined_sample :
    Identity.classify (hostReader .windows "../outside/evil" ".dll") [] =
        .ok (hostIdentity .windows ".dll") ∧
      ¬Confined (hostReader .windows "../outside/evil" ".dll") (hostIdentity .windows ".dll") "refs"
        (World.sample [(["outside"], .directory),
          (["outside", "evil.dll"], .file ⟨[9], false, 0⟩)] []) := by
  refine ⟨rfl, fun h => ?_⟩
  have hkept := (h.files ["w", "outside", "evil.dll"] (by decide +kernel) ⟨[9], false, 0⟩).mpr
    (by decide +kernel)
  revert hkept
  decide +kernel

end References

end SourceRecovery
