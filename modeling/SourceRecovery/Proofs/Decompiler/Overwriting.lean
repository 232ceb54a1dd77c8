import SourceRecovery.Proofs.Decompiler.Protection

/-!
# What is overwritten without a question

A question is asked about a directory that holds a file directly. Files further below do not count:
where there are no others, a run goes on without a question, and the files are left to whatever the
embedded libraries and the decompiler put in their place.
-/

namespace SourceRecovery.Decompiler

open SourceRecovery.Action SourceRecovery.Path

variable {reader : ImageReader} {d : Decompiler} {confirm : String → Action Bool} {i : Identity}
  {o : Options} {output : String} {cs : List String} {w v : World}

/-! ### What is to be protected -/

/-- A path leads to a directory, from where some components lead on to a file. -/
structure HoldsBelow (t : FileTree) (cwd : List String) (output : String) (cs : List String)
    (f : File) : Prop where
  directory : t.isDirectory cwd output = true
  file : t.get? (destination cwd output ++ cs) = some (.file f)

/-- A decompiler changes no node that is not below its output directory. -/
def StaysBelow (d : Decompiler) : Prop :=
  ∀ job w q, (∀ cs, cs ≠ [] → q ≠ destination w.directory job.output ++ cs) →
    ((d job).after w).tree.get? q = w.tree.get? q

/-- If the operator is asked about a directory, the answer is not yes. -/
def Unaffirmed (confirm : String → Action Bool) (w : World) (output : String) : Prop :=
  Occupied w.tree w.directory output →
    ∀ v, (confirm (reuseQuestion w.directory output)).run w ≠ .ok true v

/-- Whatever image is decompiled into a directory, without an answer that is yes, is skipped or
leaves every file below the directory with its bytes. -/
def Protects (w : World) (output : String) : Prop :=
  ∀ reader image i d confirm o, Identity.classify reader image = .ok i →
    Options.directoryFor o i = output → StaysBelow d → Console.Asks confirm →
    Unaffirmed confirm w output →
    (∃ v, (run reader d confirm i o).run w = .ok none v) ∨
      ∀ cs f, HoldsBelow w.tree w.directory output cs f →
        ∃ g, ((run reader d confirm i o).after w).tree.get?
          (destination w.directory output ++ cs) = some (.file g) ∧ g.data = f.data

lemma HoldsBelow.ne_nil {f : File} (h : HoldsBelow w.tree w.directory output cs f) : cs ≠ [] := by
  rintro rfl
  have hdir := (FileTree.isDirectory_iff.mp h.directory).2 _ (destination_mem_places _ _)
  rw [← List.append_nil (destination w.directory output), h.file] at hdir
  cases hdir

/-! ### A decompiler that overwrites a file -/

/-- The decompiler that puts some bytes at some components below its output directory, and then
gives up. -/
def overwriting (cs : List String) (data : Bytes) : Decompiler := fun job => do
  modify fun w => { w with
    tree := w.tree.put (destination w.directory job.output ++ cs) (.file ⟨data, false, w.now⟩) }
  throw (.decompiler (.gaveUp ""))

lemma staysBelow_overwriting (h : cs ≠ []) (data : Bytes) : StaysBelow (overwriting cs data) :=
  fun _ _ _ hq => FileTree.get?_put_of_ne _ _ (hq cs h)

/-- An image without a library. -/
def bareIdentity : Identity := identityOf [] []

lemma isPlain_references : IsPlain referencesName := ⟨by decide, by decide, by decide⟩

/-- A directory without files in it has room for the one of the embedded libraries. -/
lemma isClear_references (hd : w.tree.isDirectory w.directory output = true)
    (ho : ¬Occupied w.tree w.directory output) :
    w.tree.IsClear w.directory (join output referencesName) := by
  obtain ⟨hplain, hdirs⟩ := FileTree.isDirectory_iff.mp hd
  refine ⟨hplain.join isPlain_references, ?_, fun q hq f hf => ?_⟩
  · rw [origin_join isName_references]
    exact hdirs _ (origin_mem_places _ _)
  · rw [places_join isName_references] at hq
    rcases List.mem_append.mp hq with hq | hq
    · simp [hdirs q hq] at hf
    · rw [List.mem_singleton.mp hq] at hf
      exact ho ⟨hd, referencesName, f, hf⟩

/-- The image without a library gets to the decompiler with nothing but directories made, so that
the file is overwritten. -/
lemma after_fill_overwriting (o : Options) (data : Bytes)
    (hd : w.tree.isDirectory w.directory output = true)
    (ho : ¬Occupied w.tree w.directory output) (hcs : cs ≠ []) :
    ∃ f, ((fill sampleReader (overwriting cs data) bareIdentity o output).after w).tree.get?
      (destination w.directory output ++ cs) = some (.file f) ∧ f.data = data := by
  obtain ⟨u, hmake, hdir⟩ := Files.isClear_iff.mp (isClear_references hd ho)
  have hextract : (References.extract sampleReader bareIdentity (join output referencesName)).run
      u = .ok 0 u := by
    have hcollect : References.collect sampleReader bareIdentity = .ok [] := rfl
    rw [References.extract, run_bind_of_ok (Files.run_makeDirectories_of_isDirectory hdir),
      hcollect, run_bind_of_ok (run_ofExcept_ok _ _), List.mergeSort_nil]
    rfl
  obtain ⟨t, rfl, -⟩ := (Files.growsAlong_makeDirectoriesTo _ _ _).of_ok hmake
  obtain ⟨c, hc⟩ := Console.prints_log .info
    s!"Extracted {0} embedded references to {join output referencesName}" { w with tree := t }
  obtain ⟨job, hjob⟩ : ∃ job : Job, job = ⟨bareIdentity.image, bareIdentity.name, output,
    resolverFor w.directory (join output referencesName) o.search o.tolerant⟩ := ⟨_, rfl⟩
  obtain ⟨c', u, rfl, ⟨u', c'', hd, -⟩ | ⟨e, u', c'', hd, htimed⟩⟩ :=
    run_timed (overwriting cs data) job { w with tree := t, console := c }
  · cases hd
  · cases hd
    rw [fill, after_bind_of_ok hmake, after_bind_of_ok hextract, Console.info,
      after_bind_of_ok hc, after_bind_of_ok (EStateM.run_get _)]
    dsimp only
    rw [← hjob, after_of_error (run_bind_of_error htimed), hjob]
    exact ⟨_, FileTree.get?_put_self _ _ (by simp [hcs]), rfl⟩

/-- A directory without files in it is used without a question. -/
lemma after_run_of_not_occupied
    (hd : w.tree.isDirectory w.directory (o.directoryFor i) = true)
    (ho : ¬Occupied w.tree w.directory (o.directoryFor i)) :
    (run reader d confirm i o).after w = (fill reader d i o (o.directoryFor i)).after w := by
  rw [run, after_bind_of_ok (run_admits_of_isDirectory hd ho)]
  exact after_bind_pure

/-- The files below a directory are protected if and only if one of them lies in it directly, or
there are none. -/
theorem protects_iff (w : World) (output : String) :
    Protects w output ↔ ∀ cs f, HoldsBelow w.tree w.directory output cs f →
      Occupied w.tree w.directory output := by
  constructor
  · intro h cs f hf
    by_contra ho
    obtain ⟨o, ho'⟩ : ∃ o : Options, o.directoryFor bareIdentity = output :=
      ⟨{ Options.standard with output := some output }, rfl⟩
    subst ho'
    rcases h sampleReader [] bareIdentity (overwriting cs (0 :: f.data)) Console.confirm o rfl rfl
      (staysBelow_overwriting hf.ne_nil _) Console.asks_confirm (fun ho' => absurd ho' ho) with
      ⟨v, hv⟩ | hkept
    · exact ho (occupied_of_run_eq_none hv)
    · obtain ⟨g, hg, hdata⟩ := hkept cs f hf
      obtain ⟨g', hg', hdata'⟩ :=
        after_fill_overwriting o (0 :: f.data) hf.directory ho hf.ne_nil
      rw [after_run_of_not_occupied hf.directory ho, hg'] at hg
      cases hg
      exact absurd (hdata'.symm.trans hdata) (by simp)
  · intro h reader image i d confirm o _ hout _ hc hno
    subst hout
    by_cases ho : Occupied w.tree w.directory (o.directoryFor i)
    · have hasks := asksFirst_of_occupied reader d hc ho
      obtain ⟨answer, u, -, hconfirm, -⟩ := id hasks
      cases answer with
      | true => exact absurd hconfirm (hno ho u)
      | false =>
        obtain ⟨v, hv, -⟩ := hasks.run_of_refused hconfirm
        exact .inl ⟨v, hv⟩
    · exact .inr fun cs f hf => absurd (h cs f hf) ho

lemma staysBelow_sampleDecompiler : StaysBelow sampleDecompiler :=
  fun _ _ _ hq => FileTree.get?_put_of_ne _ _ (hq _ (by simp))

/-- A world where the directory for the embedded libraries holds one from before. -/
def formerWorld : World := World.sample
  [(["out"], .directory), (["out", "references"], .directory),
    (["out", "references", "Lib.dll"], .file ⟨[9], false, 0⟩)] []

/-- The library from before is replaced, though no question is asked. -/
theorem not_protects_sample : ¬Protects formerWorld "out" := by
  intro h
  have hno : Unaffirmed Console.confirm formerWorld "out" := by
    intro _ v hv
    obtain ⟨text, console, hrun⟩ := Console.run_confirm _ _
    cases hv.symm.trans hrun
  rcases h sampleReader [77, 90] sampleIdentity sampleDecompiler Console.confirm sampleOptions rfl
    rfl staysBelow_sampleDecompiler Console.asks_confirm hno with ⟨v, hv⟩ | hkept
  · have hresult : (run sampleReader sampleDecompiler Console.confirm sampleIdentity
        sampleOptions).result? formerWorld = some (some 7) := by decide +kernel
    simp [result?, hv] at hresult
  · obtain ⟨g, hg, hdata⟩ := hkept ["references", "Lib.dll"] ⟨[9], false, 0⟩
      ⟨by decide +kernel, by decide +kernel⟩
    have hreplaced : ((run sampleReader sampleDecompiler Console.confirm sampleIdentity
        sampleOptions).after formerWorld).tree.get? ["w", "out", "references", "Lib.dll"] =
        some (.file ⟨[1, 2], false, 1⟩) := by decide +kernel
    cases hreplaced.symm.trans hg
    simp at hdata

end SourceRecovery.Decompiler
