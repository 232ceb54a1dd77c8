import SourceRecovery.Proofs.Decompiler.Course

/-!
# Decompilers that leave no project file

Once a decompiler has ended without an error, the project file is opened as it is expected. Where
there is none, the run stops with the refusal of the system, and does not blame the decompiler.
-/

namespace SourceRecovery.Decompiler

open SourceRecovery.Action SourceRecovery.Path

variable {reader : ImageReader} {d : Decompiler} {confirm : String → Action Bool} {i : Identity}
  {o : Options} {output name : String} {w v : World}

/-- The decompile step of a run ends without an error: the directory for the project is used, the
embedded libraries are written into it, and a world is left in which calling the decompiler for the
image has had a result. -/
def Decompiles (reader : ImageReader) (d : Decompiler) (confirm : String → Action Bool)
    (i : Identity) (o : Options) (w v : World) : Prop :=
  ∃ u₁ u₂ u₃ count r, (admits (o.directoryFor i) confirm).run w = .ok true u₁ ∧
    (Files.makeDirectories (join (o.directoryFor i) referencesName) true).run u₁ = .ok () u₂ ∧
    (References.extract reader i (join (o.directoryFor i) referencesName)).run u₂ = .ok count u₃ ∧
    (timed d (jobFor u₃.directory i o)).run
      (counted u₃ count (join (o.directoryFor i) referencesName)) = .ok r v

/-- After the decompile step, a run concludes. -/
lemma exists_run_of_decompiles (h : Decompiles reader d confirm i o w v) :
    ∃ count r, (run reader d confirm i o).run w = (do
      return some (← conclude (o.directoryFor i) i.name count r) : Action (Option Int)).run v := by
  obtain ⟨u₁, u₂, u₃, count, r, hadmits, hmake, hextract, htimed⟩ := h
  have hfill : (fill reader d i o (o.directoryFor i)).run u₁ =
      (conclude (o.directoryFor i) i.name count r).run v :=
    (run_fill_of_ok hmake hextract).trans (run_bind_of_ok htimed)
  exact ⟨count, r, (run_bind_of_ok hadmits).trans (run_bind_congr hfill)⟩

/-- A project file that cannot be read is not fixed up. -/
lemma run_fixUpProject_of_error {problem : FileProblem}
    (h : w.tree.read w.directory (projectPath output name) = .error problem) :
    (fixUpProject output name).run w = .error (.file problem (projectPath output name) none) w := by
  have hread : (Files.read (projectPath output name)).run w =
      .error (.file problem (projectPath output name) none) w := by rw [Files.run_read, h]
  exact run_bind_of_error (run_bind_of_error hread)

/-- A run that finds no project file stops with the refusal of the system to read it. -/
lemma exists_run_of_missing (h : Decompiles reader d confirm i o w v)
    (hmissing : v.tree.isFile v.directory (projectPath (o.directoryFor i) i.name) = false) :
    ∃ problem,
      v.tree.read v.directory (projectPath (o.directoryFor i) i.name) = .error problem ∧
      (run reader d confirm i o).run w =
        .error (.file problem (projectPath (o.directoryFor i) i.name) none) v := by
  obtain ⟨problem, hread⟩ := FileTree.exists_read_error hmissing
  obtain ⟨count, r, hrun⟩ := exists_run_of_decompiles h
  have hconclude : (conclude (o.directoryFor i) i.name count r).run v =
      .error (.file problem (projectPath (o.directoryFor i) i.name) none) v :=
    run_bind_of_error (run_fixUpProject_of_error hread)
  exact ⟨problem, hread, hrun.trans (run_bind_of_error hconclude)⟩

/-- A run reports missing output: where the decompile step ends without an error and leaves no
project file, the run stops with an error of the decompiler. -/
def ReportsNoOutput (reader : ImageReader) (d : Decompiler) (confirm : String → Action Bool)
    (i : Identity) (o : Options) (w : World) : Prop :=
  ∀ v, Decompiles reader d confirm i o w v →
    v.tree.isFile v.directory (projectPath (o.directoryFor i) i.name) = false →
      ∃ cause u, (run reader d confirm i o).run w = .error (.decompiler cause) u

/-- Where the decompile step ends without an error and leaves no project file, the run stops with
the refusal of the system to read that file, and the world is left as the decompiler left it. So
missing output is never an error of the decompiler, and is reported as one only in that there is
none. -/
theorem reportsNoOutput_iff :
    (∀ v, Decompiles reader d confirm i o w v →
      v.tree.isFile v.directory (projectPath (o.directoryFor i) i.name) = false → ∃ problem,
        v.tree.read v.directory (projectPath (o.directoryFor i) i.name) = .error problem ∧
        (run reader d confirm i o).run w =
          .error (.file problem (projectPath (o.directoryFor i) i.name) none) v) ∧
    (ReportsNoOutput reader d confirm i o w ↔ ∀ v, Decompiles reader d confirm i o w v →
      v.tree.isFile v.directory (projectPath (o.directoryFor i) i.name) = true) := by
  refine ⟨fun v h hmissing => exists_run_of_missing h hmissing, fun h v hv => ?_,
    fun h v hv hmissing => ?_⟩
  · by_contra hnone
    rw [Bool.not_eq_true] at hnone
    obtain ⟨problem, -, hrefused⟩ := exists_run_of_missing hv hnone
    obtain ⟨cause, u, hrun⟩ := h v hv hnone
    cases hrefused.symm.trans hrun
  · cases (h v hv).symm.trans hmissing

/-- A decompiler that ends without having done anything is not reported. -/
theorem not_reportsNoOutput_sample : ¬ ReportsNoOutput sampleReader (fun _ => pure ())
    Console.confirm sampleIdentity sampleOptions (World.sample [] []) := by
  intro h
  have hstep : Decompiles sampleReader (fun _ => pure ()) Console.confirm sampleIdentity
      sampleOptions (World.sample [] []) _ :=
    ⟨_, _, _, 1, (7, 0), run_of_result? (by decide +kernel), run_of_result? (by decide +kernel),
      run_of_result? (by decide +kernel), run_of_result? (by decide +kernel)⟩
  obtain ⟨cause, u, hrun⟩ := h _ hstep (by decide +kernel)
  obtain ⟨problem, -, hrefused⟩ := exists_run_of_missing hstep (by decide +kernel)
  cases hrefused.symm.trans hrun

end SourceRecovery.Decompiler
