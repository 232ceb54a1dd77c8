import SourceRecovery.Proofs.Decompiler.External
import SourceRecovery.Proofs.Decompiler.Protection
import SourceRecovery.Proofs.Starts

/-!
# When a decompilation starts the program

The program is started at most once, and only if the directory for the project is used and every
reference of the image is found once the embedded libraries are written out. A decompilation that
starts nothing has stopped with a fault, or its directory was refused.
-/

namespace SourceRecovery

open SourceRecovery.Action SourceRecovery.Path

/-! ### References that are found -/

/-- Every reference that is none of the framework's has a file with a known ending in one of some
directories: at its path from there, and directly in it unless the reference is a path itself. -/
def Finds (t : FileTree) (cwd directories references : List String) : Prop :=
  ∀ name ∈ references, isFramework name = false →
    ∃ d ∈ directories, ∃ e ∈ Resolver.extensions, t.isFile cwd (join d (name ++ e)) = true ∧
      ('/' ∉ name.toList → ∃ f, t.get? (destination cwd d ++ [name ++ e]) = some (.file f))

/-- What a strict resolver accepts is found. -/
lemma finds_of_check {r : Resolver} {t : FileTree} {cwd names missing : List String}
    (hstrict : r.strict = true) (h : r.check t cwd names = .ok missing) :
    Finds t cwd r.directories names := by
  intro name hname hframework
  have hnone : r.unresolved t cwd names = [] := by
    by_contra hne
    simp [Resolver.check, hne, hstrict] at h
  obtain ⟨file, hfile⟩ : ∃ file, r.resolve t cwd name = some file := by
    have hkept := List.filter_eq_nil_iff.mp hnone name hname
    simpa [hframework, Option.ne_none_iff_exists'] using hkept
  obtain ⟨d, hd, e, he, rfl, hf⟩ := Resolver.exists_of_resolve hfile
  refine ⟨d, hd, e, he, hf, fun hslash => ?_⟩
  obtain ⟨hending, hlength⟩ := Resolver.extension_spec he
  obtain ⟨f, hfind⟩ := FileTree.isFile_iff.mp hf
  obtain ⟨-, -, -, hget⟩ := FileTree.find_eq_file.mp hfind
  rw [destination_join (isName_append hslash hending hlength)] at hget
  exact ⟨f, hget⟩

namespace External

/-- The program is started once, for a job that is accepted, or not at all, and then the job stops
with a fault. -/
lemma starts_cases (reader : ImageReader) (s : Settings) (job : Job) (w : World) :
    (∃ e v, (decompiler reader s job).run w = .error e v ∧ w.StartsNothing v) ∨
      ∃ program view, Accepted reader s job w program view ∧
        startsOf ((decompiler reader s job).after w).journal =
          startsOf w.journal ++ [(startCommand s program w.directory job, job.image)] := by
  rcases starts_or_stops reader s job w with ⟨e, v, herror, htree, -⟩ | ⟨program, view, start, h, -⟩
  · exact .inl ⟨e, v, herror, htree.startsNothing⟩
  · obtain ⟨front, v, -, hafter, hleaves, -⟩ := h.course
    obtain ⟨t, c, m, hv⟩ := hleaves.world
    refine .inr ⟨program, view, h.accepted, ?_⟩
    rw [hafter, hv, startsOf_append]
    exact congrArg (fun starts => startsOf w.journal ++ _ :: starts) (startsOf_reported _ front)

end External

namespace Decompiler

variable {reader : ImageReader} {s : External.Settings} {i : Identity} {o : Options} {w v : World}

/-! ### Stages that start nothing -/

lemma startsNothing_admits (output : String) :
    Keeps World.StartsNothing (admits output Console.confirm) := by
  intro w
  by_cases ho : Occupied w.tree w.directory output
  · obtain ⟨answer, text, console, answers, hconfirm, hadmits⟩ :=
      run_admits_of_occupied Console.asks_confirm ho
    have hasked := (Console.startsNothing_confirm _).of_ok hconfirm
    rw [after_of_ok hadmits]
    exact ⟨rfl, hasked.starts, hasked.answers⟩
  · cases hd : w.tree.isDirectory w.directory output with
    | true =>
      rw [after_of_ok (run_admits_of_isDirectory hd ho)]
      exact refl_of World.StartsNothing w
    | false =>
      have hafter : (admits output Console.confirm).after w =
          (Files.makeDirectories output false).after w := by
        simp only [after, run_admits_of_missing hd]
        cases (Files.makeDirectories output false).run w <;> rfl
      rw [hafter]
      exact (Files.onlyTree_makeDirectories _ _ w).startsNothing

/-- Nothing that comes after the decompiler starts a program. -/
lemma startsNothing_conclude (output name : String) (references : ℕ) (r : Int × ℕ) :
    Keeps World.StartsNothing (conclude output name references r) :=
  .bind (onlyTree_fixUpProject _ _).startsNothing fun _ =>
    .bind (writes_summarize _ _ _ _ _).prints.startsNothing fun _ => .pure _

/-! ### A whole decompilation -/

/-- Between the two looks at the clock, the program is started once, for a job whose references are
checked without an error, or nothing is started and a fault stops the decompilation. -/
lemma timed_cases (reader : ImageReader) (s : External.Settings) (job : Job) (w : World) :
    (∃ e v, (timed (External.decompiler reader s) job).run w = .error e v ∧ w.StartsNothing v) ∨
      ∃ program view names, reader job.image = .ok view ∧
        job.resolver.check w.tree w.directory view.references = .ok names ∧
        startsOf ((timed (External.decompiler reader s) job).after w).journal =
          startsOf w.journal ++ [(External.startCommand s program w.directory job, job.image)] := by
  obtain ⟨c, u, hu, hcases⟩ := run_timed (External.decompiler reader s) job w
  have hjournal : startsOf u.journal = startsOf w.journal := by
    rw [hu]
    exact (startsOf_append _ _).trans (List.append_nil _)
  rcases External.starts_cases reader s job u with
    ⟨e, v, herror, hdirectory, hstarts, hanswers⟩ | ⟨program, view, h, hstarts⟩
  · rcases hcases with ⟨u', c', hok, -⟩ | ⟨e', u', c', herror', htimed⟩
    · cases herror.symm.trans hok
    · cases herror.symm.trans herror'
      refine .inl ⟨e, _, htimed, hdirectory.trans ?_, hstarts.trans hjournal, ?_⟩
      · rw [hu]
      · rw [hu] at hanswers
        exact hanswers
  · obtain ⟨names, hcheck⟩ := h.resolved
    refine .inr ⟨program, view, names, h.readable, ?_, ?_⟩
    · rw [hu] at hcheck
      exact hcheck
    · have hdirectory : u.directory = w.directory := by rw [hu]
      rw [hjournal, hdirectory] at hstarts
      rcases hcases with ⟨u', c', hok, htimed⟩ | ⟨e', u', c', herror, htimed⟩
      · rw [after_of_ok hok] at hstarts
        rw [after_of_ok htimed]
        exact hstarts
      · rw [after_of_error herror] at hstarts
        rw [after_of_error htimed]
        exact hstarts

/-- The directories that are searched for the references of an image: the working directory, the one
of the embedded libraries, and those that the options name. -/
def searched (cwd : List String) (i : Identity) (o : Options) : List String :=
  (ofComponents cwd :: join (o.directoryFor i) referencesName :: o.search).map (absolute cwd)

/-- The job for an image searches no other directories. -/
lemma finds_searched {t : FileTree} {cwd references : List String}
    (h : Finds t cwd (jobFor cwd i o).resolver.directories references) :
    Finds t cwd (searched cwd i o) references := by
  intro name hname hframework
  obtain ⟨d, hd, hfound⟩ := h name hname hframework
  exact ⟨d, List.mem_eraseDups.mp hd, hfound⟩

/-- An image may be decompiled: the directory for the project is used, the embedded libraries are
written into it, and every reference is found then. -/
def Prepared (reader : ImageReader) (i : Identity) (o : Options) (w : World) : Prop :=
  ∃ u u' v count, (admits (o.directoryFor i) Console.confirm).run w = .ok true u ∧
    (Files.makeDirectories (join (o.directoryFor i) referencesName) true).run u = .ok () u' ∧
    (References.extract reader i (join (o.directoryFor i) referencesName)).run u' = .ok count v ∧
    Finds v.tree w.directory (searched w.directory i o) i.view.references

/-- In a directory that is used, the program is started once the image is prepared, or nothing is
started and a fault stops the decompilation. -/
lemma fill_cases (s : External.Settings) (hread : reader i.image = .ok i.view)
    (hstrict : o.tolerant = false) (w : World) :
    (∃ e v, (fill reader (External.decompiler reader s) i o (o.directoryFor i)).run w = .error e v ∧
      w.StartsNothing v) ∨
    ∃ program u v count,
      (Files.makeDirectories (join (o.directoryFor i) referencesName) true).run w = .ok () u ∧
      (References.extract reader i (join (o.directoryFor i) referencesName)).run u = .ok count v ∧
      Finds v.tree w.directory (searched w.directory i o) i.view.references ∧
      startsOf
          ((fill reader (External.decompiler reader s) i o (o.directoryFor i)).after w).journal =
        startsOf w.journal ++
          [(External.startCommand s program w.directory (jobFor w.directory i o), i.image)] := by
  cases hmake : (Files.makeDirectories (join (o.directoryFor i) referencesName) true).run w with
  | error e u =>
    exact .inl ⟨e, u, run_bind_of_error hmake,
      ((Files.onlyTree_makeDirectories _ _).of_error hmake).startsNothing⟩
  | ok a u =>
    have hu := (Files.onlyTree_makeDirectories _ _).of_ok hmake
    cases hextract :
      (References.extract reader i (join (o.directoryFor i) referencesName)).run u with
    | error e v =>
      refine .inl ⟨e, v, (run_bind_of_ok hmake).trans (run_bind_of_error hextract), ?_⟩
      exact (trans_of World.OnlyTree hu
        ((References.onlyTree_extract _ _ _).of_error hextract)).startsNothing
    | ok count v =>
      obtain ⟨t, rfl⟩ := trans_of World.OnlyTree hu
        ((References.onlyTree_extract _ _ _).of_ok hextract)
      have hfill := run_fill_of_ok (d := External.decompiler reader s) hmake hextract
      rcases timed_cases reader s (jobFor w.directory i o) (counted { w with tree := t } count
          (join (o.directoryFor i) referencesName)) with
        ⟨e, u', htimed, hnone⟩ | ⟨program, view, names, hview, hcheck, hstarts⟩
      · exact .inl ⟨e, u', hfill.trans (run_bind_of_error htimed), hnone.directory, hnone.starts,
          hnone.answers⟩
      · cases hview.symm.trans hread
        refine .inr ⟨program, u, _, count, rfl, hextract,
          finds_searched (finds_of_check (by simp [jobFor, hstrict]) hcheck), ?_⟩
        rw [after_congr hfill]
        exact (Keeps.after_bind (startsNothing_conclude _ _ _) _ _).starts.trans hstarts

/-- The program is started once, for an image that is prepared; or nothing is started, and either a
fault stops the run or the directory was refused. -/
lemma run_cases (s : External.Settings) (hread : reader i.image = .ok i.view)
    (hstrict : o.tolerant = false) (w : World) :
    (∃ e v, (run reader (External.decompiler reader s) Console.confirm i o).run w = .error e v ∧
      w.StartsNothing v) ∨
    (∃ v, (run reader (External.decompiler reader s) Console.confirm i o).run w = .ok none v ∧
      w.StartsNothing v ∧ Occupied w.tree w.directory (o.directoryFor i) ∧
      (w.answers.headD none).map Text.trim ≠ some "y") ∨
    ∃ program, Prepared reader i o w ∧
      startsOf ((run reader (External.decompiler reader s) Console.confirm i o).after w).journal =
        startsOf w.journal ++
          [(External.startCommand s program w.directory (jobFor w.directory i o), i.image)] := by
  cases hadmits : (admits (o.directoryFor i) Console.confirm).run w with
  | error e v =>
    exact .inl ⟨e, v, run_bind_of_error hadmits, (startsNothing_admits _).of_error hadmits⟩
  | ok admitted u =>
    have hu := (startsNothing_admits _).of_ok hadmits
    cases admitted with
    | false =>
      obtain ⟨c, hrefused⟩ :=
        run_proceed_false reader (External.decompiler reader s) i o (o.directoryFor i) u
      have hrun := (run_bind_of_ok hadmits).trans hrefused
      have hoccupied := occupied_of_run_eq_none hrun
      refine .inr (.inl ⟨_, hrun, ⟨hu.directory, hu.starts, hu.answers⟩, hoccupied, ?_⟩)
      obtain ⟨answer, text, console, answers, hconfirm, hadmits'⟩ :=
        run_admits_of_occupied Console.asks_confirm hoccupied
      cases hadmits.symm.trans hadmits'
      obtain ⟨text', console', hconfirm'⟩ :=
        Console.run_confirm (reuseQuestion w.directory (o.directoryFor i)) w
      exact of_decide_eq_false (EStateM.Result.ok.inj (hconfirm.symm.trans hconfirm')).1.symm
    | true =>
      rcases fill_cases s hread hstrict u with
        ⟨e, v, hfill, hnone⟩ | ⟨program, u', v, count, hmake, hextract, hfinds, hstarts⟩
      · exact .inl ⟨e, v, (run_bind_of_ok hadmits).trans (run_bind_of_error hfill),
          trans_of World.StartsNothing hu hnone⟩
      · rw [hu.directory] at hfinds hstarts
        rw [hu.starts] at hstarts
        refine .inr (.inr ⟨program, ⟨u, u', v, count, hadmits, hmake, hextract, hfinds⟩, ?_⟩)
        have hafter : (run reader (External.decompiler reader s) Console.confirm i o).after w =
            (fill reader (External.decompiler reader s) i o (o.directoryFor i)).after u :=
          (after_bind_of_ok hadmits).trans after_bind_pure
        rw [hafter]
        exact hstarts

end Decompiler

end SourceRecovery
