import SourceRecovery.Proofs.Decompiler.Gate
import SourceRecovery.Proofs.References
import SourceRecovery.Proofs.Resolver

/-!
# The course of a decompilation

What each stage does to the world: the embedded libraries are written out, the decompiler is
called between two looks at the clock, and the project file is fixed up. Between the stages
nothing but the console changes, so that the stages of a run that succeeds compose to one
description of what the decompiler finds and of what is left in the end.
-/

namespace SourceRecovery.Decompiler

open SourceRecovery.Action SourceRecovery.Path

variable {reader : ImageReader} {d : Decompiler} {confirm : String → Action Bool} {i : Identity}
  {o : Options} {output name : String} {w v : World}

/-! ### Calling the decompiler -/

lemma run_readClock (w : World) : World.readClock.run w =
    .ok (w.clock.headD 0) { w with clock := w.clock.tail } := rfl

/-- The decompiler is called once the job is noted, between two looks at the clock. -/
lemma run_measured (d : Decompiler) (job : Job) (w : World) :
    ∃ console, (measured d job).run w = match (d job).run { w with
          console, clock := w.clock.tail, journal := w.journal ++ [.decompiling job] } with
      | .ok _ u => .ok (u.clock.headD 0 - w.clock.headD 0, u.meter.completed)
          { u with clock := u.clock.tail }
      | .error e u => .error e u := by
  obtain ⟨c, hc⟩ := Console.prints_line "" w
  obtain ⟨c', hc'⟩ := Console.prints_log .step "Start decompiling..." { w with console := c }
  have hnote (u : World) : (World.note (.decompiling job)).run u =
      .ok () { u with journal := u.journal ++ [.decompiling job] } := rfl
  refine ⟨c', ?_⟩
  rw [measured, run_bind_of_ok hc, Console.step, run_bind_of_ok hc',
    run_bind_of_ok (run_readClock _), run_bind_of_ok (hnote _)]
  dsimp only
  cases hd : (d job).run { w with
      console := c', clock := w.clock.tail, journal := w.journal ++ [.decompiling job] } with
  | ok a u =>
    rw [run_bind_of_ok hd, run_bind_of_ok (run_readClock _)]
    rfl
  | error e u => rw [run_bind_of_error hd]

/-- How calling the decompiler goes: as the decompiler does, except for the console, the clock and
the count, which is what it was in the end. -/
lemma run_timed (d : Decompiler) (job : Job) (w : World) :
    ∃ console u, u = { w with
        console, meter := .fresh, clock := w.clock.tail,
        journal := w.journal ++ [.decompiling job] } ∧
      ((∃ u' console, (d job).run u = .ok () u' ∧ (timed d job).run w =
          .ok (u'.clock.headD 0 - w.clock.headD 0, u'.meter.completed)
            { u' with console, clock := u'.clock.tail, meter := w.meter }) ∨
        ∃ e u' console, (d job).run u = .error e u' ∧ (timed d job).run w =
          .error e { u' with console, meter := w.meter }) := by
  obtain ⟨c, hm⟩ := run_measured d job { w with meter := .fresh }
  refine ⟨c, _, rfl, ?_⟩
  have htimed : (timed d job).run w =
      (tryFinally (tryFinally (measured d job) (Console.finishProgress ""))
        (modify fun v => { v with meter := w.meter } : Action Unit)).run
        { w with meter := .fresh } := rfl
  rw [htimed, run_tryFinally, run_tryFinally, hm]
  cases (d job).run { w with
      console := c, meter := .fresh, clock := w.clock.tail,
      journal := w.journal ++ [.decompiling job] } with
  | ok a u =>
    obtain ⟨c', hc'⟩ := Console.prints_finishProgress "" { u with clock := u.clock.tail }
    refine .inl ⟨u, c', rfl, ?_⟩
    dsimp only
    rw [hc']
    rfl
  | error e u =>
    obtain ⟨c', hc'⟩ := Console.prints_finishProgress "" u
    refine .inr ⟨e, u, c', rfl, ?_⟩
    dsimp only
    rw [hc']
    rfl

/-! ### Fixing up the project file -/

lemma isName_project (h : '/' ∉ name.toList) : IsName (name ++ ".csproj") :=
  isName_append h (by decide) (by decide)

lemma onlyTree_fixUpProject (output name : String) :
    Keeps World.OnlyTree (fixUpProject output name) := by
  refine .bind (.bind (Files.keeps_read _) fun data => ?_) fun text =>
    .bind (Files.onlyTree_write _ _) fun _ => .pure _
  split
  · exact .pure _
  · exact .throwing _

/-- The project file is read as text and written back, fixed up. -/
lemma fixUpProject_eq_ok {p : String} (h : (fixUpProject output name).run w = .ok p v) :
    IsPlain (projectPath output name) ∧
      (∀ q ∈ (places w.directory (projectPath output name)).dropLast,
        w.tree.get? q = some .directory) ∧
      ∃ f text x,
        w.tree.get? (destination w.directory (projectPath output name)) = some (.file f) ∧
        Text.decode? f.data = some text ∧
        v = { w with
          tree := w.tree.put (destination w.directory (projectPath output name))
            (.file ⟨Text.encode (Project.fixUp (Text.unifyNewlines text)), x, w.now⟩) } := by
  obtain ⟨text, u, hread, hrest⟩ := bind_eq_ok.mp h
  obtain ⟨⟨⟩, u', hwrite, hdone⟩ := bind_eq_ok.mp hrest
  cases hdone
  obtain ⟨rfl, hplain, hdirs, f, decoded, hf, hdecode, rfl⟩ := Files.readText_eq_ok hread
  obtain ⟨-, x, rfl⟩ := Files.write_eq_ok hwrite
  exact ⟨hplain, hdirs, f, decoded, x, hf, hdecode, rfl⟩

lemma writes_summarize [Stream] (output project : String) (took : Int) (files references : ℕ) :
    Console.Writes (summarize output project took files references) := by
  refine .seeing (fun _ => ⟨_, rfl⟩) fun p => ?_
  refine .seq (Console.writes_line _) (.seq (Console.writes_log _ _) ?_)
  refine .seeing (fun _ => ⟨_, rfl⟩) fun place => ?_
  refine .seq (Console.writes_line _) (.seq (Console.writes_line _) ?_)
  exact .seq (Console.writes_line _) (.seq (Console.writes_line _) (Console.writes_line _))

/-! ### All stages -/

/-- The job that a decompiler is given for an image: it finds references in the working directory,
among the embedded libraries and in some more directories. -/
def jobFor (cwd : List String) (i : Identity) (o : Options) : Job where
  image := i.image
  name := i.name
  output := o.directoryFor i
  resolver := {
    directories := ((ofComponents cwd :: join (o.directoryFor i) referencesName :: o.search).map
      (absolute cwd)).eraseDups
    strict := !o.tolerant }

/-- Between two trees, a directory with the embedded libraries is made inside another one: the
directories on the way to it are there, the libraries are in it, and nothing else is changed. -/
structure Furnished (cwd : List String) (output : String) (entries : List (String × Bytes))
    (t t' : FileTree) : Prop where
  free : ∀ q ∈ places cwd (join output referencesName),
    t.get? q = none ∨ t.get? q = some .directory
  directory : ∀ q ∈ places cwd (join output referencesName), t'.get? q = some .directory
  file : ∀ e ∈ entries, ∃ f,
    t'.get? (destination cwd (join output referencesName) ++ [e.1]) = some (.file f) ∧ f.data = e.2
  frame : ∀ q ∉ places cwd (join output referencesName),
    (∀ e ∈ entries, q ≠ destination cwd (join output referencesName) ++ [e.1]) →
      t'.get? q = t.get? q

lemma isName_references : IsName referencesName := ⟨by decide, by decide, by decide, by decide⟩

/-- Directories on the way to the embedded libraries may be made before. -/
lemma Furnished.of_growsAlong {cwd : List String} {entries : List (String × Bytes)}
    {t t' t'' : FileTree} (hg : t.GrowsAlong (places cwd output) t')
    (h : Furnished cwd output entries t' t'') : Furnished cwd output entries t t'' := by
  have hsub : places cwd output ⊆ places cwd (join output referencesName) := by
    rw [places_join isName_references]
    exact List.subset_append_left _ _
  refine ⟨fun q hq => ?_, h.directory, h.file, fun q hq he => ?_⟩
  · rcases hg q with heq | ⟨hnone, -, -⟩
    · exact heq ▸ h.free q hq
    · exact .inl hnone
  · rcases hg q with heq | ⟨-, -, hin⟩
    · rw [h.frame q hq he, heq]
    · exact absurd (hsub hin) hq

/-- Making the directory for the embedded libraries and writing them into it. -/
lemma furnished_of_extract {count : ℕ} {u : World}
    (hmake : (Files.makeDirectories (join output referencesName) true).run w = .ok () u)
    (hextract : (References.extract reader i (join output referencesName)).run u = .ok count v)
    (hslash : ∀ entries, References.collect reader i = .ok entries →
      ∀ e ∈ entries, '/' ∉ e.1.toList) :
    ∃ entries tree, References.collect reader i = .ok entries ∧ v = { w with tree } ∧
      Furnished w.directory output entries w.tree tree := by
  obtain ⟨entries, u', hentries, -, hmake', hwrite⟩ := References.extract_eq_ok_iff.mp hextract
  obtain ⟨tree, rfl, hfree, hfile, hframe⟩ :=
    (References.isCollection_collect hentries).holds (hslash entries hentries) hwrite
  have hgrows := trans_of (World.GrowsAlong (join output referencesName))
    ((Files.growsAlong_makeDirectoriesTo _ _ _).of_ok hmake)
    ((Files.growsAlong_makeDirectoriesTo _ _ _).of_ok hmake')
  have hdir := Files.isDirectory_of_makeDirectories
    (by rw [Files.lastStep_join isName_references]; decide) hmake'
  obtain ⟨t, rfl, ht⟩ := hgrows
  have hdirs := (FileTree.isDirectory_iff.mp hdir).2
  refine ⟨entries, tree, hentries, rfl, fun q hq => ?_, fun q hq => ?_, fun e he => ?_,
    fun q hq he => ?_⟩
  · rcases ht q with heq | ⟨hnone, -, -⟩
    · exact .inr (heq ▸ hdirs q hq)
    · exact .inl hnone
  · -- A library is never written over a directory, so that none of them stands in the way.
    rw [hframe q, hdirs q hq]
    rintro e he rfl
    exact hfree e he (hdirs _ hq)
  · obtain ⟨x, hf⟩ := hfile e he
    exact ⟨_, hf, rfl⟩
  · rw [hframe q he]
    rcases ht q with heq | ⟨-, -, hin⟩
    · exact heq
    · exact absurd hin hq

/-- What a decompilation comes to once the decompiler is done: the project file is fixed up, and a
summary is written. -/
def conclude (output name : String) (references : ℕ) (r : Int × ℕ) : Action Int := do
  let project ← fixUpProject output name
  summarize output project r.1 r.2 references
  return r.1

/-- The world in which the decompiler is called, once the embedded libraries are counted. -/
abbrev counted (w : World) (count : ℕ) (references : String) : World :=
  { w with
    console := Console.logged w.console .info
      s!"Extracted {count} embedded references to {references}" }

/-- Once the embedded libraries are written out, the decompiler is called. -/
lemma run_fill_of_ok {count : ℕ} {u : World}
    (hmake : (Files.makeDirectories (join (o.directoryFor i) referencesName) true).run w = .ok () u)
    (hextract : (References.extract reader i (join (o.directoryFor i) referencesName)).run u =
      .ok count v) :
    (fill reader d i o (o.directoryFor i)).run w =
      (timed d (jobFor v.directory i o) >>= conclude (o.directoryFor i) i.name count).run
        (counted v count (join (o.directoryFor i) referencesName)) := by
  have hinfo (references : String) :
      (Console.info s!"Extracted {count} embedded references to {references}").run v =
        .ok () (counted v count references) := Console.run_log _ _ _
  have hjob : (⟨i.image, i.name, o.directoryFor i,
      resolverFor v.directory (join (o.directoryFor i) referencesName) o.search o.tolerant⟩ : Job) =
      jobFor v.directory i o := by
    rw [jobFor, resolverFor, Resolver.ofDirectories_eq]
  have hget (w : World) : (get : Action World).run w = .ok w w := rfl
  rw [fill, run_bind_of_ok hmake, run_bind_of_ok hextract, run_bind_of_ok (hinfo _),
    run_bind_of_ok (hget _), ← hjob]
  rfl

lemma fill_eq_ok {took : Int} (h : (fill reader d i o (o.directoryFor i)).run w = .ok took v)
    (hslash : ∀ entries, References.collect reader i = .ok entries →
      ∀ e ∈ entries, '/' ∉ e.1.toList) :
    ∃ entries tree console u console' project u' console'',
      References.collect reader i = .ok entries ∧
      Furnished w.directory (o.directoryFor i) entries w.tree tree ∧
      (d (jobFor w.directory i o)).run { w with
        tree, console, meter := .fresh, clock := w.clock.tail
        journal := w.journal ++ [.decompiling (jobFor w.directory i o)] } = .ok () u ∧
      took = u.clock.headD 0 - w.clock.headD 0 ∧
      (fixUpProject (o.directoryFor i) i.name).run
        { u with console := console', clock := u.clock.tail, meter := w.meter } = .ok project u' ∧
      v = { u' with console := console'' } := by
  obtain ⟨⟨⟩, w₁, hmake, hrest⟩ := bind_eq_ok.mp h
  obtain ⟨count, w₂, hextract, -⟩ := bind_eq_ok.mp hrest
  rw [run_fill_of_ok hmake hextract] at h
  obtain ⟨entries, tree, hentries, rfl, hfurnished⟩ := furnished_of_extract hmake hextract hslash
  obtain ⟨⟨took', files⟩, w₃, htimed, hconclude⟩ := bind_eq_ok.mp h
  obtain ⟨project, w₄, hfix, hrest⟩ := bind_eq_ok.mp hconclude
  obtain ⟨⟨⟩, w₅, hsummarize, hdone⟩ := bind_eq_ok.mp hrest
  cases hdone
  obtain ⟨c', rfl⟩ := (writes_summarize _ _ _ _ _).of_ok hsummarize
  obtain ⟨c, u, rfl, hcases⟩ := run_timed d (jobFor w.directory i o)
    (counted { w with tree } count (join (o.directoryFor i) referencesName))
  rcases hcases with ⟨u', console, hd, heq⟩ | ⟨e, u', console, -, heq⟩
  · cases htimed.symm.trans heq
    exact ⟨entries, tree, c, u', console, project, w₄, c', hentries, hfurnished, hd, rfl, hfix, rfl⟩
  · cases htimed.symm.trans heq

/-- A run that gives a time called the decompiler once, with the job for the image. The decompiler
found the directory for the project with the embedded libraries in it, and apart from that the tree
as it was. What it left is left, except for the project file, which is fixed up. -/
theorem run_eq_some {took : Int} (hc : Console.Asks confirm) (hname : '/' ∉ i.name.toList)
    (hslash : ∀ entries, References.collect reader i = .ok entries →
      ∀ e ∈ entries, '/' ∉ e.1.toList)
    (h : (run reader d confirm i o).run w = .ok (some took) v) :
    ∃ entries qs u u', References.collect reader i = .ok entries ∧
      Questions w.tree w.directory (o.directoryFor i) qs ∧
      (∃ tree console answers, Furnished w.directory (o.directoryFor i) entries w.tree tree ∧
        u = { w with
          tree, console, answers, meter := .fresh, clock := w.clock.tail
          journal := w.journal ++ qs ++ [.decompiling (jobFor w.directory i o)] }) ∧
      (d (jobFor w.directory i o)).run u = .ok () u' ∧
      took = u'.clock.headD 0 - w.clock.headD 0 ∧
      ∃ f text x console,
        u'.tree.get? (destination u'.directory (o.directoryFor i) ++ [i.name ++ ".csproj"]) =
          some (.file f) ∧
        Text.decode? f.data = some text ∧
        v = { u' with
          tree := u'.tree.put
            (destination u'.directory (o.directoryFor i) ++ [i.name ++ ".csproj"])
            (.file ⟨Text.encode (Project.fixUp (Text.unifyNewlines text)), x, u'.now⟩)
          console, clock := u'.clock.tail, meter := w.meter } := by
  obtain ⟨admitted, w₁, hadmits, hrest⟩ := bind_eq_ok.mp h
  obtain ⟨t₁, c₁, answers, qs, hqs, rfl, hgrows, -⟩ := admits_eq_ok hc hadmits
  cases admitted with
  | false =>
    obtain ⟨⟨⟩, u, -, hdone⟩ := bind_eq_ok.mp hrest
    cases hdone
  | true =>
    obtain ⟨took', u, hfill, hdone⟩ := bind_eq_ok.mp hrest
    cases hdone
    obtain ⟨entries, tree, console, u', console', project, v', console'', hentries, hfurnished,
      hd, htook, hfix, rfl⟩ := fill_eq_ok hfill hslash
    obtain ⟨-, -, f, text, x, hf, hdecode, rfl⟩ := fixUpProject_eq_ok hfix
    have hplace : destination u'.directory (projectPath (o.directoryFor i) i.name) =
        destination u'.directory (o.directoryFor i) ++ [i.name ++ ".csproj"] :=
      destination_join (isName_project hname)
    dsimp only at hf ⊢
    rw [hplace] at hf ⊢
    exact ⟨entries, qs, _, u', hentries, hqs,
      ⟨tree, console, answers, hfurnished.of_growsAlong hgrows, rfl⟩, hd, htook,
      f, text, x, console'', hf, hdecode, rfl⟩

/-! ### A sample -/

/-- The view of an image with some resources. -/
def sampleView (resources : List Resource) : ImageView where
  moduleName := "Terraria"
  entryPoint := some "Terraria.WindowsLaunch"
  version := ⟨1, 0, 0, 0⟩
  types := [⟨releaseType, [⟨releaseField, some 1⟩]⟩]
  resources
  references := []
  typeNames := []

/-- A reader that knows one library and one image in which it is embedded; whatever else it is
given is an image without resources. -/
def sampleReader : ImageReader := fun data =>
  if data = [1, 2] then .ok { sampleView [] with moduleName := "Lib" }
  else if data = [77, 90] then .ok (sampleView [⟨"Terraria.Lib.dll", true, some [1, 2]⟩])
  else .ok (sampleView [])

/-- The classification of an image with some resources. -/
def identityOf (image : Bytes) (resources : List Resource) : Identity where
  image
  name := "Terraria"
  side := .client
  platform := .windows
  version := ⟨1, 0, 0, 0⟩
  release := 1
  view := sampleView resources

/-- The image with the library. -/
def sampleIdentity : Identity := identityOf [77, 90] [⟨"Terraria.Lib.dll", true, some [1, 2]⟩]

/-- The image goes to a directory `out`. -/
def sampleOptions : Options := { Options.standard with output := some "out" }

/-- A decompiler that writes nothing but a project file. -/
def sampleDecompiler : Decompiler := fun job =>
  modify fun w => { w with
    tree := w.tree.put (destination w.directory job.output ++ [job.name ++ ".csproj"])
      (.file ⟨Text.encode Project.legacyFramework, false, w.now⟩) }

/-- The library of the sample is found by the decompiler, beside the file that was there. -/
theorem run_eq_some_sample : ∃ v u u',
    (run sampleReader sampleDecompiler Console.confirm sampleIdentity sampleOptions).run
      (World.sample [(["out"], .directory), (["out", "f"], .file ⟨[0], false, 0⟩)] [some "y"]) =
        .ok (some 7) v ∧
      (sampleDecompiler (jobFor ["w"] sampleIdentity sampleOptions)).run u = .ok () u' ∧
      (∃ f, u.tree.get? ["w", "out", "references", "Lib.dll"] = some (.file f) ∧ f.data = [1, 2]) ∧
      u.tree.get? ["w", "out", "f"] = some (.file ⟨[0], false, 0⟩) := by
  obtain ⟨v, hv⟩ := exists_of_result? (a := some 7) (show (run sampleReader sampleDecompiler
    Console.confirm sampleIdentity sampleOptions).result? (World.sample
      [(["out"], .directory), (["out", "f"], .file ⟨[0], false, 0⟩)] [some "y"]) = some (some 7) by
    decide +kernel)
  have hcollect : References.collect sampleReader sampleIdentity = .ok [("Lib.dll", [1, 2])] := by
    decide +kernel
  have hslash : ∀ entries, References.collect sampleReader sampleIdentity = .ok entries →
      ∀ e ∈ entries, '/' ∉ e.1.toList := by
    intro entries h
    cases hcollect.symm.trans h
    decide
  obtain ⟨entries, qs, u, u', hentries, -, ⟨tree, console, answers, hfurnished, rfl⟩, hd, -⟩ :=
    run_eq_some Console.asks_confirm (by decide) hslash hv
  cases hcollect.symm.trans hentries
  refine ⟨v, _, u', hv, hd, hfurnished.file ("Lib.dll", [1, 2]) (by simp), ?_⟩
  exact hfurnished.frame ["w", "out", "f"] (by decide +kernel) (by decide +kernel)

end SourceRecovery.Decompiler
