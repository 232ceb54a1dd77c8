import SourceRecovery.Proofs.CommandLine.Run
import SourceRecovery.Proofs.Server.Recovery

/-!
# What a command line without a target starts

The operator picks a build of the catalog, which is downloaded and extracted, and then platforms of
it. Until then nothing is started; what is started for the platforms is warranted for each, whatever
other options are given.
-/

namespace SourceRecovery

open SourceRecovery.Action SourceRecovery.Path

/-! ### Picking a build -/

lemma Catalog.startsNothing_load (path urlTemplate : Option String) :
    Keeps World.StartsNothing (Catalog.load path urlTemplate) := by
  unfold Catalog.load
  cases path with
  | none => exact .ofExcept _ _
  | some p =>
    refine .bind (.bind (Files.keeps_read _) fun data => ?_) fun text =>
      .bind (.ofExcept _ _) fun data => .ofExcept _ _
    split
    · exact .pure _
    · exact .throwing _

namespace Server

lemma startsNothing_selectWithin (c : Catalog) (bound : ℕ) :
    Keeps World.StartsNothing (selectWithin c bound) := by
  induction bound with
  | zero => exact .throwing _
  | succ bound ih =>
    refine .bind (.forM (fun l => (Console.prints_line l).startsNothing) _) fun _ => ?_
    refine .bind (Console.startsNothing_ask _) fun answer => ?_
    cases answer with
    | none => exact .throwing _
    | some answer =>
      dsimp only
      split
      · exact .pure _
      · exact .bind (Console.prints_log _ _).startsNothing fun _ => ih
      · exact .bind (Console.prints_log _ _).startsNothing fun _ => ih

lemma mem_of_choice {c : Catalog} {answer : String} {b : Build}
    (h : choice c answer = .build b) : b ∈ c.builds := by
  unfold choice Catalog.build? at h
  split at h
  · cases h
  · split at h
    · rename_i b' hb
      cases h
      split_ifs at hb
      exact List.mem_of_getElem? hb
    · cases h

/-- A build that is picked is one of the catalog. -/
lemma mem_of_selectWithin {c : Catalog} {bound : ℕ} {b : Build} {w v : World}
    (h : (selectWithin c bound).run w = .ok b v) : b ∈ c.builds := by
  induction bound generalizing w with
  | zero => cases h
  | succ bound ih =>
    obtain ⟨-, w₁, -, hrest₁⟩ := bind_eq_ok.mp h
    obtain ⟨answer, w₂, -, hrest₂⟩ := bind_eq_ok.mp hrest₁
    cases answer with
    | none => cases hrest₂
    | some answer =>
      dsimp only at hrest₂
      cases hchoice : choice c (Text.trim answer) with
      | build b' =>
        simp only [hchoice] at hrest₂
        cases hrest₂
        exact mem_of_choice hchoice
      | notNumber | outOfRange =>
        simp only [hchoice] at hrest₂
        obtain ⟨-, w₃, -, hrest₃⟩ := bind_eq_ok.mp hrest₂
        exact ih hrest₃

lemma startsNothing_select (c : Catalog) : Keeps World.StartsNothing (select c) :=
  .bind (fun w => refl_of World.StartsNothing w) fun _ => startsNothing_selectWithin _ _

end Server

namespace CommandLine

variable {reader : ImageReader} {o : Options} {w v : World}

lemma writes_banner [Stream] : Console.Writes Console.banner :=
  .seeing (fun _ => ⟨_, rfl⟩) fun _ => .seq (Console.writes_line _) <|
    .seq (.forM Console.writes_line _) (Console.writes_line _)

lemma startIn_journal (o : Options) (w : World) : (o.startIn w).journal = w.journal := by
  unfold Options.startIn
  split_ifs <;> rfl

lemma startIn_directory (o : Options) (w : World) : (o.startIn w).directory = w.directory := by
  unfold Options.startIn
  split_ifs <;> rfl

lemma startIn_answers (o : Options) (w : World) : (o.startIn w).answers = w.answers := by
  unfold Options.startIn
  split_ifs <;> rfl

section Objects

variable [Template.Objects]

/-- What comes in front of the platforms: a build of the catalog is picked, downloaded and
extracted, and platforms of it are chosen. It gives the directory of the build, too. -/
def approach (o : Options) : Action (String × List Platform) := do
  Console.banner
  let c ← Catalog.load o.catalog o.urlTemplate
  let b ← Server.select c
  Server.approach c b "."

lemma startsNothing_approach (o : Options) : Keeps World.StartsNothing (approach o) :=
  .bind writes_banner.prints.startsNothing fun _ => .bind (Catalog.startsNothing_load _ _) fun c =>
    .bind (Server.startsNothing_select c) fun b => Server.startsNothing_approach c b "."

/-- The directory of a build that is picked: a build of the catalog, in the directory that its
archive is extracted into. Its platforms are what the last answer chooses that is used up. -/
lemma approach_eq_ok {common : String} {platforms : List Platform}
    (h : (approach o).run w = .ok (common, platforms) v) :
    ∃ console c b stem front answer,
      (Catalog.load o.catalog o.urlTemplate).result? { w with console } = some c ∧
      b ∈ c.builds ∧ c.stemOf b = .ok stem ∧
      common = absolute w.directory (join (join "." stem) b.version) ∧
      w.answers = front ++ some answer :: v.answers ∧ platforms = Server.platformsOf answer := by
  obtain ⟨⟨⟩, w₁, hbanner, hrest₁⟩ := bind_eq_ok.mp h
  obtain ⟨c, w₂, hload, hrest₂⟩ := bind_eq_ok.mp hrest₁
  obtain ⟨b, w₃, hselect, hrest₃⟩ := bind_eq_ok.mp hrest₂
  obtain ⟨stem, back, answer, hstem, hcommon, hanswers, hplatforms⟩ :=
    Server.approach_eq_ok hrest₃
  obtain ⟨console, rfl⟩ := writes_banner.of_ok hbanner
  obtain ⟨w₄, w₅, -, hwithin⟩ := bind_eq_ok.mp hselect
  have hkept := trans_of World.StartsNothing ((Catalog.startsNothing_load _ _).of_ok hload)
    ((Server.startsNothing_select c).of_ok hselect)
  obtain ⟨front, hfront⟩ := hkept.answers
  refine ⟨console, c, b, stem, front ++ back, answer, by rw [result?, hload],
    Server.mem_of_selectWithin hwithin, hstem, by rw [hcommon, hkept.directory], ?_, hplatforms⟩
  rw [List.append_assoc, ← hanswers]
  exact hfront.symm

/-- After the approach, the platforms are gone through; apart from that nothing is started. -/
lemma starts_runServer (reader : ImageReader) (s : External.Settings) (o : Options) (w : World) :
    startsOf ((runServer reader (External.decompiler reader s) o).after w).journal =
      startsOf ((approach o >>= fun (common, platforms) =>
        platforms.forM (Server.recoverPlatform reader (External.decompiler reader s)
          common)).after w).journal := by
  have hrecover (c : Catalog) (u : World) :
      startsOf ((Server.recover reader (External.decompiler reader s) c ".").after u).journal =
        startsOf ((do
          let b ← Server.select c
          Server.recoverBuild reader (External.decompiler reader s) c b "." :
            Action Unit).after u).journal := by
    refine (Keeps.after_catching (R := World.StartsNothing) (fun e => ?_) _ u).starts
    split
    · exact (Console.prints_log _ _).startsNothing
    · exact .throwing _
  simp only [approach, bind_assoc, ← Server.recoverBuild_eq]
  refine after_bind_congr (F := fun v => startsOf v.journal) (fun _ _ => ?_) _ w
  exact after_bind_congr (F := fun v => startsOf v.journal) (fun c u => hrecover c u) _ _

/-- What is done about a fault in the end starts nothing. -/
lemma starts_runOptions (reader : ImageReader) (o : Options) (w : World) :
    startsOf ((runOptions reader o).after w).journal =
      startsOf ((course reader o).after (o.startIn w)).journal := by
  have hrun := run_runOptions reader o w
  cases hcourse : (course reader o).run (o.startIn w) with
  | ok a v =>
    rw [hcourse] at hrun
    rw [after_of_ok hrun, after_of_ok hcourse]
  | error e v =>
    rw [hcourse] at hrun
    rw [after_of_error hcourse]
    cases he : e.isReported with
    | true =>
      simp only [he, if_true, Console.error, Console.run_log] at hrun
      rw [after_of_ok hrun]
    | false =>
      simp only [he, Bool.false_eq_true, if_false] at hrun
      rw [after_of_error hrun]

/-- A command line that asks for no run starts nothing. -/
lemma starts_of_not_run {words : List String} (h : ∀ o, Request.read words ≠ .ok (.run o))
    (reader : ImageReader) (w : World) :
    startsOf ((run reader words).after w).journal = startsOf w.journal := by
  have hhelp : Console.Prints (helpLines.forM Console.line) :=
    (Console.Writes.forM Console.writes_line _).prints
  unfold run
  cases hread : Request.read words with
  | error e => rfl
  | ok request =>
    cases request with
    | help => exact ((Keeps.bind hhelp.startsNothing fun _ => .pure _) w).starts
    | run o => exact absurd hread (h o)

/-- A command line without a target starts nothing in front of the platforms that the operator
chooses for a build, by the last answer that is used up until then. Then it goes through them: what
is started is warranted, for some of the platforms in their order and each at most once, and a
platform is left out only if its directory is refused, or if it or one in front of it fails. -/
theorem run_starts_in_order (reader : ImageReader) (words : List String) (w : World) :
    ((∀ o, Request.read words ≠ .ok (.run o)) →
      startsOf ((run reader words).after w).journal = startsOf w.journal) ∧
    ∀ o, Request.read words = .ok (.run o) → o.targets = [] →
      (∀ e v, (approach o).run (o.startIn w) = .error e v →
        startsOf ((run reader words).after w).journal = startsOf w.journal) ∧
      ∀ common platforms v, (approach o).run (o.startIn w) = .ok (common, platforms) v →
        (∃ console c b stem front answer,
          (Catalog.load o.catalog o.urlTemplate).result? { o.startIn w with console } = some c ∧
          b ∈ c.builds ∧ c.stemOf b = .ok stem ∧
          common = absolute w.directory (join (join "." stem) b.version) ∧
          w.answers = front ++ some answer :: v.answers ∧
          platforms = Server.platformsOf answer) ∧
        v.directory = w.directory ∧
        ∃ xs, Server.Passes reader ⟨o.decompiler, []⟩ common platforms v xs ∧
          (xs.map Server.Start.platform).Sublist platforms ∧
          (xs.map Server.Start.platform).Nodup ∧
          startsOf ((run reader words).after w).journal =
            startsOf w.journal ++ xs.map fun x => (x.command, x.image) := by
  refine ⟨fun h => starts_of_not_run h reader w, fun o hread htargets => ?_⟩
  have hrun : startsOf ((run reader words).after w).journal =
      startsOf ((approach o >>= fun (common, platforms) => platforms.forM
        (Server.recoverPlatform reader (External.decompiler reader ⟨o.decompiler, []⟩)
          common)).after (o.startIn w)).journal := by
    have hwords : run reader words = runOptions reader o := by rw [run, hread]
    have hcourse : course reader o =
        runServer reader (External.decompiler reader ⟨o.decompiler, []⟩) o := by
      rw [course, htargets]
    rw [hwords, starts_runOptions, hcourse, starts_runServer]
  refine ⟨fun e v herror => ?_, fun common platforms v hok => ?_⟩
  · rw [hrun, after_of_error (run_bind_of_error herror),
      ((startsNothing_approach o).of_error herror).starts, startIn_journal]
  · have hnone := (startsNothing_approach o).of_ok hok
    obtain ⟨console, c, b, stem, front, answer, hload, hb, hstem, hcommon, hanswers, hplatforms⟩ :=
      approach_eq_ok hok
    obtain ⟨xs, hxs, hstarts⟩ := Server.exists_passes reader ⟨o.decompiler, []⟩ common platforms v
    rw [startIn_directory] at hcommon
    rw [startIn_answers] at hanswers
    refine ⟨⟨console, c, b, stem, front, answer, hload, hb, hstem, hcommon, hanswers, hplatforms⟩,
      hnone.directory.trans (startIn_directory o w), xs, hxs, hxs.sublist,
      hxs.sublist.nodup (hplatforms ▸ Server.nodup_platformsOf answer), ?_⟩
    rw [hrun, after_bind_of_ok hok, hstarts, hnone.starts, startIn_journal]

end Objects

/-! ### A sample -/

/-- A reader to which everything is an image that refers to one library. -/
def referringReader : ImageReader := fun _ =>
  .ok { References.hostView .windows [] with references := ["Lib"] }

/-- The command line names a catalog with one build. -/
def sampleWords : List String := ["--catalog", "c.json"]

/-- A build is extracted already, and is to be recovered as it is. The library is in the working
directory. -/
def extractedSample : World where
  tree := ⟨[(["tmp"], .directory), (["bin"], .directory),
    (["bin", "ilspycmd"], .file ⟨[], true, 0⟩), (["w"], .directory),
    (["w", "c.json"], .file
      ⟨Text.encode
        "\x7b\"url_template\":\"u\",\"builds\":\x7b\"0\":\x7b\"version\":\"1423\"\x7d\x7d\x7d",
        false, 0⟩),
    (["w", "Lib.dll"], .file ⟨[], false, 0⟩),
    (["w", "terraria-server-1423.zip"], .file ⟨[], false, 0⟩),
    (["w", "terraria-server-1423"], .directory),
    (["w", "terraria-server-1423", "1423"], .directory),
    (["w", "terraria-server-1423", "1423", "Windows"], .directory),
    (["w", "terraria-server-1423", "1423", "Windows", "TerrariaServer.exe"],
      .file ⟨[77], false, 0⟩)]⟩
  directory := ["w"]
  programs := ["/bin"]
  console := ⟨"", false, false⟩
  meter := .fresh
  answers := [some "0", some "n", some "n", some "w"]
  network := []
  clock := []
  processes := []
  now := 1
  journal := []

/-- The program is started once, for the image of the platform that is chosen. -/
theorem run_starts_in_order_sample : ∃ common platforms v x,
    Server.Passes referringReader ⟨"ilspycmd", []⟩ common platforms v [x] ∧
      x.platform ∈ platforms ∧ x.image = [77] := by
  have hread : Request.read sampleWords =
      .ok (.run { Options.standard with catalog := some "c.json" }) := by decide +kernel
  have hnone : startsOf extractedSample.journal = [] := rfl
  have hstarts : startsOf ((run referringReader sampleWords).after extractedSample).journal =
      [(["/bin/ilspycmd", "-p", "-o", "/w/1.4.0.5-230-Windows-Server", "-r", "/w", "-r",
        "/w/1.4.0.5-230-Windows-Server/references",
        "/tmp/sourcegetter_imagetmp/TerrariaServer.exe"], [77])] := by decide +kernel
  obtain ⟨-, hrun⟩ := run_starts_in_order referringReader sampleWords extractedSample
  obtain ⟨hstops, hpasses⟩ := hrun _ hread rfl
  cases happroach : (approach { Options.standard with catalog := some "c.json" }).run
      (({ Options.standard with catalog := some "c.json" } : Options).startIn extractedSample) with
  | error e v =>
    have hnothing := hstops e v happroach
    rw [hstarts, hnone] at hnothing
    cases hnothing
  | ok chosen v =>
    obtain ⟨common, platforms⟩ := chosen
    obtain ⟨-, -, xs, hxs, hsublist, -, hstarted⟩ := hpasses common platforms v happroach
    rw [hstarts, hnone, List.nil_append] at hstarted
    obtain ⟨x, rfl⟩ : ∃ x, xs = [x] := by
      have hlength := congrArg List.length hstarted
      exact List.length_eq_one_iff.mp (by simpa using hlength.symm)
    obtain ⟨-, himage⟩ := Prod.mk.inj (List.cons_eq_cons.mp hstarted).1
    exact ⟨common, platforms, v, x, hxs, List.singleton_sublist.mp hsublist, himage.symm⟩

end CommandLine

end SourceRecovery
