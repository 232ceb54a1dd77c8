import SourceRecovery.Proofs.Decompiler.Log
import SourceRecovery.Proofs.Decompiler.Progress

/-!
# The course of the external decompiler

What happens to a job: it is turned away before anything is done, or the program is started once
with an image and a log in a temporary directory, is looked at until it has ended, and the temporary
directory is removed however this goes.
-/

namespace SourceRecovery

/-- The texts of a job can be given to the system, and its name is no path. -/
structure Job.IsPlain (job : Job) : Prop where
  name_slash : '/' ∉ job.name.toList
  name_uncut : '\x00' ∉ job.name.toList
  name_encodable : Text.isEncodable job.name = true
  output_uncut : '\x00' ∉ job.output.toList
  output_encodable : Text.isEncodable job.output = true

lemma Job.IsPlain.isAdmissible_output {job : Job} (h : job.IsPlain) :
    Path.IsAdmissible job.output := ⟨h.output_encodable, h.output_uncut⟩

namespace External

open SourceRecovery.Action SourceRecovery.Path

variable {reader : ImageReader} {s : Settings} {job : Job} {w v : World} {cwd : List String}
  {t : FileTree}

/-! ### The temporary directory -/

/-- The place of the temporary directory. -/
def home : List String := ["tmp", "sourcegetter_imagetmp"]

def imageName (job : Job) : String := job.name ++ ".exe"

def logName : String := "ilspycmd.log"

/-- There is room for the temporary directory: the directory for it is there, and nothing in its
place. -/
structure HasRoom (t : FileTree) : Prop where
  parent : t.get? ["tmp"] = some .directory
  free : ∀ q, home <+: q → t.get? q = none

/-- The tree in which the program is started: the temporary directory holds the image, and a log
that is empty. -/
def startTree (w : World) (job : Job) : FileTree :=
  ((w.tree.put home .directory).put (home ++ [imageName job]) (.file ⟨job.image, false, w.now⟩)).put
    (home ++ [logName]) (.file ⟨[], false, w.now⟩)

lemma places_temporaryDirectory (cwd : List String) :
    places cwd temporaryDirectory = [[], ["tmp"], home] := by
  have horigin : origin cwd temporaryDirectory = [] := by
    rw [origin, if_pos (by decide)]
  rw [places, horigin]
  decide

lemma destination_temporaryDirectory (cwd : List String) :
    destination cwd temporaryDirectory = home := by
  have h := dropLast_places_append cwd temporaryDirectory
  rw [places_temporaryDirectory] at h
  simpa using h

lemma isPlain_temporaryDirectory : IsPlain temporaryDirectory :=
  ⟨by decide, by decide, by decide⟩

lemma isName_imageName (h : '/' ∉ job.name.toList) : IsName (imageName job) :=
  isName_append h (by decide) (by decide)

lemma isName_logName : IsName logName := ⟨by decide, by decide, by decide, by decide⟩

lemma isPlain_imageName (h : job.IsPlain) : IsPlain (imageName job) :=
  isPlain_append h.name_encodable h.name_uncut ⟨by decide, by decide, by decide⟩

lemma isPlain_logName : IsPlain logName := ⟨by decide, by decide, by decide⟩

/-- The temporary directory is there, and nothing with some name is in it. -/
structure Offers (t : FileTree) (name : String) : Prop where
  parent : t.get? ["tmp"] = some .directory
  home : t.get? home = some .directory
  free : t.get? (External.home ++ [name]) = none

/-- A file is written into the temporary directory. -/
lemma run_write_home {name : String} (hname : IsName name) (hplain : IsPlain name)
    (h : Offers w.tree name) (data : Bytes) :
    (Files.write (join temporaryDirectory name) data).run w = .ok () { w with
      tree := w.tree.put (home ++ [name]) (.file ⟨data, false, w.now⟩) } := by
  have hdest : destination w.directory (join temporaryDirectory name) = home ++ [name] := by
    rw [destination_join hname, destination_temporaryDirectory]
  have hwrite : w.tree.write w.directory w.now (join temporaryDirectory name) data =
      .ok (w.tree.put (home ++ [name]) (.file ⟨data, false, w.now⟩)) := by
    rw [← hdest]
    refine FileTree.write_of_none (isPlain_temporaryDirectory.join hplain) (fun q hq => ?_)
      (endsInSlash_of_name (by rw [name_join hname]; exact hname.ne_empty)) (hdest ▸ h.free) _ _
    rw [places_join hname, List.dropLast_concat, places_temporaryDirectory] at hq
    simp only [List.mem_cons, List.not_mem_nil, or_false] at hq
    rcases hq with rfl | rfl | rfl
    · rfl
    · exact h.parent
    · exact h.home
  rw [Files.run_write, hwrite]

/-! ### Starting the program -/

lemma home_append_ne (name : String) : home ++ [name] ≠ home := by simp

lemma tmp_ne_home_append (name : String) : ["tmp"] ≠ home ++ [name] := by simp [home]

lemma imageName_ne_logName (job : Job) : imageName job ≠ logName := by
  intro h
  have hlast := congrArg (fun name : String => name.toList.getLast?) h
  simp [imageName, logName] at hlast

/-- Once the image is written, there is room for the log. -/
lemma offers_logName (h : HasRoom w.tree) (f : File) :
    Offers ((w.tree.put home .directory).put (home ++ [imageName job]) (.file f)) logName where
  parent := by
    rw [FileTree.get?_put_of_ne _ _ (tmp_ne_home_append _),
      FileTree.get?_put_of_ne _ _ (by decide), h.parent]
  home := by
    rw [FileTree.get?_put_of_ne _ _ (home_append_ne _).symm,
      FileTree.get?_put_self _ _ (by decide)]
  free := by
    have hne : home ++ [logName] ≠ home ++ [imageName job] := by
      simpa using (imageName_ne_logName job).symm
    rw [FileTree.get?_put_of_ne _ _ hne, FileTree.get?_put_of_ne _ _ (home_append_ne _),
      h.free _ (List.prefix_append _ _)]

lemma offers_imageName (h : HasRoom w.tree) :
    Offers (w.tree.put home .directory) (imageName job) where
  parent := by rw [FileTree.get?_put_of_ne _ _ (by decide), h.parent]
  home := FileTree.get?_put_self _ _ (by decide)
  free := by
    rw [FileTree.get?_put_of_ne _ _ (home_append_ne _), h.free _ (List.prefix_append _ _)]

/-- The process that plays the program that is started next. -/
def nextRun (w : World) : ProcessRun := w.processes.headD ⟨[], [], 0⟩

/-- The command that starts the program: the directories of the resolver and more arguments stand
between the absolute directory for the project and the image. -/
def startCommand (s : Settings) (program : String) (cwd : List String) (job : Job) : List String :=
  [program, "-p", "-o", absolute cwd job.output] ++
    job.resolver.directories.flatMap (fun d => ["-r", d]) ++ s.arguments ++
    [join temporaryDirectory (imageName job)]

lemma destination_log (cwd : List String) :
    destination cwd (join temporaryDirectory logName) = home ++ [logName] := by
  rw [destination_join isName_logName, destination_temporaryDirectory]

lemma isSource_logName (place : List String) : Sources.isSource (place ++ [logName]) = false := by
  rw [Sources.isSource_append (List.cons_ne_nil _ _)]
  decide

/-- The image is not written where the log is. -/
lemma destination_image_ne (cwd : List String) (job : Job) :
    destination cwd (join temporaryDirectory (imageName job)) ≠ home ++ [logName] := by
  have hname : name (join temporaryDirectory (imageName job)) =
      name (join temporaryDirectory job.name) ++ ".exe" := by
    rw [imageName, join_append (by decide), name_append (by decide)]
  have hn : IsName (name (join temporaryDirectory (imageName job))) := by
    rw [hname]
    exact isName_append (slash_notMem_name _) (by decide) (by decide)
  rw [destination_eq_parent cwd hn.ne_empty, hn.step, hname]
  intro h
  have hlast := congrArg (fun name : String => name.toList.getLast?)
    (List.append_singleton_inj.mp h).2
  simp [logName] at hlast

/-- What a start needs can be given to the system: the texts of the job, and every word of the
command. -/
structure CanStart (s : Settings) (program : String) (cwd : List String) (job : Job) : Prop where
  plain : job.IsPlain
  words : ∀ word ∈ startCommand s program cwd job, IsAdmissible word

/-- What is found in a tree before the program is started there. -/
def baselineOf (start : FileTree) (w : World) (job : Job) : List (String × Int) :=
  Sources.survey start w.directory job.output

/-- What remains once the program is started in some tree: to wait for it. -/
def awaiting (start : FileTree) (w : World) (job : Job) (total : Int) : Action Unit :=
  await job.output (baselineOf start w job) total (components (absolute w.directory job.output))
    (join temporaryDirectory logName) (nextRun w)

/-- The world in which the program has been started in some tree. -/
def startedWorld (s : Settings) (program : String) (start : FileTree) (w : World) (job : Job) :
    World :=
  { w with
    tree := start
    processes := w.processes.tail
    journal := w.journal ++ [.started (startCommand s program w.directory job) job.image] }

/-- Once the image and the log are written, the program is started if the directory for the project
can be surveyed and every word of the command can be given to the system. -/
lemma run_runProgram_of_ok {t start : FileTree} {program : String} (total : Int)
    (houtput : IsAdmissible job.output)
    (hwords : ∀ word ∈ startCommand s program w.directory job, IsAdmissible word) {w₀ : World}
    (himage : (Files.write (join temporaryDirectory (imageName job)) job.image).run w₀ =
      .ok () { w with tree := t })
    (hlog : (Files.write (join temporaryDirectory logName) []).run { w with tree := t } =
      .ok () { w with tree := start }) :
    (runProgram s program total job).run w₀ =
      (awaiting start w job total).run (startedWorld s program start w job) := by
  have hsurvey : Sources.survey t w.directory job.output = baselineOf start w job := by
    obtain ⟨hd, x, hstart⟩ := Files.write_eq_ok hlog
    rw [destination_log] at hd hstart
    have htree : start = t.put (home ++ [logName]) (.file ⟨[], x, w.now⟩) :=
      congrArg World.tree hstart
    rw [baselineOf, htree, Sources.survey_put (isSource_logName home) hd]
  have hread : (Files.read (join temporaryDirectory (imageName job))).run { w with tree := start } =
      .ok job.image { w with tree := start } := by
    have himage' := Files.read_of_write_of_ne (Files.read_of_write himage) hlog
      (by rw [destination_log]; exact destination_image_ne _ _)
    rw [Files.run_read]
    simp only [himage']
  unfold runProgram
  refine (run_bind_of_ok himage).trans ?_
  refine (run_bind_of_ok (Files.run_inspect _)).trans ?_
  refine (run_bind_of_ok (Sources.run_snapshot houtput _)).trans ?_
  refine (run_bind_of_ok hlog).trans ?_
  refine (run_bind_of_ok (Files.run_give hwords _)).trans ?_
  refine (run_bind_of_ok hread).trans ?_
  simp only [hsurvey]
  rfl

/-- In the temporary directory, the image and an empty log are written, and the program is
started. -/
lemma run_runProgram {program : String} (h : CanStart s program w.directory job)
    (hroom : HasRoom w.tree) (total : Int) :
    (runProgram s program total job).run { w with tree := w.tree.put home .directory } =
      (awaiting (startTree w job) w job total).run
        (startedWorld s program (startTree w job) w job) := by
  have himage := run_write_home (w := { w with tree := w.tree.put home .directory })
    (isName_imageName h.plain.name_slash) (isPlain_imageName h.plain) (offers_imageName hroom)
    job.image
  have hlog := run_write_home (w := { w with
      tree := (w.tree.put home .directory).put (home ++ [imageName job])
        (.file ⟨job.image, false, w.now⟩) })
    isName_logName isPlain_logName (offers_logName hroom _) []
  exact run_runProgram_of_ok total h.plain.isAdmissible_output h.words himage
    hlog

/-- Some job leads to no start, which changes nothing but the tree, or the program is started in a
tree that differs in the temporary directory and in the image only. -/
lemma runProgram_cases (s : Settings) (program : String) (total : Int) (job : Job) (w : World) :
    (∃ e v, (runProgram s program total job).run w = .error e v ∧ w.OnlyTree v) ∨
      ∃ start, IsPlain (join temporaryDirectory (imageName job)) ∧
        IsAdmissible job.output ∧
        (∀ word ∈ startCommand s program w.directory job, IsAdmissible word) ∧
        (∀ q, ¬home <+: q → q ≠ destination w.directory (join temporaryDirectory (imageName job)) →
          start.get? q = w.tree.get? q) ∧
        (runProgram s program total job).run w =
          (awaiting start w job total).run (startedWorld s program start w job) := by
  cases himage : (Files.write (join temporaryDirectory (imageName job)) job.image).run w with
  | error e v =>
    refine .inl ⟨e, v, run_bind_of_error himage, ?_⟩
    exact Files.write_eq_error himage ▸ refl_of World.OnlyTree w
  | ok a v =>
    obtain ⟨hplain, -, -⟩ := Files.follows_of_write himage
    obtain ⟨-, x, rfl⟩ := Files.write_eq_ok himage
    set t := w.tree.put (destination w.directory (join temporaryDirectory (imageName job)))
      (.file ⟨job.image, x, w.now⟩) with ht
    by_cases houtput : IsAdmissible job.output
    · cases hlog : (Files.write (join temporaryDirectory logName) []).run { w with tree := t } with
      | error e v =>
        refine .inl ⟨e, v, (run_bind_of_ok himage).trans <|
          (run_bind_of_ok (Files.run_inspect _)).trans <|
          (run_bind_of_ok (Sources.run_snapshot houtput _)).trans
          (run_bind_of_error hlog), ?_⟩
        exact Files.write_eq_error hlog ▸ ⟨t, rfl⟩
      | ok a v =>
        obtain ⟨-, y, rfl⟩ := Files.write_eq_ok hlog
        rw [destination_log] at hlog
        set start := t.put (home ++ [logName]) (.file ⟨[], y, w.now⟩) with hstart
        by_cases hwords : ∀ word ∈ startCommand s program w.directory job, IsAdmissible word
        · refine .inr ⟨start, hplain, houtput, hwords, fun q hq hne => ?_,
            run_runProgram_of_ok total houtput hwords himage hlog⟩
          have hlogged : q ≠ home ++ [logName] := by
            rintro rfl
            exact hq (List.prefix_append _ _)
          rw [hstart, FileTree.get?_put_of_ne _ _ hlogged, ht, FileTree.get?_put_of_ne _ _ hne]
        · push Not at hwords
          obtain ⟨e, he⟩ := Files.exists_give_error hwords { w with tree := start }
          exact .inl ⟨e, _, (run_bind_of_ok himage).trans <|
            (run_bind_of_ok (Files.run_inspect _)).trans <|
            (run_bind_of_ok (Sources.run_snapshot houtput _)).trans <|
            (run_bind_of_ok hlog).trans (run_bind_of_error he), start, rfl⟩
    · obtain ⟨e, -, he⟩ := Sources.exists_snapshot_error houtput { w with tree := t }
      exact .inl ⟨e, _, (run_bind_of_ok himage).trans <|
        (run_bind_of_ok (Files.run_inspect _)).trans (run_bind_of_error he), t, rfl⟩

/-! ### Waiting for its end -/

/-- The last lines of a log. -/
def lastLines (log : Bytes) : String :=
  String.ofList (Text.tail logTail (Text.unifyNewlineChars (Text.readableChars log)))

/-- The last lines of the log that a path leads to; there are none where it cannot be read. -/
def lastLinesAt (t : FileTree) (cwd : List String) (p : String) : String :=
  match t.read cwd p with
  | .ok log => lastLines log
  | .error _ => ""

lemma run_readLogTail {p : String} (hp : IsPlain p) (w : World) :
    (readLogTail p logTail).run w = .ok (lastLinesAt w.tree w.directory p) w := by
  unfold lastLinesAt
  cases hr : w.tree.read w.directory p with
  | ok log => exact run_readLogTail_of_ok hr logTail
  | error problem =>
    have hsystem := (FileTree.isSystem_of_read_iff hr).mpr hp.isAdmissible
    rw [run_readLogTail_of_error hr, if_pos hsystem]

/-- The tree once a program that was started in some tree has ended: it made all of its changes, and
its log is written. -/
def endTree (start : FileTree) (w : World) (job : Job) : FileTree :=
  Files.extended (start.performed (components (absolute w.directory job.output))
    (nextRun w).polls.flatten) w.directory w.now (join temporaryDirectory logName) (nextRun w).log

/-- What is found at the looks at a program that was started in some tree. -/
def surveysOf (start : FileTree) (w : World) (job : Job) : List (List (String × Int)) :=
  (looks (components (absolute w.directory job.output)) start (nextRun w).polls).map
    (Sources.survey · w.directory job.output)

/-- How a job ends that was started: with a result if the exit code is zero, and else with the last
lines of the log. -/
def Ends (x : Action Unit) (exit : Int) (log : String) (w v : World) : Prop :=
  (exit = 0 ∧ x.run w = .ok () v) ∨
    (exit ≠ 0 ∧ x.run w = .error (.decompiler (.failed exit log)) v)

lemma isPlain_log : IsPlain (join temporaryDirectory logName) :=
  isPlain_temporaryDirectory.join isPlain_logName

/-- Waiting for a program reports what it writes, and tells how it ended; it stops early only where
the count is beyond what can be drawn. -/
lemma awaiting_cases (houtput : IsAdmissible job.output)
    (s : Settings) (program : String) (start : FileTree) (w : World) (total : Int) :
    ∃ front t v, front <+: account (baselineOf start w job) (surveysOf start w job) [] ∧
      Console.Reported total front
        { startedWorld s program start w job with tree := t } v ∧
      ((awaiting start w job total).run (startedWorld s program start w job) =
          .error .outOfRange v ∧ 2 ^ 1000 ≤ v.meter.completed ∨
        front = account (baselineOf start w job) (surveysOf start w job) [] ∧
          t = endTree start w job ∧ Ends (awaiting start w job total) (nextRun w).exit
            (lastLinesAt (endTree start w job) w.directory (join temporaryDirectory logName))
            (startedWorld s program start w job) v) := by
  have hlog :
      Sources.isSource (destination w.directory (join temporaryDirectory logName)) = false := by
    rw [destination_log]
    exact isSource_logName home
  obtain ⟨v, ⟨hv, hok⟩ | ⟨herror, hbound, front, t, hfront, hv⟩⟩ :=
    reports_watch (w := startedWorld s program start w job) houtput hlog
      (baselineOf start w job) total (components (absolute w.directory job.output)) (nextRun w).log
      (nextRun w).polls []
  · refine ⟨_, _, v, List.prefix_refl _, hv, .inr ⟨rfl, rfl, ?_⟩⟩
    by_cases hexit : (nextRun w).exit = 0
    · refine .inl ⟨hexit, (run_bind_of_ok hok).trans ?_⟩
      rw [hexit]
      rfl
    · obtain ⟨hvtree, hvdirectory, -⟩ := hv.files
      have htail := run_readLogTail isPlain_log v
      rw [hvtree, hvdirectory] at htail
      refine .inr ⟨hexit, (run_bind_of_ok hok).trans ?_⟩
      rw [if_pos hexit]
      exact (run_bind_of_ok htail).trans rfl
  · exact ⟨front, t, v, hfront, hv, .inl ⟨run_bind_of_error herror, hbound⟩⟩

/-! ### Cleaning up -/

/-- The temporary directory is removed with all that it holds, and nothing else. -/
lemma run_cleanUp (w : World) : ∃ t, cleanUp.run w = .ok () { w with tree := t } ∧
    t.isDirectory w.directory temporaryDirectory = false ∧
    ∀ q, ¬home <+: q → t.get? q = w.tree.get? q := by
  cases hd : w.tree.isDirectory w.directory temporaryDirectory with
  | false =>
    refine ⟨w.tree, ?_, hd, fun _ _ => rfl⟩
    simp only [cleanUp, Files.isDirectory, EStateM.run_bind, Files.run_inspect, hd,
      Bool.false_eq_true, if_false, EStateM.run_pure]
  | true =>
    have hname : IsName (name temporaryDirectory) :=
      ⟨by decide, by decide, by decide, slash_notMem_name _⟩
    have hrun := Files.run_removeAll hd hname
    rw [destination_temporaryDirectory] at hrun
    refine ⟨(w.tree.eraseBelow home).erase home, ?_, ?_, fun q hq => ?_⟩
    · simp only [cleanUp, Files.isDirectory, EStateM.run_bind, Files.run_inspect, hd, if_true]
      exact hrun
    · rw [Bool.eq_false_iff]
      intro hdir
      have hhome := (FileTree.isDirectory_iff.mp hdir).2 home (by simp [places_temporaryDirectory])
      rw [FileTree.get?_erase_self _ (by decide)] at hhome
      cases hhome
    · have hne : q ≠ home := by
        rintro rfl
        exact hq (List.prefix_refl _)
      rw [FileTree.get?_erase_of_ne _ hne, FileTree.get?_eraseBelow, if_neg fun h => hq h.1]

/-! ### A whole job -/

/-- The ways in which a job is turned away, in the order in which they are found out: the program is
not found, the image cannot be read, or its references do not resolve. -/
inductive TurnedAway (reader : ImageReader) (s : Settings) (job : Job) (w : World) : Fault → Prop
  | notInstalled (missing : (Files.findProgram s.executable).result? w = some none) :
      TurnedAway reader s job w (.decompiler (.notInstalled s.executable))
  | unreadable {program : String} {cause : ImageError}
      (found : (Files.findProgram s.executable).result? w = some (some program))
      (unreadable : reader job.image = .error cause) : TurnedAway reader s job w (.image cause)
  | unresolved {program : String} {view : ImageView} {names : List String}
      (found : (Files.findProgram s.executable).result? w = some (some program))
      (readable : reader job.image = .ok view)
      (unresolved : job.resolver.check w.tree w.directory view.references = .error names) :
      TurnedAway reader s job w (.unresolved names)

/-- A job is accepted: the program is found, the image can be read, and its references are checked
without an error. -/
structure Accepted (reader : ImageReader) (s : Settings) (job : Job) (w : World)
    (program : String) (view : ImageView) : Prop where
  found : (Files.findProgram s.executable).result? w = some (some program)
  readable : reader job.image = .ok view
  resolved : ∃ names, job.resolver.check w.tree w.directory view.references = .ok names

/-- One program is found for a job. -/
lemma Accepted.program_eq {program program' : String} {view view' : ImageView}
    (h : Accepted reader s job w program view) (h' : Accepted reader s job w program' view') :
    program = program' :=
  Option.some.inj (Option.some.inj (h.found.symm.trans h'.found))

lemma exists_findProgram (name : String) (w : World) :
    ∃ found, (Files.findProgram name).run w = .ok found w := by
  simp only [Files.findProgram, EStateM.run_bind, EStateM.run_get]
  split <;> exact ⟨_, rfl⟩

lemma run_findProgram {name : String} {found : Option String}
    (h : (Files.findProgram name).result? w = some found) :
    (Files.findProgram name).run w = .ok found w := by
  obtain ⟨v, hv⟩ := exists_of_result? h
  obtain ⟨found', hrun⟩ := exists_findProgram name w
  cases hv.symm.trans hrun
  exact hrun

/-- Every job is turned away or accepted. -/
lemma turnedAway_or_accepted (reader : ImageReader) (s : Settings) (job : Job) (w : World) :
    (∃ e, TurnedAway reader s job w e) ∨ ∃ program view, Accepted reader s job w program view := by
  obtain ⟨found, hrun⟩ := exists_findProgram s.executable w
  have hfound : (Files.findProgram s.executable).result? w = some found := by rw [result?, hrun]
  cases found with
  | none => exact .inl ⟨_, .notInstalled hfound⟩
  | some program =>
    cases hread : reader job.image with
    | error cause => exact .inl ⟨_, .unreadable hfound hread⟩
    | ok view =>
      cases hcheck : job.resolver.check w.tree w.directory view.references with
      | error names => exact .inl ⟨_, .unresolved hfound hread hcheck⟩
      | ok names => exact .inr ⟨program, view, hfound, hread, names, hcheck⟩

lemma run_locate_of_some {program : String}
    (h : (Files.findProgram s.executable).result? w = some (some program)) :
    (locate s.executable).run w = .ok program w :=
  (run_bind_of_ok (run_findProgram h)).trans rfl

/-- A job that is turned away changes nothing. -/
lemma run_decompiler_of_turnedAway {e : Fault} (h : TurnedAway reader s job w e) :
    (decompiler reader s job).run w = .error e w := by
  cases h with
  | notInstalled hmissing =>
    have hlocate : (locate s.executable).run w =
        .error (.decompiler (.notInstalled s.executable)) w :=
      (run_bind_of_ok (run_findProgram hmissing)).trans rfl
    exact run_bind_of_error hlocate
  | unreadable hfound hread =>
    refine (run_bind_of_ok (run_locate_of_some hfound)).trans ?_
    rw [hread]
    rfl
  | unresolved hfound hread hcheck =>
    refine (run_bind_of_ok (run_locate_of_some hfound)).trans ?_
    rw [hread]
    refine (run_bind_of_ok (run_ofExcept_ok _ _)).trans ?_
    refine run_bind_of_error (run_bind_of_error ?_)
    simp only [Resolver.verify, EStateM.run_bind, EStateM.run_get, hcheck, run_ofExcept_error]

/-- In front of the program, an accepted job only makes the temporary directory. -/
lemma run_decompiler_of_accepted {program : String} {view : ImageView}
    (h : Accepted reader s job w program view) :
    (decompiler reader s job).run w = (do
      Files.makeDirectory temporaryDirectory
      tryFinally (runProgram s program (max 1 view.typeNames.length) job) cleanUp : Action Unit).run
        w := by
  obtain ⟨names, hnames⟩ := h.resolved
  have hverify : (discard (job.resolver.verify view.references) : Action Unit).run w =
      .ok () w := by
    refine (run_bind_of_ok (a := names) (v := w) ?_).trans rfl
    simp only [Resolver.verify, EStateM.run_bind, EStateM.run_get, hnames, run_ofExcept_ok]
  refine (run_bind_of_ok (run_locate_of_some h.found)).trans ?_
  rw [h.readable]
  refine (run_bind_of_ok (run_ofExcept_ok _ _)).trans ?_
  exact (run_bind_of_ok hverify).trans rfl

lemma run_makeDirectory_home (hroom : HasRoom w.tree) :
    (Files.makeDirectory temporaryDirectory).run w =
      .ok () { w with tree := w.tree.put home .directory } := by
  refine Files.change_eq_ok.mpr ⟨_, ?_, rfl⟩
  have hnone := hroom.free home (List.prefix_refl _)
  rw [← destination_temporaryDirectory w.directory] at hnone ⊢
  refine FileTree.makeDirectory_of_none isPlain_temporaryDirectory (fun q hq => ?_) hnone
  rw [places_temporaryDirectory] at hq
  simp only [List.dropLast_cons_cons, List.dropLast_singleton, List.mem_cons, List.not_mem_nil,
    or_false] at hq
  rcases hq with rfl | rfl
  · rfl
  · exact hroom.parent

/-- A job gets its program started in some tree: it waits for the program and cleans up. -/
structure Starts (reader : ImageReader) (s : Settings) (job : Job) (w : World) (program : String)
    (view : ImageView) (start : FileTree) : Prop where
  accepted : Accepted reader s job w program view
  image_plain : IsPlain (join temporaryDirectory (imageName job))
  output : IsAdmissible job.output
  words : ∀ word ∈ startCommand s program w.directory job, IsAdmissible word
  run : (decompiler reader s job).run w =
    (tryFinally (awaiting start w job (max 1 view.typeNames.length)) cleanUp).run
      (startedWorld s program start w job)

/-- What comes last is done after what an action comes to. -/
lemma run_tryFinally_congr {x y : Action Unit} {u : World} (h : x.run w = y.run u)
    (z : Action Unit) : (tryFinally x z).run w = (tryFinally y z).run u := by
  rw [run_tryFinally, run_tryFinally, h]

/-- An accepted job is started if what that needs can be given to the system. -/
lemma starts_of_accepted {program : String} {view : ImageView}
    (h : Accepted reader s job w program view) (hjob : CanStart s program w.directory job)
    (hroom : HasRoom w.tree) : Starts reader s job w program view (startTree w job) where
  accepted := h
  image_plain := isPlain_temporaryDirectory.join (isPlain_imageName hjob.plain)
  output := hjob.plain.isAdmissible_output
  words := hjob.words
  run := by
    rw [run_decompiler_of_accepted h, run_bind_of_ok (run_makeDirectory_home hroom)]
    exact run_tryFinally_congr (run_runProgram hjob hroom _) cleanUp

/-- Only a job is started for which what that needs can be given to the system. -/
lemma Starts.canStart {program : String} {view : ImageView} {start : FileTree}
    (h : Starts reader s job w program view start) (hslash : '/' ∉ job.name.toList) :
    CanStart s program w.directory job where
  plain := by
    refine ⟨hslash, fun hc => h.image_plain.uncut (subset_join _ _ (by simp [imageName, hc])), ?_,
      h.output.uncut, h.output.encodable⟩
    have he := h.image_plain.encodable
    simp only [Text.isEncodable, List.all_eq_true] at he ⊢
    exact fun c hc => he c (subset_join _ _ (by simp [imageName, hc]))
  words := h.words

lemma HasRoom.isDirectory_eq_false (h : HasRoom t) (cwd : List String) :
    t.isDirectory cwd temporaryDirectory = false := by
  rw [Bool.eq_false_iff]
  intro hdir
  have hhome := (FileTree.isDirectory_iff.mp hdir).2 home (by simp [places_temporaryDirectory])
  rw [h.free _ (List.prefix_refl _)] at hhome
  cases hhome

/-- A job that is not started changes nothing but the tree, where the temporary directory is not
left; else it is started in a tree that differs in the temporary directory and in the image only. -/
lemma starts_or_stops (reader : ImageReader) (s : Settings) (job : Job) (w : World) :
    (∃ e v, (decompiler reader s job).run w = .error e v ∧ w.OnlyTree v ∧
      (HasRoom w.tree → v.tree.isDirectory v.directory temporaryDirectory = false)) ∨
      ∃ program view start, Starts reader s job w program view start ∧
        ∀ q, ¬home <+: q → q ≠ destination w.directory (join temporaryDirectory (imageName job)) →
          start.get? q = w.tree.get? q := by
  rcases turnedAway_or_accepted reader s job w with ⟨e, h⟩ | ⟨program, view, h⟩
  · exact .inl ⟨e, w, run_decompiler_of_turnedAway h, ⟨w.tree, rfl⟩,
      fun hroom => hroom.isDirectory_eq_false _⟩
  · have hrun := run_decompiler_of_accepted h
    cases hmake : (Files.makeDirectory temporaryDirectory).run w with
    | error e v =>
      obtain ⟨-, -, -, rfl⟩ := Files.change_eq_error.mp hmake
      rw [run_bind_of_error hmake] at hrun
      exact .inl ⟨e, v, hrun, ⟨v.tree, rfl⟩, fun hroom => hroom.isDirectory_eq_false _⟩
    | ok a v =>
      obtain ⟨t, ht, rfl⟩ := Files.change_eq_ok.mp hmake
      obtain ⟨-, -, -, rfl⟩ := FileTree.makeDirectory_eq_ok ht
      rw [destination_temporaryDirectory] at hmake
      rw [run_bind_of_ok hmake] at hrun
      obtain ⟨e, u, hstop, t, rfl⟩ | ⟨start, hplain, houtput, hwords, hkept, hstart⟩ :=
        runProgram_cases s program (max 1 view.typeNames.length) job
          { w with tree := w.tree.put home .directory }
      · obtain ⟨t', hclean, hremoved, -⟩ := run_cleanUp { w with tree := t }
        refine .inl ⟨e, { w with tree := t' }, ?_, ⟨t', rfl⟩, fun _ => hremoved⟩
        rw [hrun, run_tryFinally]
        simp only [hstop, hclean]
      · refine .inr ⟨program, view, start, ⟨h, hplain, houtput, hwords, ?_⟩, fun q hq hne => ?_⟩
        · exact hrun.trans (run_tryFinally_congr hstart cleanUp)
        · have hhome : q ≠ home := by
            rintro rfl
            exact hq (List.prefix_refl _)
          exact (hkept q hq hne).trans (FileTree.get?_put_of_ne _ _ hhome)

/-- What is left of a job that was started and of which some labels are reported: the temporary
directory is gone. -/
structure Leaves (s : Settings) (program : String) (view : ImageView) (job : Job)
    (w : World) (labels : List String) (v : World) : Prop where
  world : ∃ tree console meter, v = { w with
    tree, console, meter, processes := w.processes.tail
    journal := w.journal ++ .started (startCommand s program w.directory job) job.image ::
      labels.map (.reported (max 1 view.typeNames.length)) }
  counted : v.meter.completed = w.meter.completed + labels.length
  removed : v.tree.isDirectory v.directory temporaryDirectory = false

/-- The course of a job that is started: it reports what the program writes and ends as the program
does, unless the count gets beyond what can be drawn. -/
lemma Starts.course {program : String} {view : ImageView} {start : FileTree}
    (h : Starts reader s job w program view start) :
    ∃ front v, front <+: account (baselineOf start w job) (surveysOf start w job) [] ∧
      (decompiler reader s job).after w = v ∧ Leaves s program view job w front v ∧
      ((decompiler reader s job).run w = .error .outOfRange v ∧ 2 ^ 1000 ≤ v.meter.completed ∨
        front = account (baselineOf start w job) (surveysOf start w job) [] ∧
          (∀ q, ¬home <+: q → v.tree.get? q = (endTree start w job).get? q) ∧
          Ends (decompiler reader s job) (nextRun w).exit
            (lastLinesAt (endTree start w job) w.directory (join temporaryDirectory logName))
            w v) := by
  obtain ⟨front, t, v, hfront, hv, hcases⟩ := awaiting_cases h.output s program start
    w (max 1 view.typeNames.length)
  obtain ⟨t', hclean, hremoved, hkept⟩ := run_cleanUp v
  have hrun := h.run.trans run_tryFinally
  have hvtree : v.tree = t := hv.files.1
  rw [hvtree] at hkept
  have hleaves : Leaves s program view job w front { v with tree := t' } := by
    refine ⟨?_, by simpa [startedWorld] using hv.counted, hremoved⟩
    obtain ⟨⟨c, m, rfl⟩, -⟩ := hv
    exact ⟨t', c, m, by simp [startedWorld]⟩
  refine ⟨front, { v with tree := t' }, hfront, ?_⟩
  rcases hcases with ⟨herror, hbound⟩ | ⟨rfl, rfl, ⟨hexit, hok⟩ | ⟨hexit, herror⟩⟩
  · simp only [herror, hclean] at hrun
    exact ⟨after_of_error hrun, hleaves, .inl ⟨hrun, hbound⟩⟩
  · simp only [hok, hclean] at hrun
    exact ⟨after_of_ok hrun, hleaves, .inr ⟨rfl, hkept, .inl ⟨hexit, hrun⟩⟩⟩
  · simp only [herror, hclean] at hrun
    exact ⟨after_of_error hrun, hleaves, .inr ⟨rfl, hkept, .inr ⟨hexit, hrun⟩⟩⟩

end External

end SourceRecovery
