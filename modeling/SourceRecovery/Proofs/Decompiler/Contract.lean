import Mathlib.Data.List.Nodup
import SourceRecovery.Proofs.Decompiler.Course
import SourceRecovery.Proofs.Decompiler.External

/-!
# The contract of the external decompiler

When the program is started and with what, how a job ends, and what is reported of it. A job whose
texts cannot be given to the system, or whose command cannot, is not turned away, and yet starts no
program.
-/

namespace SourceRecovery.External

open SourceRecovery.Action SourceRecovery.Path

variable {reader : ImageReader} {s : Settings} {job : Job} {w v : World}

/-- A program that is started in some tree leaves its log alone. -/
def SparesLog (start : FileTree) (w : World) (job : Job) : Prop :=
  (start.performed (components (absolute w.directory job.output)) (nextRun w).polls.flatten).find
    w.directory (join temporaryDirectory logName) = .ok (.file ⟨[], false, w.now⟩)

/-- A log that is left alone holds what the program wrote to it. -/
lemma lastLinesAt_of_sparesLog {start : FileTree} (h : SparesLog start w job) :
    lastLinesAt (endTree start w job) w.directory (join temporaryDirectory logName) =
      lastLines (nextRun w).log := by
  obtain ⟨hplain, hdirs, hslash, hf⟩ := FileTree.find_eq_file.mp h
  have hend : (endTree start w job).find w.directory (join temporaryDirectory logName) =
      .ok (.file ⟨(nextRun w).log, false, w.now⟩) := by
    unfold endTree Files.extended
    rw [h]
    exact FileTree.find_put hplain hdirs hslash (by simp [hf]) _
  simp only [lastLinesAt, FileTree.read, hend, bind, Except.bind]

/-- A job is turned away, which changes nothing, or it is accepted. If its texts and all words of
the command can be given to the system, one program is started then, with the image as the file
that the command ends with; the job has a result if the exit code is zero, and tells the last lines
of the log if not, as long as the count can be drawn. Else nothing is started. The temporary
directory is gone in the end. -/
theorem decompiler_contract (reader : ImageReader) (s : Settings) (job : Job) (w : World)
    (hroom : HasRoom w.tree) (hslash : '/' ∉ job.name.toList) :
    ((∃ e, TurnedAway reader s job w e) ∨ ∃ program view, Accepted reader s job w program view) ∧
    (∀ e, TurnedAway reader s job w e → (decompiler reader s job).run w = .error e w) ∧
    (∀ program view, Accepted reader s job w program view → CanStart s program w.directory job →
      ∃ labels v, (decompiler reader s job).after w = v ∧
        Leaves s program view job w labels v ∧
        name (join temporaryDirectory (imageName job)) = job.name ++ ".exe" ∧
        (v.meter.completed < 2 ^ 1000 →
          (∀ q, ¬home <+: q → v.tree.get? q = (endTree (startTree w job) w job).get? q) ∧
          Ends (decompiler reader s job) (nextRun w).exit
            (lastLinesAt (endTree (startTree w job) w job) w.directory
              (join temporaryDirectory logName)) w v) ∧
        (SparesLog (startTree w job) w job →
          lastLinesAt (endTree (startTree w job) w job) w.directory
            (join temporaryDirectory logName) = lastLines (nextRun w).log)) ∧
    (∀ program view, Accepted reader s job w program view → ¬CanStart s program w.directory job →
      ∃ e v, (decompiler reader s job).run w = .error e v ∧ w.OnlyTree v) ∧
    ((decompiler reader s job).after w).tree.isDirectory
      ((decompiler reader s job).after w).directory temporaryDirectory = false := by
  refine ⟨turnedAway_or_accepted reader s job w, fun e => run_decompiler_of_turnedAway,
    fun program view h hjob => ?_, fun program view h hjob => ?_, ?_⟩
  · obtain ⟨front, v, -, hafter, hleaves, hcases⟩ := (starts_of_accepted h hjob hroom).course
    refine ⟨front, v, hafter, hleaves, name_join (isName_imageName hslash), fun hcount => ?_,
      lastLinesAt_of_sparesLog⟩
    rcases hcases with ⟨-, hbound⟩ | ⟨-, hkept, hends⟩
    · exact absurd hbound hcount.not_ge
    · exact ⟨hkept, hends⟩
  · rcases starts_or_stops reader s job w with ⟨e, v, herror, htree, -⟩ | ⟨_, _, _, hstarts, -⟩
    · exact ⟨e, v, herror, htree⟩
    · obtain rfl := h.program_eq hstarts.accepted
      exact absurd (hstarts.canStart hslash) hjob
  · rcases starts_or_stops reader s job w with ⟨e, v, herror, -, hgone⟩ | ⟨_, _, _, h, -⟩
    · rw [after_of_error herror]
      exact hgone hroom
    · obtain ⟨front, v, -, hafter, hleaves, -⟩ := h.course
      rw [hafter]
      exact hleaves.removed

/-! ### A sample -/

/-- A world with the program, with one source file in the directory for a project, and with a
process that is started next. -/
def sampleWorld (meter : Meter) (run : ProcessRun) : World := { World.sample [] [] with
  tree := ⟨[(["tmp"], .directory), (["bin"], .directory),
    (["bin", "ilspycmd"], .file ⟨[], true, 0⟩), (["w"], .directory), (["w", "out"], .directory),
    (["w", "out", "Old.cs"], .file ⟨[1], false, 0⟩)]⟩
  programs := ["/bin"]
  meter
  processes := [run] }

/-- The program writes another file in the place of the one that is there, and again, and fails. -/
def sampleRun : ProcessRun where
  polls := [[.removal "Old.cs", .file "New.cs" ⟨[], false, 2⟩], [.file "New.cs" ⟨[2], false, 3⟩]]
  log := Text.encode "no\n"
  exit := 3

def sampleSettings : Settings := ⟨defaultExecutable, []⟩

/-- An image is to be decompiled under a name into a directory. -/
def jobOf (name output : String) : Job := ⟨[77], name, output, ⟨["/lib"], true⟩⟩

lemma accepted_sample {job : Job} (himage : job.image = [77]) (arguments : List String)
    (meter : Meter) (run : ProcessRun) :
    Accepted Decompiler.sampleReader ⟨defaultExecutable, arguments⟩ job (sampleWorld meter run)
      "/bin/ilspycmd" (Decompiler.sampleView []) where
  found := by
    show (Files.findProgram defaultExecutable).result? (sampleWorld meter run) = _
    rfl
  readable := by
    rw [himage]
    rfl
  resolved := ⟨[], rfl⟩

lemma canStart_sample : CanStart sampleSettings "/bin/ilspycmd" ["w"] (jobOf "Terraria" "out") where
  plain := ⟨by decide, by decide, by decide, by decide, by decide⟩
  words := by
    have hwords (word : String)
        (h : word ∈ startCommand sampleSettings "/bin/ilspycmd" ["w"] (jobOf "Terraria" "out")) :
        Path.accept word = .ok () := by
      revert word
      decide +kernel
    exact fun word h => accept_eq_ok_iff.mp (hwords word h)

lemma hasRoom_sampleWorld (meter : Meter) (run : ProcessRun) :
    HasRoom (sampleWorld meter run).tree where
  parent := rfl
  free := by
    rintro q ⟨r, rfl⟩
    simp [FileTree.get?, sampleWorld, home, List.lookup_cons]

lemma counted_sample : ((decompiler Decompiler.sampleReader sampleSettings
    (jobOf "Terraria" "out")).after (sampleWorld .fresh sampleRun)).meter.completed = 1 := by
  decide +kernel

/-- The program of the sample is started, and its failure is told. -/
theorem decompiler_contract_sample : ∃ v,
    (decompiler Decompiler.sampleReader sampleSettings (jobOf "Terraria" "out")).run
      (sampleWorld .fresh sampleRun) = .error (.decompiler (.failed 3 "no\n")) v ∧
    v.tree.isDirectory v.directory temporaryDirectory = false := by
  obtain ⟨-, -, hcontract, -⟩ := decompiler_contract Decompiler.sampleReader sampleSettings
    (jobOf "Terraria" "out") (sampleWorld .fresh sampleRun) (hasRoom_sampleWorld _ _) (by decide)
  obtain ⟨labels, v, hafter, hleaves, -, hends, hlog⟩ :=
    hcontract _ _ (accepted_sample rfl _ _ _) canStart_sample
  have hcount := counted_sample
  rw [hafter] at hcount
  have hspares : SparesLog (startTree (sampleWorld .fresh sampleRun) (jobOf "Terraria" "out"))
      (sampleWorld .fresh sampleRun) (jobOf "Terraria" "out") := by
    unfold SparesLog
    decide +kernel
  have hlines : lastLines (nextRun (sampleWorld .fresh sampleRun)).log = "no\n" := by
    decide +kernel
  rw [hlog hspares, hlines] at hends
  obtain ⟨-, ⟨hexit, -⟩ | ⟨-, herror⟩⟩ :=
    hends (by rw [hcount]; exact one_lt_pow₀ (by decide) (by decide))
  · cases hexit
  · exact ⟨v, herror, hleaves.removed⟩

/-- A job can be accepted and yet start no program, where its texts cannot be given to the system,
or a directory of the resolver or another argument cannot. It can have no result although the
program exits with zero, where the count cannot be drawn. -/
theorem accepted_without_result_sample :
    (Accepted Decompiler.sampleReader sampleSettings (jobOf "Terraria" "a\x00b")
        (sampleWorld .fresh sampleRun) "/bin/ilspycmd" (Decompiler.sampleView []) ∧
      ((decompiler Decompiler.sampleReader sampleSettings (jobOf "Terraria" "a\x00b")).after
        (sampleWorld .fresh sampleRun)).journal = []) ∧
    (Accepted Decompiler.sampleReader sampleSettings
        (jobOf (String.singleton (Text.ofSurrogate 0xD800)) "out") (sampleWorld .fresh sampleRun)
        "/bin/ilspycmd" (Decompiler.sampleView []) ∧
      ((decompiler Decompiler.sampleReader sampleSettings
        (jobOf (String.singleton (Text.ofSurrogate 0xD800)) "out")).after
          (sampleWorld .fresh sampleRun)).journal = []) ∧
    (Accepted Decompiler.sampleReader sampleSettings
        { jobOf "Terraria" "out" with resolver := ⟨["/l\x00b"], true⟩ }
        (sampleWorld .fresh sampleRun) "/bin/ilspycmd" (Decompiler.sampleView []) ∧
      ((decompiler Decompiler.sampleReader sampleSettings
        { jobOf "Terraria" "out" with resolver := ⟨["/l\x00b"], true⟩ }).after
          (sampleWorld .fresh sampleRun)).journal = []) ∧
    (Accepted Decompiler.sampleReader
        ⟨defaultExecutable, [String.singleton (Text.ofSurrogate 0xD800)]⟩ (jobOf "Terraria" "out")
        (sampleWorld .fresh sampleRun) "/bin/ilspycmd" (Decompiler.sampleView []) ∧
      ((decompiler Decompiler.sampleReader
        ⟨defaultExecutable, [String.singleton (Text.ofSurrogate 0xD800)]⟩
        (jobOf "Terraria" "out")).after (sampleWorld .fresh sampleRun)).journal = []) ∧
    (Accepted Decompiler.sampleReader sampleSettings (jobOf "Terraria" "out")
        (sampleWorld ⟨true, 1, 2 ^ 1100⟩ { sampleRun with exit := 0 })
        "/bin/ilspycmd" (Decompiler.sampleView []) ∧
      (decompiler Decompiler.sampleReader sampleSettings (jobOf "Terraria" "out")).result?
        (sampleWorld ⟨true, 1, 2 ^ 1100⟩ { sampleRun with exit := 0 }) = none) := by
  refine ⟨⟨accepted_sample rfl _ _ _, ?_⟩, ⟨accepted_sample rfl _ _ _, ?_⟩,
    ⟨accepted_sample rfl _ _ _, ?_⟩, ⟨accepted_sample rfl _ _ _, ?_⟩, accepted_sample rfl _ _ _, ?_⟩
  all_goals decide +kernel

/-! ### What is reported -/

lemma isOrdered_surveysOf (start : FileTree) (w : World) (job : Job) :
    ∀ survey ∈ surveysOf start w job, Sources.IsOrdered survey := by
  intro survey hsurvey
  obtain ⟨t, -, rfl⟩ := List.mem_map.mp hsurvey
  exact Sources.isOrdered_survey _ _ _

/-- The last survey finds the files as the program leaves them. -/
lemma survey_endTree_mem (start : FileTree) (w : World) (job : Job) :
    Sources.survey (endTree start w job) w.directory job.output ∈ surveysOf start w job := by
  rw [endTree, survey_extended _ _ (by rw [destination_log]; exact isSource_logName home)]
  exact List.mem_map.mpr ⟨_, performed_mem_looks _ _ _, rfl⟩

/-- A job that is not started reports nothing. Once it is started, every source file that is new or
changed at some look is reported once, at the first such look and in the order of the paths there;
all others are never reported. The reports are made up to one whose count cannot be drawn. -/
theorem reports_changes_once (reader : ImageReader) (s : Settings) (job : Job) (w : World) :
    (∃ e v, (decompiler reader s job).run w = .error e v ∧ w.OnlyTree v) ∨
    ∃ program view start, Starts reader s job w program view start ∧
      (∀ q, ¬home <+: q → q ≠ destination w.directory (join temporaryDirectory (imageName job)) →
        start.get? q = w.tree.get? q) ∧
      (surveysOf start w job).length = max 1 (nextRun w).polls.length ∧
      ∃ labels front v, Accounts (baselineOf start w job) (surveysOf start w job) labels ∧
        (∀ p, IsChanged (baselineOf start w job)
          (Sources.survey (endTree start w job) w.directory job.output) p → labels.count p = 1) ∧
        (∀ p, (∀ survey ∈ surveysOf start w job,
          survey.lookup p = (baselineOf start w job).lookup p) → p ∉ labels) ∧
        (decompiler reader s job).after w = v ∧ Leaves s program view job w front v ∧
        front <+: labels ∧ (v.meter.completed < 2 ^ 1000 → front = labels) := by
  rcases starts_or_stops reader s job w with
    ⟨e, v, herror, htree, -⟩ | ⟨program, view, start, h, hkept⟩
  · exact .inl ⟨e, v, herror, htree⟩
  · have haccounts : Accounts (baselineOf start w job) (surveysOf start w job)
        (account (baselineOf start w job) (surveysOf start w job) []) :=
      accounts_account (isOrdered_surveysOf start w job)
    obtain ⟨front, v, hfront, hafter, hleaves, hcases⟩ := h.course
    refine .inr ⟨program, view, start, h, hkept,
      by simp only [surveysOf, List.length_map, length_looks], _, front, v, haccounts,
      fun p hp => ?_, fun p hp hmem => ?_, hafter, hleaves, hfront, fun hcount => ?_⟩
    · exact List.count_eq_one_of_mem haccounts.nodup
        ((haccounts.mem_iff p).mpr ⟨_, survey_endTree_mem start w job, hp⟩)
    · obtain ⟨survey, hsurvey, m, hm, hold⟩ := (haccounts.mem_iff p).mp hmem
      exact hold (hp survey hsurvey ▸ hm)
    · rcases hcases with ⟨-, hbound⟩ | ⟨hall, -⟩
      · exact absurd hbound hcount.not_ge
      · exact hall

lemma journal_sample : ((decompiler Decompiler.sampleReader sampleSettings
    (jobOf "Terraria" "out")).after (sampleWorld .fresh sampleRun)).journal =
      [.started ["/bin/ilspycmd", "-p", "-o", "/w/out", "-r", "/lib",
        "/tmp/sourcegetter_imagetmp/Terraria.exe"] [77], .reported 1 "New.cs"] := by
  decide +kernel

/-- The file that the program writes twice is reported once, and is all that is reported. -/
theorem reports_changes_once_sample : ∃ program view start,
    Starts Decompiler.sampleReader sampleSettings (jobOf "Terraria" "out")
      (sampleWorld .fresh sampleRun) program view start ∧
    Accounts (baselineOf start (sampleWorld .fresh sampleRun) (jobOf "Terraria" "out"))
      (surveysOf start (sampleWorld .fresh sampleRun) (jobOf "Terraria" "out")) ["New.cs"] := by
  have hcount := counted_sample
  have hjournal := journal_sample
  obtain ⟨e, v, herror, t, rfl⟩ | ⟨program, view, start, hstarts, -, -, labels, front, v,
      haccounts, -, -, hafter, hleaves, -, hall⟩ :=
    reports_changes_once Decompiler.sampleReader sampleSettings (jobOf "Terraria" "out")
      (sampleWorld .fresh sampleRun)
  · rw [after_of_error herror] at hjournal
    cases hjournal
  · rw [hafter] at hcount hjournal
    obtain rfl := hall (by rw [hcount]; exact one_lt_pow₀ (by decide) (by decide))
    refine ⟨program, view, start, hstarts, ?_⟩
    obtain ⟨t, c, m, rfl⟩ := hleaves.world
    have hreports := (List.cons_eq_cons.mp hjournal).2
    cases front with
    | nil => cases hreports
    | cons label front =>
      obtain ⟨hlabel, hrest⟩ := List.cons_eq_cons.mp hreports
      obtain rfl := List.map_eq_nil_iff.mp hrest
      obtain rfl := (Event.reported.inj hlabel).2
      exact haccounts

end SourceRecovery.External
