import SourceRecovery.CommandLine.Run
import SourceRecovery.Proofs.References
import SourceRecovery.Proofs.Server.Faults

/-!
# How runs of the program end

A run that stops with a fault that is reported ends with exit code one, and all other faults leave
the program. Which of these there are depends on what a command line asks for: with more than one
target nothing is done, and an image that is only identified has been found to be a file before, so
that only a text which the output stream refuses leaves. The stream may be any.
-/

namespace SourceRecovery.CommandLine

open SourceRecovery.Action

variable {reader : ImageReader} {d : Decompiler} {o : Options} {path : String} {w v : World}
  {e : Fault}

/-! ### Ends of runs -/

/-- The line that an error message is written as. -/
def errorLine (colored : Bool) (msg : String) : String :=
  Console.Level.error.tag (.ofFlag colored) ++ (Palette.ofFlag colored).plain ++ " " ++ msg ++ "\n"

/-- A run comes to an end of its own: with exit code zero, or with one, and then the last that it
wrote is the message of a fault that is reported. -/
def Settles (x : Action Ending) (w : World) : Prop :=
  (∃ v, x.run w = .ok ⟨0, none⟩ v) ∨
    ∃ (e : Fault) (v : World) (front : String), e.isReported = true ∧ x.run w = .ok ⟨1, none⟩ v ∧
      v.console.output = front ++ errorLine v.console.colored e.message

lemma not_settles {x : Action Ending} (h : x.result? w = none) : ¬Settles x w := by
  obtain ⟨e, v, hv⟩ := exists_of_result?_eq_none h
  rintro (⟨u, hu⟩ | ⟨_, u, _, -, hu, -⟩) <;> cases hv.symm.trans hu

section Streams

variable [Stream]

/-! ### Messages -/

/-- What a message leaves on the console where it is shown. -/
lemma output_of_error {msg : String} {u : World} (h : (Console.error msg).run v = .ok () u) :
    u.console.output = v.console.output ++ errorLine u.console.colored msg := by
  have hpalette : Console.palette.run v = .ok (.ofFlag v.console.colored) v := rfl
  rw [Console.error, Console.log, run_bind_of_ok hpalette, Console.line, Console.run_write] at h
  split at h
  · cases h
  · cases h
    rfl

/-- ASCII is shown on every stream. -/
lemma run_forM_line_of_ascii (lines : List String)
    (h : ∀ s ∈ lines, ∀ c ∈ s.toList, c.toNat < 0x80) (w : World) :
    ∃ c, (lines.forM Console.line).run w = .ok () { w with console := c } := by
  induction lines generalizing w with
  | nil => exact ⟨w.console, rfl⟩
  | cons s lines ih =>
    obtain ⟨hs, hlines⟩ := List.forall_mem_cons.mp h
    have hascii : ∀ c ∈ (s ++ "\n").toList, c.toNat < 0x80 := by
      intro c hc
      rw [String.toList_append, List.mem_append] at hc
      rcases hc with hc | hc
      · exact hs c hc
      · obtain rfl : c = '\n' := by simpa using hc
        decide
    have hline : (Console.line s).run w = .ok () { w with
        console := { w.console with output := w.console.output ++ (s ++ "\n") } } := by
      rw [Console.line, Console.run_write, Stream.takes_ascii _ hascii]
      rfl
    obtain ⟨c, hc⟩ := ih hlines { w with
      console := { w.console with output := w.console.output ++ (s ++ "\n") } }
    exact ⟨c, (run_bind_of_ok hline).trans hc⟩

omit [Stream] in
lemma ascii_helpLines : ∀ s ∈ helpLines, ∀ c ∈ s.toList, c.toNat < 0x80 := by
  intro s hs c hc
  have hall : s.toList.all (fun c => decide (c.toNat < 0x80)) = true := by
    simp only [helpLines, List.mem_cons, List.not_mem_nil, or_false] at hs
    -- One line after the other: all of them at once are too deep for the kernel.
    rcases hs with rfl | rfl | rfl | rfl <;> decide +kernel
  simpa using List.all_eq_true.mp hall c hc

/-! ### Faults of images -/

lemma writes_showIdentity (path : String) (i : Identity) : Console.Writes (showIdentity path i) :=
  .seq (Console.writes_line _) <| .seq (Console.writes_line _) <| .seq (Console.writes_line _) <|
    .seq (Console.writes_line _) <| .seq (Console.writes_line _) <|
      .seq (Console.writes_line _) (Console.writes_line _)

lemma raises_runImage (hd : ∀ job, RaisesOfImage (d job)) (path : String) :
    RaisesOfImage (runImage reader d o path) := by
  refine .bind (.of_ok fun w => ⟨_, _, rfl⟩) fun found => ?_
  split
  · refine .bind (Console.writes_log _ _).ofImage fun _ => ?_
    refine .bind (Server.raises_identify _ _) fun i => ?_
    refine .bind (writes_showIdentity _ _).ofImage fun _ => ?_
    split
    · exact .pure ()
    · refine .bind (.of_ok fun w => ⟨_, _, rfl⟩) fun beside => ?_
      exact .discarding (Decompiler.raises_run hd Console.raises_confirm _ _)
  · exact .bind (Console.writes_log _ _).ofImage fun _ => .pure _

/-- A text is written that the output stream refuses. -/
def IsUnprintable (e : Fault) : Prop := e = .unprintable ∧ ∃ s, Stream.refuses s = true

omit [Stream] in
/-- A file is there to be read, so that only its content can be wrong. -/
lemma isReported_of_identify (hf : w.tree.isFile w.directory path = true)
    (h : (Server.identify reader path).run w = .error e v) : e.isReported = true := by
  obtain ⟨f, hfind⟩ := FileTree.isFile_iff.mp hf
  have hread : (Files.read path).run w = .ok f.data w := by
    rw [Files.run_read]
    simp [FileTree.read, hfind, bind, Except.bind]
  rw [Server.identify, run_bind_of_ok hread] at h
  cases hclass : Identity.classify reader f.data with
  | ok i => simp [hclass] at h
  | error cause =>
    rw [hclass, run_ofExcept_error] at h
    cases h
    cases cause <;> rfl

/-- What can be wrong with an image that is only identified is reported, unless it is a text that
cannot be shown: the image is there. -/
lemma raises_runImage_of_info (hinfo : o.info = true)
    (h : (runImage reader d o path).run w = .error e v) :
    e.isReported = true ∨ IsUnprintable e := by
  rcases bind_eq_error.mp h with hfile | ⟨found, u, hfile, hrest⟩
  · cases hfile
  cases hfile
  cases hf : w.tree.isFile w.directory path with
  | false =>
    simp only [hf, Bool.false_eq_true, if_false] at hrest
    rcases bind_eq_error.mp hrest with hlog | ⟨_, _, _, hend⟩
    · exact .inr ((Console.writes_log _ _).raises _ _ _ hlog)
    · cases hend
  | true =>
    simp only [hf, if_true] at hrest
    rcases bind_eq_error.mp hrest with hlog | ⟨_, u, hlog, hrest⟩
    · exact .inr ((Console.writes_log _ _).raises _ _ _ hlog)
    obtain ⟨c, rfl⟩ := (Console.writes_log _ _).of_ok hlog
    rcases bind_eq_error.mp hrest with hidentify | ⟨i, u, -, hshow⟩
    · exact .inl (isReported_of_identify (w := { w with console := c }) hf hidentify)
    · rcases bind_eq_error.mp hshow with hshow | ⟨_, _, _, hend⟩
      · exact .inr ((writes_showIdentity _ _).raises _ _ _ hshow)
      · simp only [hinfo, if_true] at hend
        cases hend

/-! ### Courses -/

variable [Template.Objects]

/-- What options ask for, as far as it goes before faults are reported. -/
def course (reader : ImageReader) (o : Options) : Action Unit :=
  match o.targets with
  | [] => runServer reader (External.decompiler reader ⟨o.decompiler, []⟩) o
  | [path] => runImage reader (External.decompiler reader ⟨o.decompiler, []⟩) o path
  | _ => pure ()

/-- The world that a run starts its course in. -/
def Options.startIn (o : Options) (w : World) : World :=
  if o.colorless then { w with console := { w.console with colored := false } } else w

/-- A run ends as its course does, unless that stops with a fault that is reported. -/
lemma run_runOptions (reader : ImageReader) (o : Options) (w : World) :
    (runOptions reader o).run w = match (course reader o).run (o.startIn w) with
      | .ok _ v => .ok ⟨0, none⟩ v
      | .error e v =>
        if e.isReported = true then
          match (Console.error e.message).run v with
          | .ok _ u => .ok ⟨1, none⟩ u
          | .error e' u => .error e' u
        else .error e v := by
  have hcolors (rest : Unit → Action Ending) :
      (if o.colorless = true then
        modify (fun w => { w with console := { w.console with colored := false } }) >>= rest
      else rest ()).run w = (rest ()).run (o.startIn w) := by
    unfold Options.startIn
    cases o.colorless <;> rfl
  -- Every case goes on with the same last step, so that the course comes in front of it.
  have hcourse (α : Type) (last : Action α) :
      (match o.targets with
        | [] =>
          runServer reader (External.decompiler reader ⟨o.decompiler, []⟩) o >>= fun _ => last
        | [path] =>
          runImage reader (External.decompiler reader ⟨o.decompiler, []⟩) o path >>= fun _ => last
        | _ => last) = course reader o >>= fun _ => last := by
    unfold course
    split <;> rfl
  unfold runOptions
  refine (hcolors _).trans ?_
  dsimp only
  refine Eq.trans (congrArg (fun x => EStateM.run (tryCatch x _ >>= _) _) (hcourse _ _)) ?_
  rw [EStateM.run_bind, run_tryCatch]
  cases hc : (course reader o).run (o.startIn w) with
  | ok a v =>
    rw [run_bind_of_ok hc]
    rfl
  | error e v =>
    rw [run_bind_of_error hc]
    dsimp only
    cases e.isReported with
    | true =>
      simp only [if_true]
      cases h : (Console.error e.message).run v with
      | ok a u =>
        erw [EStateM.run_bind, h]
        rfl
      | error e' u =>
        erw [EStateM.run_bind, h]
    | false => rfl

/-! ### Faults of courses -/

lemma raises_runServer (hd : ∀ job, RaisesOfImage (d job)) (o : Options) :
    RaisesOfBuild (runServer reader d o) := by
  refine .bind ?_ fun _ => .bind (Catalog.raises_load _ _) fun c => Server.raises_recover hd c _
  refine .bind (.of_ok fun w => ⟨_, _, rfl⟩) fun p => ?_
  refine .bind (Console.writes_line _).ofBuild fun _ => ?_
  exact .bind (.forM fun _ _ => (Console.writes_line _).ofBuild) fun _ =>
    (Console.writes_line _).ofBuild

/-- The modes of the program. An image is identified only, or decompiled as well. -/
inductive Mode where
  | help
  | build
  | identify
  | decompile
  | nothing
  deriving DecidableEq

/-- Without a target a build is recovered. With more than one, nothing is done. -/
def Options.mode (o : Options) : Mode :=
  match o.targets with
  | [] => .build
  | [_] => if o.info then .identify else .decompile
  | _ => .nothing

def Request.mode : Request → Mode
  | .help => .help
  | .run o => o.mode

/-- The faults that leave the program in a mode: they are not reported, and come from recovering a
build or from decompiling an image. A text that the output stream refuses is one of them, and the
only one where an image is only identified. -/
def Mode.Leaves (e : Fault) : Mode → Prop
  | .build => e.isReported = false ∧ e.isOfBuild = true
  | .decompile => e.isReported = false ∧ e.isOfImage = true
  | .identify => IsUnprintable e
  | .help | .nothing => False

lemma course_eq_error (h : (course reader o).run w = .error e v) (he : e.isReported = false) :
    o.mode.Leaves e := by
  have hd := External.raises_decompiler reader ⟨o.decompiler, []⟩
  unfold course at h
  unfold Options.mode
  split at h
  · exact ⟨he, raises_runServer hd o _ _ _ h⟩
  · cases hinfo : o.info with
    | false => exact ⟨he, raises_runImage hd _ _ _ _ h⟩
    | true =>
      refine (raises_runImage_of_info hinfo h).resolve_left fun hreported => ?_
      cases hreported.symm.trans he
  · cases h

/-- A message that cannot be shown leaves the program in every mode that reports faults. -/
lemma leaves_of_course_eq_error {e' : Fault} (h : (course reader o).run w = .error e v)
    (he : IsUnprintable e') : o.mode.Leaves e' := by
  have hunprintable : e'.isReported = false ∧ e'.isOfImage = true ∧ e'.isOfBuild = true := by
    rw [he.1]
    exact ⟨rfl, rfl, rfl⟩
  unfold course at h
  unfold Options.mode
  split at h
  · exact ⟨hunprintable.1, hunprintable.2.2⟩
  · cases o.info with
    | false => exact ⟨hunprintable.1, hunprintable.2.1⟩
    | true => exact he
  · cases h

/-- A command line that is accepted settles, or is left by a fault. -/
lemma settles_or_leaves {words : List String} {request : Request}
    (h : Request.read words = .ok request) (reader : ImageReader) (w : World) :
    Settles (run reader words) w ∨
      ∃ e v, (run reader words).run w = .error e v ∧ request.mode.Leaves e := by
  unfold run
  rw [h]
  cases request with
  | help =>
    obtain ⟨c, hc⟩ := run_forM_line_of_ascii helpLines ascii_helpLines w
    exact .inl (.inl ⟨_, run_bind_of_ok hc⟩)
  | run o =>
    have hrun := run_runOptions reader o w
    cases hc : (course reader o).run (o.startIn w) with
    | ok a v =>
      rw [hc] at hrun
      exact .inl (.inl ⟨v, hrun⟩)
    | error e v =>
      rw [hc] at hrun
      cases he : e.isReported with
      | true =>
        simp only [he, if_true] at hrun
        cases hreport : (Console.error e.message).run v with
        | ok a u =>
          simp only [hreport] at hrun
          exact .inl (.inr ⟨e, u, v.console.output, he, hrun, output_of_error hreport⟩)
        | error e' u =>
          simp only [hreport] at hrun
          have hunprintable := (Console.writes_log _ _).raises _ _ _ hreport
          exact .inr ⟨e', u, hrun, leaves_of_course_eq_error hc hunprintable⟩
      | false =>
        simp only [he, Bool.false_eq_true, if_false] at hrun
        exact .inr ⟨e, v, hrun, course_eq_error hc he⟩

end Streams

/-! ### Runs that faults leave -/

/-- A catalog file whose value is a list. -/
def listedSample : World := World.sample [(["c.json"], .file ⟨[91, 93], false, 0⟩)] []

/-- A name that is no UTF-8. -/
def unshownName : String := String.singleton (Text.ofSurrogate 0xDCFF)

/-- An image, and a decompiler whose project file is no text. -/
def undecodableSample : World := { World.sample [] [] with
  tree := ⟨[(["w"], .directory), (["tmp"], .directory), (["bin"], .directory),
    (["bin", "ilspycmd"], .file ⟨[], true, 0⟩), (["w", "x.exe"], .file ⟨[], false, 0⟩)]⟩
  programs := ["/bin"]
  processes := [⟨[[.file "TerrariaServer.csproj" ⟨[255], false, 1⟩]], [], 0⟩] }

/-- A reader to which everything is an image without libraries. -/
def bareReader : ImageReader := fun _ => .ok (References.hostView .windows [])

/-- The modes that recover a build or look at an image are left by a fault in some world. Where an
image is only identified, this takes a stream that refuses some text. -/
lemma exists_not_settles {mode : Mode} (h : mode ≠ .help ∧ mode ≠ .nothing) :
    ∃ (_ : Stream) (_ : Template.Objects) (words : List String) (request : Request) (w : World),
      Request.read words = .ok request ∧ request.mode = mode ∧
        ¬Settles (run bareReader words) w := by
  cases mode with
  | help => exact absurd rfl h.1
  | nothing => exact absurd rfl h.2
  | build =>
    exact ⟨.lenient, .blank, ["--catalog", "c.json"],
      .run { Options.standard with catalog := some "c.json" },
      listedSample, by decide +kernel, rfl, not_settles (by decide +kernel)⟩
  | decompile =>
    exact ⟨.lenient, .blank, ["x.exe"], .run { Options.standard with targets := ["x.exe"] },
      undecodableSample, by decide +kernel, rfl, not_settles (by decide +kernel)⟩
  | identify =>
    refine ⟨.utf8, .blank, ["--info", unshownName],
      .run { Options.standard with targets := [unshownName], info := true },
      World.sample [] [], by decide +kernel, rfl, not_settles (by decide +kernel)⟩

/-- On every output stream, and whatever objects are, a command line that is accepted settles, or a
fault of the mode that it asks for leaves. The modes that settle in all worlds on all streams are
those in which nothing is recovered, decompiled or identified. -/
theorem run_settles_iff (mode : Mode) :
    (∀ (_ : Stream) (_ : Template.Objects) reader words request w,
      Request.read words = .ok request → request.mode = mode →
        Settles (run reader words) w ∨
          ∃ e v, (run reader words).run w = .error e v ∧ mode.Leaves e) ∧
    ((∀ (_ : Stream) (_ : Template.Objects) reader words request w,
      Request.read words = .ok request → request.mode = mode → Settles (run reader words) w) ↔
        mode = .help ∨ mode = .nothing) := by
  refine ⟨?_, ?_, ?_⟩
  · rintro _ _ reader words request w hread rfl
    exact settles_or_leaves hread reader w
  · intro hall
    by_contra hmode
    obtain ⟨stream, objects, words, request, w, hread, heq, hnot⟩ :=
      exists_not_settles (not_or.mp hmode)
    exact hnot (hall stream objects _ words request w hread heq)
  · rintro hmode _ _ reader words request w hread rfl
    refine (settles_or_leaves hread reader w).resolve_right ?_
    rintro ⟨e, v, -, hleaves⟩
    rcases hmode with hmode | hmode <;> rw [hmode] at hleaves <;> exact hleaves

/-- A catalog whose value is no object is an accepted command line that a fault leaves. -/
theorem run_not_settles_sample :
    Request.read ["--catalog", "c.json"] =
        .ok (.run { Options.standard with catalog := some "c.json" }) ∧
      ¬Settles (run bareReader ["--catalog", "c.json"]) listedSample :=
  ⟨by decide +kernel, not_settles (by decide +kernel)⟩

end SourceRecovery.CommandLine
