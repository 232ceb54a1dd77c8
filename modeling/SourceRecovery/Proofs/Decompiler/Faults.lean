import SourceRecovery.Decompiler.External
import SourceRecovery.Proofs.Decompiler.Course

/-!
# What decompiling an image stops with

The faults of each step from an image to its project: those of the image and its references, of the
decompiler, and of files, whose refusals need not come from the system. A text may turn out to be
none, and a progress may be too great to be drawn. Nothing is assumed of the stream that the console
writes to, which may refuse any text beyond ASCII.
-/

namespace SourceRecovery

open SourceRecovery.Action

/-- The faults of decompiling an image. -/
def Fault.isOfImage : Fault → Bool
  | .image _ | .noEntryPoint _ | .release _ | .unresolved _ | .decompiler _ | .file .. |
    .undecodable | .outOfRange => true
  | _ => false

lemma Fault.isOfImage_of_isRefusal {e : Fault} (h : Files.IsRefusal e) : e.isOfImage = true := by
  obtain ⟨problem, q, target, rfl⟩ := h
  rfl

/-- An action that stops with no other faults than those of decompiling an image. -/
abbrev RaisesOfImage {α : Type} (x : Action α) : Prop := Raises (fun e => e.isOfImage = true) x

lemma Action.Raises.ofImage {α : Type} {x : Action α} (h : Raises Files.IsRefusal x) :
    RaisesOfImage x := h.mono fun _ => Fault.isOfImage_of_isRefusal

namespace Console

variable [Stream] {x : Action Unit}

lemma Writes.ofImage (h : Writes x) : RaisesOfImage x := h.raises.mono fun e he => by
  rw [he.1]
  rfl

lemma raises_ask (prompt : String) : RaisesOfImage (ask prompt) :=
  .bind (.of_ok fun _ => ⟨_, _, rfl⟩) fun _ =>
    .bind (writes_line _).ofImage fun _ => .of_ok fun _ => ⟨_, _, rfl⟩

lemma raises_confirm (question : String) : RaisesOfImage (confirm question) :=
  .bind (.of_ok fun _ => ⟨_, _, rfl⟩) fun _ => .bind (raises_ask _) fun _ => .pure _

lemma raises_showProgress (current total : Int) (label : String) :
    RaisesOfImage (showProgress current total label) := by
  have hdrawn (a b c : String) : Writes (do
      line a; line b; write c
      modify fun w => { w with console := { w.console with barOpen := true } }) :=
    (writes_line a).seq <| (writes_line b).seq <| (writes_write c).seq fun _ => ⟨_, .inl rfl⟩
  unfold showProgress
  split
  · exact .pure ()
  · refine .bind (.of_ok fun w => ⟨_, _, rfl⟩) fun p => ?_
    dsimp only
    split
    · exact .throwing rfl
    · split <;> exact (hdrawn _ _ _).ofImage

lemma raises_report (total : Int) (label : String) : RaisesOfImage (report total label) := by
  refine .bind (.of_ok fun w => ⟨_, _, rfl⟩) fun _ => .bind_get fun w => ?_
  have hrest : RaisesOfImage (do
      modify fun w => { w with meter := { w.meter with completed := w.meter.completed + 1 } }
      let m := (← get).meter
      showProgress m.completed m.total s!"Decompiled {label}" : Action Unit) :=
    .bind (.of_ok fun w => ⟨_, _, rfl⟩) fun _ => .bind_get fun w => raises_showProgress _ _ _
  split
  · exact hrest
  · exact .bind (.of_ok fun w => ⟨_, _, rfl⟩) fun _ => .bind (writes_log _ _).ofImage fun _ => hrest

end Console

/-! ### The external decompiler -/

namespace External

lemma raises_readLogTail (p : String) (count : Int) :
    Raises Files.IsRefusal (readLogTail p count) := by
  refine .bind (.catching (Q := Files.IsRefusal) ?_ ?_) fun read => .of_ok fun w => ?_
  · exact .bind (Files.raises_obtain _ _) fun _ => .of_ok fun w => ⟨_, _, rfl⟩
  · rintro e ⟨problem, q, target, rfl⟩
    dsimp only
    split
    · exact .of_ok fun w => ⟨_, _, rfl⟩
    · exact .bind (.throwing ⟨problem, q, target, rfl⟩) fun _ => .of_ok fun w => ⟨_, _, rfl⟩
  · cases read <;> exact ⟨_, _, rfl⟩

lemma raises_snapshot (p : String) : Raises Files.IsRefusal (Sources.snapshot p) := by
  refine .bind (.bind_get fun _ => Files.raises_obtain _ _) fun found => .filterMapM (fun q => ?_) _
  refine .catching (Q := Files.IsRefusal) (.bind (Files.raises_obtain _ _) fun _ => .pure _) ?_
  rintro e ⟨problem, q, target, rfl⟩
  split
  · exact .pure none
  · exact .throwing ⟨problem, q, target, rfl⟩

lemma raises_locate (executable : String) : RaisesOfImage (locate executable) := by
  refine .bind (.bind_get fun w => ?_) fun found => ?_
  · dsimp only
    split <;> exact .pure _
  · cases found with
    | none => exact .throwing rfl
    | some p => exact .pure p

lemma raises_watch {report : List String → Action (List String)} {after : Action Unit}
    (hr : ∀ reported, RaisesOfImage (report reported)) (ha : RaisesOfImage after)
    (place : List String) (polls : List (List FileTree.Change)) (reported : List String) :
    RaisesOfImage (watch report place after polls reported) := by
  induction polls generalizing reported with
  | nil => exact .bind ha fun _ => .discarding (hr _)
  | cons changes rest ih =>
    refine .bind (.of_ok fun w => ⟨_, _, rfl⟩) fun _ => ?_
    dsimp only
    split
    · exact .bind ha fun _ => .bind (hr _) fun _ => .pure _
    · exact .bind (hr _) ih

variable [Stream]

lemma raises_reportFresh (output : String) (baseline : List (String × Int)) (total : Int)
    (reported : List String) : RaisesOfImage (reportFresh output baseline total reported) := by
  refine .bind (raises_snapshot _).ofImage fun current => ?_
  exact .bind (.forM fun label _ => Console.raises_report _ _) fun _ => .pure _

lemma raises_await (output : String) (baseline : List (String × Int)) (total : Int)
    (place : List String) (log : String) (run : ProcessRun) :
    RaisesOfImage (await output baseline total place log run) := by
  refine .bind (raises_watch (fun _ => raises_reportFresh _ _ _ _)
    (Files.raises_extend _ _).ofImage _ _ _) fun _ => ?_
  split
  · exact .bind (raises_readLogTail _ _).ofImage fun _ => .throwing rfl
  · exact .pure ()

lemma raises_runProgram (s : Settings) (program : String) (total : Int) (job : Job) :
    RaisesOfImage (runProgram s program total job) := by
  refine .bind (Files.raises_write _ _).ofImage fun _ => ?_
  refine .bind (.of_ok fun w => ⟨_, _, rfl⟩) fun output => ?_
  refine .bind (raises_snapshot _).ofImage fun baseline => ?_
  refine .bind (Files.raises_write _ _).ofImage fun _ => ?_
  refine .bind (Files.raises_give _).ofImage fun _ => ?_
  refine .bind (Files.raises_obtain _ _).ofImage fun image => ?_
  refine .bind (.of_ok fun w => ⟨_, _, rfl⟩) fun _ => ?_
  exact .bind (.of_ok fun w => ⟨_, _, rfl⟩) fun run => raises_await _ _ _ _ _ _

/-- The external decompiler stops with faults of an image only. -/
lemma raises_decompiler (reader : ImageReader) (s : Settings) (job : Job) :
    RaisesOfImage (decompiler reader s job) := by
  refine .bind (raises_locate _) fun program => ?_
  refine .bind (.ofExcept fun _ _ => rfl) fun view => ?_
  refine .bind (.discarding (.bind_get fun _ => .ofExcept fun _ _ => rfl)) fun _ => ?_
  refine .bind (Files.raises_change _ _ _).ofImage fun _ => ?_
  refine .finally_ (raises_runProgram _ _ _ _) (.bind (.of_ok fun w => ⟨_, _, rfl⟩) fun found => ?_)
  split
  · exact (Files.raises_removeAll _).ofImage
  · exact .pure ()

end External

/-! ### From an image to its project -/

lemma References.raises_extract (reader : ImageReader) (i : Identity) (directory : String) :
    RaisesOfImage (extract reader i directory) := by
  refine .bind (Files.raises_makeDirectories _ _).ofImage fun _ => ?_
  refine .bind (.ofExcept fun _ _ => rfl) fun entries => ?_
  exact .bind (.forM fun _ _ => (Files.raises_write _ _).ofImage) fun _ => .pure _

namespace Decompiler

variable {reader : ImageReader} {d : Decompiler} {confirm : String → Action Bool}

/-- Declining a directory is not a fault of the run that asks about it. -/
lemma raises_admits (hc : ∀ question, RaisesOfImage (confirm question)) (output : String) :
    RaisesOfImage (admits output confirm) := by
  have hprepare : Raises (fun e => e.isOfImage = true ∨ ∃ reason, e = .declined reason)
      (prepare output confirm) := by
    refine .bind (.of_ok fun w => ⟨_, _, rfl⟩) fun found => ?_
    split
    · refine .bind (.of_ok fun w => ⟨_, _, rfl⟩) fun occupied => ?_
      split
      · refine .bind_get fun w => .bind ((hc _).mono fun _ => .inl) fun answer => ?_
        split
        · exact .pure ()
        · exact .throwing (.inr ⟨output, rfl⟩)
      · exact .pure ()
    · exact (Files.raises_makeDirectories _ _).ofImage.mono fun _ => .inl
  refine .catching (.bind hprepare fun _ => .pure true) fun e he => ?_
  rcases he with he | ⟨reason, rfl⟩
  · split
    · exact .pure false
    · exact .throwing he
  · exact .pure false

lemma raises_fixUpProject (output name : String) : RaisesOfImage (fixUpProject output name) := by
  refine .bind ((Files.raises_readText _).mono ?_) fun text =>
    .bind (Files.raises_write _ _).ofImage fun _ => .pure _
  rintro e (he | rfl)
  · exact Fault.isOfImage_of_isRefusal he
  · rfl

variable [Stream]

lemma raises_timed (hd : ∀ job, RaisesOfImage (d job)) (job : Job) :
    RaisesOfImage (timed d job) := by
  have hmeasured : RaisesOfImage (measured d job) := by
    refine .bind (Console.writes_line _).ofImage fun _ => ?_
    refine .bind (Console.writes_log _ _).ofImage fun _ => ?_
    refine .bind (.of_ok fun w => ⟨_, _, rfl⟩) fun _ => ?_
    refine .bind (.of_ok fun w => ⟨_, _, rfl⟩) fun _ => ?_
    exact .bind (hd job) fun _ => .of_ok fun w => ⟨_, _, rfl⟩
  refine .bind_get fun w => .bind (.of_ok fun w => ⟨_, _, rfl⟩) fun _ => ?_
  exact .finally_ (.finally_ hmeasured (Console.writes_finishProgress _).ofImage)
    (.of_ok fun w => ⟨_, _, rfl⟩)

lemma raises_fill (hd : ∀ job, RaisesOfImage (d job)) (i : Identity) (o : Options)
    (output : String) : RaisesOfImage (fill reader d i o output) := by
  refine .bind (Files.raises_makeDirectories _ _).ofImage fun _ => ?_
  refine .bind (References.raises_extract _ _ _) fun count => ?_
  refine .bind (Console.writes_log _ _).ofImage fun _ => ?_
  refine .bind_get fun w => .bind (raises_timed hd _) fun _ => ?_
  refine .bind (raises_fixUpProject _ _) fun project => ?_
  exact .bind (writes_summarize _ _ _ _ _).ofImage fun _ => .pure _

/-- Decompiling an image with a decompiler that stops with faults of an image stops with such. -/
lemma raises_run (hd : ∀ job, RaisesOfImage (d job))
    (hc : ∀ question, RaisesOfImage (confirm question)) (i : Identity) (o : Options) :
    RaisesOfImage (run reader d confirm i o) := by
  refine .bind (raises_admits hc _) fun admitted => ?_
  cases admitted with
  | true => exact .bind (raises_fill hd i o _) fun _ => .pure _
  | false => exact .bind (Console.writes_log _ _).ofImage fun _ => .pure _

end Decompiler

end SourceRecovery
