import SourceRecovery.Proofs.Decompiler.Course
import SourceRecovery.Proofs.Server.Staging

/-!
# Progress bars that are closed

Calling a decompiler closes the progress bar however the decompiler ends, so that no decompilation
leaves one open. A download closes it only once the file has its name: where it stops after
something was drawn, the bar is left open.
-/

namespace SourceRecovery

open SourceRecovery.Action SourceRecovery.Path

/-- Where no progress bar is open, none is open afterwards. -/
def World.StaysClosed (w v : World) : Prop :=
  w.console.barOpen = false → v.console.barOpen = false

instance : IsPreorder World World.StaysClosed where
  refl _ h := h
  trans _ _ _ h h' hw := h' (h hw)

lemma World.OnlyTree.staysClosed {w v : World} (h : w.OnlyTree v) : w.StaysClosed v := by
  obtain ⟨t, rfl⟩ := h
  exact id

lemma Action.Keeps.staysClosed {α : Type} {x : Action α} (h : Keeps World.OnlyTree x) :
    Keeps World.StaysClosed x :=
  h.mono fun _ _ hw => hw.staysClosed

/-! ### Lines and questions -/

namespace Console

lemma staysClosed_line (s : String) : Keeps World.StaysClosed (line s) := fun _ h => h

lemma staysClosed_log (level : Level) (msg : String) : Keeps World.StaysClosed (log level msg) :=
  fun _ h => h

lemma staysClosed_palette : Keeps World.StaysClosed palette := fun _ h => h

/-- Only a progress bar that is shown is opened, and no question shows one. -/
lemma staysClosed_confirm (question : String) : Keeps World.StaysClosed (confirm question) := by
  refine staysClosed_palette.bind fun p => .bind ?_ fun answer => .pure _
  exact .bind (fun _ h => h) fun _ => (staysClosed_line _).bind fun _ _ h => h

end Console

/-! ### Decompilations -/

namespace Decompiler

variable {reader : ImageReader} {d : Decompiler} {confirm : String → Action Bool} {i : Identity}
  {o : Options} {output : String}

/-- However a decompiler ends, no progress bar is open once it was called. -/
lemma barOpen_timed (d : Decompiler) (job : Job) (w : World) :
    ((timed d job).after w).console.barOpen = false := by
  have htimed : (timed d job).after w =
      (tryFinally (tryFinally (measured d job) (Console.finishProgress ""))
        (modify fun v => { v with meter := w.meter } : Action Unit)).after
        { w with meter := .fresh } := rfl
  rw [htimed, after_tryFinally, after_tryFinally, after_of_ok (Console.run_finishProgress_empty _)]
  exact Console.barOpen_closed _

lemma staysClosed_summarize (output project : String) (took : Int) (files references : ℕ) :
    Keeps World.StaysClosed (summarize output project took files references) := by
  refine Console.staysClosed_palette.bind fun p => (Console.staysClosed_line _).bind fun _ =>
    (Console.staysClosed_log _ _).bind fun _ => (Files.keeps_inspect _).bind fun place => ?_
  exact (Console.staysClosed_line _).bind fun _ => (Console.staysClosed_line _).bind fun _ =>
    (Console.staysClosed_line _).bind fun _ => (Console.staysClosed_line _).bind fun _ =>
      Console.staysClosed_line _

lemma staysClosed_fill (reader : ImageReader) (d : Decompiler) (i : Identity) (o : Options)
    (output : String) : Keeps World.StaysClosed (fill reader d i o output) := by
  refine (Files.onlyTree_makeDirectories _ _).staysClosed.bind fun _ =>
    (References.onlyTree_extract _ _ _).staysClosed.bind fun count =>
      (Console.staysClosed_log _ _).bind fun _ => .bind (fun w h => h) fun w => ?_
  refine .bind (fun w _ => barOpen_timed _ _ w) fun took => ?_
  exact (onlyTree_fixUpProject _ _).staysClosed.bind fun project =>
    (staysClosed_summarize _ _ _ _ _).bind fun _ => .pure _

lemma staysClosed_admits (hc : ∀ question, Keeps World.StaysClosed (confirm question))
    (output : String) : Keeps World.StaysClosed (admits output confirm) := by
  refine .catching (.bind (.bind (Files.keeps_inspect _) fun there => ?_) fun _ => .pure _)
    fun e => ?_
  · split_ifs
    · refine .bind (Files.keeps_inspect _) fun occupied => ?_
      split_ifs
      · refine .bind (fun w h => h) fun w => (hc _).bind fun answer => ?_
        split_ifs
        · exact .pure _
        · exact .throwing _
      · exact .pure _
    · exact (Files.onlyTree_makeDirectories _ _).staysClosed
  · split
    · exact .pure _
    · exact .throwing _

lemma staysClosed_run (hc : ∀ question, Keeps World.StaysClosed (confirm question))
    (reader : ImageReader) (d : Decompiler) (i : Identity) (o : Options) :
    Keeps World.StaysClosed (run reader d confirm i o) := by
  refine (staysClosed_admits hc _).bind fun admitted => ?_
  cases admitted with
  | false => exact (Console.staysClosed_log _ _).bind fun _ => .pure _
  | true => exact (staysClosed_fill reader d i o _).bind fun _ => .pure _

end Decompiler

/-! ### Downloads -/

namespace Server

variable {url path : String} {total : Int} {r : Response} {w : World}

/-- Progress of a download is drawn, and then the download stops: what comes is not empty and of an
announced length that can be told, and the name beside the path can be written, but the bytes cannot
be stored at the path, or their progress cannot be shown to the end. -/
structure StopsInProgress (w : World) (url path : String) (r : Response) (total : Int) : Prop where
  answered : w.response url = .ok r
  announced : announcedLength r = .ok total
  counted : 0 < total ∧ total < Figures.sizeLimit
  beside : w.tree.IsWritable w.directory (path ++ ".part")
  come : r.body ≠ []
  stopped : ¬ (Storable w path ∧ ∀ n, IsMark r.body.length n → Showable total n)

/-- The first chunk of a body can be shown if the total can be told. -/
lemma showable_first_iff (ht : 0 < total) :
    Showable total (r.body.take Archive.chunk).length ↔ total < Figures.sizeLimit := by
  obtain ⟨m, rfl⟩ : ∃ m : ℕ, total = m := ⟨total.toNat, by omega⟩
  have hchunk : (r.body.take Archive.chunk).length < 1024 * 1024 := by
    rw [List.length_take, Archive.chunk]
    omega
  rw [Nat.cast_lt, ← Figures.isSome_size?_iff]
  refine ⟨fun h => h.totalText, fun h => ⟨(Figures.isSome_size?_iff _).mpr ?_, h, .inr ?_⟩⟩
  · exact hchunk.trans_le (Nat.le_mul_of_pos_left _ Binary64.ceiling_pos)
  · have hbound : (2 : ℕ) ^ 20 ≤ 2 ^ 1000 := pow_le_pow_right₀ one_le_two (by decide)
    exact Figures.Bar.isSome_of? (hchunk.trans_le hbound) _

lemma barOpen_shown (c : Console) (total : Int) (texts : List String) :
    (shown c total texts).barOpen = true ↔ c.barOpen = true ∨ 0 < total ∧ texts ≠ [] := by
  simp [shown]

/-- A body that is gathered leaves no progress bar open, and one that is not leaves it open if its
first chunk was shown. -/
lemma barOpen_gather_iff (hw : w.console.barOpen = false) :
    ((gather path r total).after w).console.barOpen = true ↔
      (0 < total ∧ total < Figures.sizeLimit) ∧
        w.tree.IsWritable w.directory (path ++ ".part") ∧ r.body ≠ [] ∧
        ¬ (Storable w path ∧ ∀ n, IsMark r.body.length n → Showable total n) := by
  by_cases h : Storable w path ∧ ∀ n, IsMark r.body.length n → Showable total n
  · obtain ⟨g, texts, size, -, -, -, hrun⟩ := gather_eq_ok h.1 h.2
    have hclosed := Console.barOpen_closed (shown w.console total texts)
    rw [after_of_ok hrun]
    refine iff_of_false (fun hopen => ?_) fun hleft => hleft.2.2.2 h
    cases hclosed.symm.trans hopen
  · obtain ⟨e, v, texts, hrun, -, hconsole, htexts⟩ := gather_eq_error h
    rw [after_of_error hrun, hconsole, barOpen_shown, hw, htexts]
    constructor
    · rintro (hopen | ⟨ht, hbeside, hb, hfirst⟩)
      · cases hopen
      · exact ⟨⟨ht, (showable_first_iff ht).mp hfirst⟩, hbeside, hb, h⟩
    · rintro ⟨⟨ht, hlimit⟩, hbeside, hb, -⟩
      exact .inr ⟨ht, hbeside, hb, (showable_first_iff ht).mpr hlimit⟩

lemma barOpen_download_iff (hw : w.console.barOpen = false) :
    ((download url path).after w).console.barOpen = true ↔
      ∃ r total, StopsInProgress w url path r total := by
  have hrequested : (requested w url).console.barOpen = false := hw
  have hstays {e : Fault} (h : (download url path).run w = .error e (requested w url)) :
      ¬ ((download url path).after w).console.barOpen = true := by
    rw [after_of_error h, hrequested]
    exact Bool.false_ne_true
  have hrun := run_download url path w
  cases hresponse : w.response url with
  | error e =>
    simp only [hresponse] at hrun
    refine iff_of_false (hstays hrun) ?_
    rintro ⟨r, total, h⟩
    cases h.answered.symm.trans hresponse
  | ok r =>
    simp only [hresponse] at hrun
    cases htotal : announcedLength r with
    | error cause =>
      simp only [htotal] at hrun
      refine iff_of_false (hstays hrun) ?_
      rintro ⟨r', total, h⟩
      cases h.answered.symm.trans hresponse
      cases h.announced.symm.trans htotal
    | ok total =>
      simp only [htotal] at hrun
      rw [after_congr hrun, barOpen_gather_iff hrequested, storable_requested_iff]
      constructor
      · rintro ⟨hcounted, hbeside, hb, hstopped⟩
        exact ⟨r, total, hresponse, htotal, hcounted, hbeside, hb, hstopped⟩
      · rintro ⟨r', total', h⟩
        cases h.answered.symm.trans hresponse
        cases h.announced.symm.trans htotal
        exact ⟨h.counted, h.beside, h.come, h.stopped⟩

end Server

/-! ### All that show progress -/

open Decompiler Server

variable {reader : ImageReader} {d : Decompiler} {confirm : String → Action Bool} {i : Identity}
  {o : Options} {url path : String}

/-- No progress bar stays open: where none is open, none is open after a decompilation or a
download, however it ends. -/
def ClosesBars (reader : ImageReader) (d : Decompiler) (confirm : String → Action Bool)
    (i : Identity) (o : Options) (url path : String) (w : World) : Prop :=
  w.StaysClosed ((run reader d confirm i o).after w) ∧
    w.StaysClosed ((download url path).after w)

/-- A decompilation leaves no progress bar open, whatever is decompiled and whatever the decompiler
does, if asking the operator opens none. A download leaves one open exactly if it stops once
progress was drawn. -/
theorem closesBars_iff (hc : ∀ question, Keeps World.StaysClosed (confirm question))
    (reader : ImageReader) (d : Decompiler) (i : Identity) (o : Options) (url path : String)
    (w : World) :
    w.StaysClosed ((run reader d confirm i o).after w) ∧
      (ClosesBars reader d confirm i o url path w ↔
        (w.console.barOpen = false → ∀ r total, ¬ StopsInProgress w url path r total)) := by
  have hrun := staysClosed_run hc reader d i o w
  refine ⟨hrun, (and_iff_right hrun).trans (forall_congr' fun hw => ?_)⟩
  rw [← Bool.not_eq_true, barOpen_download_iff hw]
  push Not
  exact Iff.rfl

/-- An address that answers one byte, and a directory. -/
def barSample : World :=
  { World.sample [(["a"], .directory)] [] with network := [("http://h/a.zip", ⟨[80], some "1"⟩)] }

/-- Where the byte becomes a file, no progress bar stays open, and none does where the decompiler
stops once it has reported a file. -/
theorem closesBars_sample : ClosesBars sampleReader
    (fun _ => do Console.report 2 "Main.cs"; throw .tooDeep) Console.confirm sampleIdentity
    sampleOptions "http://h/a.zip" "b" barSample := by
  refine (closesBars_iff Console.staysClosed_confirm _ _ _ _ _ _ _).2.mpr fun _ r total h => ?_
  have hclosed : ((download "http://h/a.zip" "b").after barSample).console.barOpen = false := by
    decide +kernel
  cases hclosed.symm.trans ((barOpen_download_iff rfl).mpr ⟨r, total, h⟩)

/-- The byte cannot take the place of the directory, and the progress bar that was drawn for it
stays open. -/
theorem not_closesBars_sample : ¬ ClosesBars sampleReader sampleDecompiler Console.confirm
    sampleIdentity sampleOptions "http://h/a.zip" "a" barSample := by
  rintro ⟨-, h⟩
  have hopen : ((download "http://h/a.zip" "a").after barSample).console.barOpen = true := by
    decide +kernel
  cases (h rfl).symm.trans hopen

end SourceRecovery
