import SourceRecovery.Proofs.Decompiler.Course

/-!
# Protecting what a directory holds

A run asks at most one question, and does so before anything else; where the answer is no, nothing
is changed. A finished project holds its project file, so that a later run into its directory asks
again.
-/

namespace SourceRecovery

/-- Nothing is done to others. -/
def World.SameJournal (w v : World) : Prop := v.journal = w.journal

instance : IsPreorder World World.SameJournal where
  refl _ := rfl
  trans _ _ _ h h' := Eq.trans h' h

lemma World.OnlyTree.sameJournal {w v : World} (h : w.OnlyTree v) : w.SameJournal v := by
  obtain ⟨t, rfl⟩ := h
  rfl

lemma Action.Keeps.sameJournal {α : Type} {x : Action α} (h : Keeps World.OnlyTree x) :
    Keeps World.SameJournal x :=
  h.mono fun _ _ hw => hw.sameJournal

lemma Console.Prints.sameJournal {x : Action Unit} (h : Prints x) :
    Action.Keeps World.SameJournal x := by
  intro w
  obtain ⟨c, hc⟩ := h w
  rw [Action.after_of_ok hc]
  rfl

namespace Decompiler

open SourceRecovery.Action SourceRecovery.Path

variable {α β : Type} {x : Action α} {f : α → Action β} {reader : ImageReader} {d : Decompiler}
  {confirm : String → Action Bool} {i : Identity} {o : Options} {output : String}
  {qs : List Event} {w v : World}

/-! ### What a run notes -/

/-- What a run notes besides what the decompiler does: some events, and then the job if the
decompiler is called. -/
def Notes (d : Decompiler) (x : Action α) (w : World) (qs : List Event) : Prop :=
  (x.after w).journal = w.journal ++ qs ∨
    ∃ job u, u.journal = w.journal ++ qs ++ [.decompiling job] ∧
      (x.after w).journal = ((d job).after u).journal

lemma Notes.of_keeps (h : Keeps World.SameJournal x) : Notes d x w [] :=
  .inl ((h w).trans (List.append_nil _).symm)

/-- What is noted by an action that starts where another one has got to. -/
lemma Notes.of_after {y : Action β} (h : Notes d y v []) (hv : v.journal = w.journal ++ qs)
    (hx : (x.after w).journal = (y.after v).journal) : Notes d x w qs := by
  rcases h with h | ⟨job, u, hu, h⟩
  · exact .inl (by rw [hx, h, hv, List.append_nil])
  · exact .inr ⟨job, u, by rw [hu, hv, List.append_nil], hx.trans h⟩

lemma Notes.keeps_bind (hx : w.SameJournal (x.after w)) (hf : ∀ a v, Notes d (f a) v []) :
    Notes d (x >>= f) w [] := by
  cases h : x.run w with
  | ok a v =>
    rw [after_of_ok h] at hx
    exact (hf a v).of_after (hx.trans (List.append_nil _).symm) (by rw [after_bind_of_ok h])
  | error e v =>
    rw [after_of_error h] at hx
    refine .inl ?_
    rw [after_of_error (run_bind_of_error h), hx, List.append_nil]

lemma Notes.bind_keeps (hx : Notes d x w qs) (hf : ∀ a, Keeps World.SameJournal (f a)) :
    Notes d (x >>= f) w qs := by
  have hsame : ((x >>= f).after w).journal = (x.after w).journal := by
    cases h : x.run w with
    | ok a v => rw [after_bind_of_ok h, after_of_ok h, hf a v]
    | error e v => rw [after_of_error (run_bind_of_error h), after_of_error h]
  unfold Notes
  rw [hsame]
  exact hx

lemma notes_timed (d : Decompiler) (job : Job) (w : World) : Notes d (timed d job) w [] := by
  obtain ⟨c, u, hu, hcases⟩ := run_timed d job w
  rcases hcases with ⟨u', c', hd, heq⟩ | ⟨e, u', c', hd, heq⟩
  · exact .inr ⟨job, u, by simp [hu], by rw [after_of_ok heq, after_of_ok hd]⟩
  · exact .inr ⟨job, u, by simp [hu], by rw [after_of_error heq, after_of_error hd]⟩

/-- Once the directory is ready, no question is asked. -/
lemma notes_fill (reader : ImageReader) (d : Decompiler) (i : Identity) (o : Options)
    (output : String) (w : World) : Notes d (fill reader d i o output) w [] := by
  refine .keeps_bind ((Files.onlyTree_makeDirectories _ _).sameJournal _) fun _ _ => ?_
  refine .keeps_bind ((References.onlyTree_extract _ _ _).sameJournal _) fun count _ => ?_
  refine .keeps_bind ((Console.prints_log _ _).sameJournal _) fun _ _ => ?_
  refine .keeps_bind rfl fun u _ => ?_
  refine .bind_keeps (notes_timed _ _ _) fun took => ?_
  exact .bind (onlyTree_fixUpProject _ _).sameJournal fun project =>
    .bind (writes_summarize _ _ _ _ _).prints.sameJournal fun _ => .pure _

lemma notes_proceed (admitted : Bool) :
    Notes d (proceed reader d i o output admitted) w [] := by
  cases admitted with
  | false => exact .of_keeps (.bind (Console.prints_log _ _).sameJournal fun _ => .pure _)
  | true => exact (notes_fill reader d i o output w).bind_keeps fun _ => .pure _

/-! ### Refusals -/

/-- One question is asked, and nothing else is done. -/
def OnlyAsked (w v : World) : Prop :=
  ∃ text console answers,
    v = { w with console, answers, journal := w.journal ++ [.asked text] }

/-- A run asks about its directory before anything else, and goes on as it is answered. -/
def AsksFirst (reader : ImageReader) (d : Decompiler) (confirm : String → Action Bool)
    (i : Identity) (o : Options) (w : World) : Prop :=
  ∃ answer u, OnlyAsked w u ∧
    (confirm (reuseQuestion w.directory (o.directoryFor i))).run w = .ok answer u ∧
    (run reader d confirm i o).run w = (proceed reader d i o (o.directoryFor i) answer).run u

lemma asksFirst_of_occupied (reader : ImageReader) (d : Decompiler) (hc : Console.Asks confirm)
    (ho : Occupied w.tree w.directory (o.directoryFor i)) : AsksFirst reader d confirm i o w := by
  obtain ⟨answer, text, console, answers, hconfirm, hadmits⟩ := run_admits_of_occupied hc ho
  exact ⟨answer, _, ⟨text, console, answers, rfl⟩, hconfirm, run_bind_of_ok hadmits⟩

lemma run_proceed_false (reader : ImageReader) (d : Decompiler) (i : Identity) (o : Options)
    (output : String) (w : World) : ∃ console,
    (proceed reader d i o output false).run w = .ok none { w with console } := by
  obtain ⟨c, hc⟩ := Console.prints_log .warn "Skipped, output directory left untouched" w
  exact ⟨c, run_bind_of_ok hc⟩

lemma eq_false_of_proceed {admitted : Bool}
    (h : (proceed reader d i o output admitted).run w = .ok none v) : admitted = false := by
  cases admitted with
  | false => rfl
  | true =>
    obtain ⟨took, u, -, hdone⟩ := bind_eq_ok.mp h
    cases hdone

/-- A refusal leaves everything as it was. -/
lemma AsksFirst.run_of_refused (h : AsksFirst reader d confirm i o w)
    (hr : (confirm (reuseQuestion w.directory (o.directoryFor i))).run w = .ok false v) :
    ∃ v, (run reader d confirm i o).run w = .ok none v ∧ OnlyAsked w v := by
  obtain ⟨answer, u, ⟨text, console, answers, rfl⟩, hconfirm, hrun⟩ := h
  cases hconfirm.symm.trans hr
  obtain ⟨c, hc⟩ := run_proceed_false reader d i o (o.directoryFor i)
    { w with console, answers, journal := w.journal ++ [.asked text] }
  exact ⟨_, hrun.trans hc, text, c, answers, rfl⟩

/-- Where a directory holds no file directly, no run declines. -/
lemma occupied_of_run_eq_none (h : (run reader d confirm i o).run w = .ok none v) :
    Occupied w.tree w.directory (o.directoryFor i) := by
  by_contra ho
  obtain ⟨admitted, u, hadmits, hproceed⟩ := bind_eq_ok.mp h
  rw [eq_false_of_proceed hproceed] at hadmits
  cases hd : w.tree.isDirectory w.directory (o.directoryFor i) with
  | true => cases hadmits.symm.trans (run_admits_of_isDirectory hd ho)
  | false =>
    rw [run_admits_of_missing hd] at hadmits
    cases hm : (Files.makeDirectories (o.directoryFor i) false).run w <;> simp [hm] at hadmits

lemma notes_run (hc : Console.Asks confirm) (w : World) :
    ∃ qs, Questions w.tree w.directory (o.directoryFor i) qs ∧
      Notes d (run reader d confirm i o) w qs := by
  by_cases ho : Occupied w.tree w.directory (o.directoryFor i)
  · obtain ⟨answer, u, ⟨text, console, answers, rfl⟩, -, hrun⟩ :=
      asksFirst_of_occupied reader d hc ho
    refine ⟨[.asked text], .inl ⟨ho, text, rfl⟩, ?_⟩
    exact (notes_proceed answer).of_after rfl (congrArg _ (after_congr hrun))
  · refine ⟨[], .inr ⟨ho, rfl⟩, .keeps_bind ?_ fun admitted v => notes_proceed admitted⟩
    cases hd : w.tree.isDirectory w.directory (o.directoryFor i) with
    | true =>
      rw [after_of_ok (run_admits_of_isDirectory hd ho)]
      exact refl_of World.SameJournal w
    | false =>
      have hafter : (admits (o.directoryFor i) confirm).after w =
          (Files.makeDirectories (o.directoryFor i) false).after w := by
        simp only [after, run_admits_of_missing hd]
        cases (Files.makeDirectories (o.directoryFor i) false).run w <;> rfl
      rw [hafter]
      exact (Files.onlyTree_makeDirectories _ _).sameJournal w

/-! ### Finished projects -/

/-- A path leads to a directory that no run uses without asking: one that is refused does nothing
else, whatever it decompiles and by whatever path it gets there. -/
def Guarded (t : FileTree) (cwd : List String) (output : String) : Prop :=
  t.isDirectory cwd output = true ∧
    ∀ reader d confirm i o w, Console.Asks confirm → w.tree = t →
      t.isDirectory w.directory (Options.directoryFor o i) = true →
      destination w.directory (o.directoryFor i) = destination cwd output →
      AsksFirst reader d confirm i o w ∧
        ∀ v, (confirm (reuseQuestion w.directory (o.directoryFor i))).run w = .ok false v →
          ∃ v, (run reader d confirm i o).run w = .ok none v ∧ OnlyAsked w v

lemma Occupied.guarded {t : FileTree} {cwd : List String} (h : Occupied t cwd output) :
    Guarded t cwd output := by
  refine ⟨h.directory, fun reader d confirm i o w hc ht hd heq => ?_⟩
  subst ht
  have hasks := asksFirst_of_occupied reader d hc (h.of_destination hd heq)
  exact ⟨hasks, fun v hv => hasks.run_of_refused hv⟩

/-- The project file that is fixed up lies directly in the directory for the project. -/
lemma occupied_of_fixUpProject {name p : String} (hname : '/' ∉ name.toList) (ho : output ≠ "")
    (h : (fixUpProject output name).run w = .ok p v) :
    Occupied v.tree v.directory output := by
  obtain ⟨hplain, hdirs, f, text, x, hf, -, rfl⟩ := fixUpProject_eq_ok h
  have hn := isName_project hname
  have hprefix := isPrefix_join (p := output) (isAbsolute_of_no_slash hn.no_slash)
  have hplace : destination w.directory (projectPath output name) =
      destination w.directory output ++ [name ++ ".csproj"] := destination_join hn
  have hplaces : (places w.directory (projectPath output name)).dropLast =
      places w.directory output := by
    rw [projectPath, places_join hn, List.dropLast_concat]
  rw [hplaces] at hdirs
  rw [hplace] at hf ⊢
  have hdir := FileTree.isDirectory_iff.mpr ⟨hplain.of_subset hprefix.subset ho, hdirs⟩
  refine ⟨FileTree.KeepsKinds.isDirectory (.put_file ?_) hdir, _, _,
    FileTree.get?_put_self _ _ (by simp)⟩
  simp [hf]

/-- A decompilation ends with the project file. -/
lemma occupied_of_fill {took : Int} (hname : '/' ∉ i.name.toList) (ho : output ≠ "")
    (h : (fill reader d i o output).run w = .ok took v) : Occupied v.tree v.directory output := by
  obtain ⟨⟨⟩, u₁, -, hrest⟩ := bind_eq_ok.mp h
  obtain ⟨count, u₂, -, hrest⟩ := bind_eq_ok.mp hrest
  obtain ⟨⟨⟩, u₃, -, hrest⟩ := bind_eq_ok.mp hrest
  obtain ⟨w', u₄, -, hrest⟩ := bind_eq_ok.mp hrest
  obtain ⟨⟨took', files⟩, u₅, -, hrest⟩ := bind_eq_ok.mp hrest
  obtain ⟨project, u₆, hfix, hrest⟩ := bind_eq_ok.mp hrest
  obtain ⟨⟨⟩, u₇, hsummarize, hdone⟩ := bind_eq_ok.mp hrest
  cases hdone
  obtain ⟨c, rfl⟩ := (writes_summarize _ _ _ _ _).of_ok hsummarize
  have hoccupied := occupied_of_fixUpProject hname ho hfix
  exact ⟨hoccupied.directory, hoccupied.file⟩

lemma occupied_of_run_eq_some {took : Int} (hc : Console.Asks confirm)
    (hname : '/' ∉ i.name.toList) (h : (run reader d confirm i o).run w = .ok (some took) v) :
    Occupied v.tree v.directory (o.directoryFor i) := by
  obtain ⟨admitted, u, hadmits, hproceed⟩ := bind_eq_ok.mp h
  obtain ⟨-, -, -, -, -, -, -, hne⟩ := admits_eq_ok hc hadmits
  cases admitted with
  | false =>
    obtain ⟨c, hfalse⟩ := run_proceed_false reader d i o (o.directoryFor i) u
    cases hproceed.symm.trans hfalse
  | true =>
    obtain ⟨took', u', hfill, hdone⟩ := bind_eq_ok.mp hproceed
    cases hdone
    exact occupied_of_fill hname (hne rfl) hfill

/-- A run declines if and only if its directory holds a file directly and the operator refuses;
then nothing is done but asking. One question is asked if and only if the directory holds a file
directly. A directory that a run finished a project in is guarded from then on. -/
theorem run_guarded (hc : Console.Asks confirm) (reader : ImageReader) (d : Decompiler)
    (i : Identity) (o : Options) (w : World) :
    ((∃ v, (run reader d confirm i o).run w = .ok none v) ↔
        Occupied w.tree w.directory (o.directoryFor i) ∧
          ∃ v, (confirm (reuseQuestion w.directory (o.directoryFor i))).run w = .ok false v) ∧
      (∀ v, (run reader d confirm i o).run w = .ok none v → OnlyAsked w v) ∧
      (∃ qs, Questions w.tree w.directory (o.directoryFor i) qs ∧
        Notes d (run reader d confirm i o) w qs) ∧
      ∀ took v, (run reader d confirm i o).run w = .ok (some took) v → '/' ∉ i.name.toList →
        Guarded v.tree v.directory (o.directoryFor i) := by
  have hrefused : ∀ v, (run reader d confirm i o).run w = .ok none v →
      OnlyAsked w v ∧ ∃ u,
        (confirm (reuseQuestion w.directory (o.directoryFor i))).run w = .ok false u := by
    intro v h
    have hasks := asksFirst_of_occupied reader d hc (occupied_of_run_eq_none h)
    obtain ⟨answer, u, -, hconfirm, hrun⟩ := id hasks
    rw [eq_false_of_proceed (hrun.symm.trans h)] at hconfirm
    obtain ⟨v', hv', honly⟩ := hasks.run_of_refused hconfirm
    cases h.symm.trans hv'
    exact ⟨honly, u, hconfirm⟩
  refine ⟨⟨?_, ?_⟩, fun v h => (hrefused v h).1, notes_run hc w, fun took v h hname =>
    (occupied_of_run_eq_some hc hname h).guarded⟩
  · rintro ⟨v, h⟩
    exact ⟨occupied_of_run_eq_none h, (hrefused v h).2⟩
  · rintro ⟨ho, u, hu⟩
    obtain ⟨v, hv, -⟩ := (asksFirst_of_occupied reader d hc ho).run_of_refused hu
    exact ⟨v, hv⟩

/-- A first run into an empty directory guards it. -/
theorem run_guarded_sample : ∃ v,
    (run sampleReader sampleDecompiler Console.confirm sampleIdentity sampleOptions).run
      (World.sample [(["out"], .directory)] []) = .ok (some 7) v ∧
    Guarded v.tree v.directory "out" := by
  obtain ⟨v, hv⟩ := exists_of_result? (a := some 7) (show (run sampleReader sampleDecompiler
    Console.confirm sampleIdentity sampleOptions).result?
      (World.sample [(["out"], .directory)] []) = some (some 7) by decide +kernel)
  obtain ⟨-, -, -, hguarded⟩ := run_guarded Console.asks_confirm sampleReader sampleDecompiler
    sampleIdentity sampleOptions (World.sample [(["out"], .directory)] [])
  exact ⟨v, hv, hguarded 7 v hv (by decide)⟩

end Decompiler

end SourceRecovery
