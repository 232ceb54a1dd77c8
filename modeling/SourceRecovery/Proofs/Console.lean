import SourceRecovery.Console.Output
import SourceRecovery.Proofs.Action
import SourceRecovery.Proofs.Figures

/-!
# What writing to the console does

Lines change nothing of the world but the console, and succeed unless the stream refuses them. A
report is noted and counted. A question is noted, and is answered by the next line that the operator
enters.
-/

namespace SourceRecovery.Console

variable {x y : Action Unit} {w : World}

/-! ### Lines -/

section Streams

variable [Stream]

/-- An action that does nothing but write to the console. It stops only where the stream refuses a
text. -/
def Writes (x : Action Unit) : Prop := ∀ w, ∃ c, x.run w = .ok () { w with console := c } ∨
  x.run w = .error .unprintable { w with console := c } ∧ ∃ s, Stream.refuses s = true

namespace Writes

lemma pure : Writes (Pure.pure ()) := fun w => ⟨w.console, .inl rfl⟩

lemma seq (hx : Writes x) (hy : Writes y) : Writes (do x; y) := by
  intro w
  obtain ⟨c, hok | ⟨herror, hs⟩⟩ := hx w
  · obtain ⟨d, hok' | ⟨herror, hs⟩⟩ := hy { w with console := c }
    · exact ⟨d, .inl (by rw [Action.run_bind_of_ok hok, hok'])⟩
    · exact ⟨d, .inr ⟨by rw [Action.run_bind_of_ok hok, herror], hs⟩⟩
  · exact ⟨c, .inr ⟨Action.run_bind_of_error herror, hs⟩⟩

/-- What is written may depend on what is found. -/
lemma seeing {α : Type} {x : Action α} {f : α → Action Unit}
    (hx : ∀ w, ∃ a, x.run w = .ok a w) (hf : ∀ a, Writes (f a)) : Writes (x >>= f) := by
  intro w
  obtain ⟨a, ha⟩ := hx w
  rw [Action.run_bind_of_ok ha]
  exact hf a w

lemma forM {α : Type} {f : α → Action Unit} (hf : ∀ a, Writes (f a)) (as : List α) :
    Writes (as.forM f) := by
  induction as with
  | nil => exact pure
  | cons a as ih => exact (hf a).seq ih

lemma raises (h : Writes x) :
    Action.Raises (fun e => e = .unprintable ∧ ∃ s, Stream.refuses s = true) x := by
  intro w e v he
  obtain ⟨c, hok | ⟨herror, hs⟩⟩ := h w
  · cases hok.symm.trans he
  · cases herror.symm.trans he
    exact ⟨rfl, hs⟩

/-- What is written changes nothing but the console. -/
lemma of_ok {w v : World} (h : Writes x) (hv : x.run w = .ok () v) :
    ∃ c, v = { w with console := c } := by
  obtain ⟨c, hok | ⟨herror, -⟩⟩ := h w
  · cases hok.symm.trans hv
    exact ⟨c, rfl⟩
  · cases herror.symm.trans hv

end Writes

lemma run_write (s : String) (w : World) : (write s).run w =
    if Stream.refuses s then .error .unprintable w
    else .ok () { w with console := { w.console with output := w.console.output ++ s } } := by
  unfold write
  split <;> rfl

lemma writes_write (s : String) : Writes (write s) := by
  intro w
  rw [run_write]
  split
  · exact ⟨w.console, .inr ⟨rfl, s, ‹_›⟩⟩
  · exact ⟨_, .inl rfl⟩

lemma writes_line (s : String) : Writes (line s) := writes_write _

lemma writes_log (level : Level) (msg : String) : Writes (log level msg) :=
  .seeing (fun _ => ⟨_, rfl⟩) fun _ => writes_line _

lemma writes_leaveBar : Writes leaveBar := by
  refine .seeing (x := get) (fun w => ⟨w, rfl⟩) fun w => ?_
  split
  · exact (writes_write _).seq fun _ => ⟨_, .inl rfl⟩
  · exact .pure

lemma writes_finishProgress (summary : String) : Writes (finishProgress summary) := by
  refine writes_leaveBar.seq ?_
  split
  · exact .pure
  · exact writes_line summary

end Streams

/-- An action that does nothing but write to the console. -/
def Prints (x : Action Unit) : Prop := ∀ w, ∃ c, x.run w = .ok () { w with console := c }

/-- A stream that takes every text stops nothing. -/
lemma Writes.prints (h : Writes x) : Prints x := by
  intro w
  obtain ⟨c, hok | ⟨-, s, hs⟩⟩ := h w
  · exact ⟨c, hok⟩
  · cases hs

lemma Prints.of_ok {v : World} (hx : Prints x) (h : x.run w = .ok () v) :
    ∃ c, v = { w with console := c } := by
  obtain ⟨c, hc⟩ := hx w
  cases h.symm.trans hc
  exact ⟨c, rfl⟩

lemma prints_line (s : String) : Prints (line s) := (writes_line s).prints

lemma run_forM_line {α : Type} (f : α → String) (as : List α) (w : World) :
    (as.forM fun a => line (f a)).run w = .ok () { w with console := { w.console with
      output := w.console.output ++ String.join (as.map fun a => f a ++ "\n") } } := by
  induction as generalizing w with
  | nil => simp
  | cons a as ih =>
    refine (Action.run_bind_of_ok (x := line (f a)) rfl).trans ((ih _).trans ?_)
    simp [String.append_assoc]

/-- A line of the log. -/
def logText (p : Palette) (level : Level) (msg : String) : String :=
  level.tag p ++ p.plain ++ " " ++ msg ++ "\n"

/-- The console with one more line of the log on it. -/
def logged (c : Console) (level : Level) (msg : String) : Console :=
  { c with output := c.output ++ logText (.ofFlag c.colored) level msg }

lemma run_log (level : Level) (msg : String) (w : World) :
    (log level msg).run w = .ok () { w with console := logged w.console level msg } := rfl

lemma prints_log (level : Level) (msg : String) : Prints (log level msg) :=
  (writes_log level msg).prints

/-- The console once its progress bar is left, if it was open. -/
def closed (c : Console) : Console :=
  if c.barOpen then { c with output := c.output ++ "\n\n", barOpen := false } else c

lemma barOpen_closed (c : Console) : (closed c).barOpen = false := by
  unfold closed
  split_ifs with h
  · rfl
  · exact Bool.eq_false_iff.mpr h

lemma run_leaveBar (w : World) :
    leaveBar.run w = .ok () { w with console := closed w.console } := by
  cases h : w.console.barOpen with
  | false => simp [leaveBar, closed, h]
  | true => simp [leaveBar, closed, h, write]

lemma run_finishProgress_empty (w : World) :
    (finishProgress "").run w = .ok () { w with console := closed w.console } := by
  rw [finishProgress, Action.run_bind_of_ok (run_leaveBar w)]
  rfl

lemma prints_finishProgress (summary : String) : Prints (finishProgress summary) :=
  (writes_finishProgress summary).prints

/-! ### Progress -/

/-- The progress bar with the share and the counts. -/
def barLine (p : Palette) (current total : Int) (bar : Figures.Bar) : String :=
  s!"\r\x1b[K{p.cyan}[{bar.text}]{p.plain} {p.bold}{Figures.percentage current total}%{p.plain} " ++
    s!"({current}/{total})"

/-- The line below the progress bar. -/
def labelLine (p : Palette) (label : String) : String :=
  if label.isEmpty then s!"\x1b[K{p.dim}  -> Processing...{p.plain}"
  else s!"\x1b[K{p.dim}  -> {p.plain}{p.green}{label}{p.plain}"

/-- What is drawn for a part of a total: the bar and a label below, and back to where it starts. -/
def drawing (p : Palette) (current total : Int) (bar : Figures.Bar) (label : String) : String :=
  barLine p current total bar ++ "\n" ++ (labelLine p label ++ "\n") ++ "\x1b[2A"

/-- The console with a drawing on it, after which the bar is open. -/
def drawn (c : Console) (s : String) : Console :=
  { c with output := c.output ++ s, barOpen := true }

lemma run_lines (a b c : String) (w : World) :
    (do line a; line b; write c; modify fun w =>
      { w with console := { w.console with barOpen := true } } : Action Unit).run w =
        .ok () { w with console := drawn w.console (a ++ "\n" ++ (b ++ "\n") ++ c) } := by
  simp [line, write, drawn, String.append_assoc]

lemma run_showProgress_of_nonpos {current total : Int} (label : String) (ht : total ≤ 0)
    (w : World) : (showProgress current total label).run w = .ok () w := by
  simp [showProgress, ht]

/-- Where there is a bar for it, progress is drawn. -/
lemma run_showProgress {current total : Int} {bar : Figures.Bar} (label : String)
    (ht : ¬ total ≤ 0)
    (hbar : Figures.Bar.of? current total Figures.Bar.defaultWidth = some bar) (w : World) :
    (showProgress current total label).run w = .ok () { w with
      console :=
        drawn w.console (drawing (.ofFlag w.console.colored) current total bar label) } := by
  have hpalette : palette.run w = .ok (.ofFlag w.console.colored) w := rfl
  have hlines : (showProgress current total label).run w = (do
      line (barLine (.ofFlag w.console.colored) current total bar)
      line (labelLine (.ofFlag w.console.colored) label)
      write "\x1b[2A"
      modify fun w => { w with
        console := { w.console with barOpen := true } } : Action Unit).run w := by
    rw [showProgress, if_neg ht, Action.run_bind_of_ok hpalette]
    dsimp only
    rw [hbar, labelLine]
    split_ifs <;> rfl
  rw [hlines, run_lines]
  rfl

/-- Where there is a bar for it, or no total to show, progress is written to the console only. -/
lemma exists_showProgress {current total : Int} (label : String)
    (h : total ≤ 0 ∨ (Figures.Bar.of? current total Figures.Bar.defaultWidth).isSome) (w : World) :
    ∃ c, (showProgress current total label).run w = .ok () { w with console := c } := by
  by_cases ht : total ≤ 0
  · exact ⟨w.console, run_showProgress_of_nonpos label ht w⟩
  · obtain ⟨bar, hbar⟩ := Option.isSome_iff_exists.mp (h.resolve_left ht)
    exact ⟨_, run_showProgress label ht hbar w⟩

/-- Progress for which there is no bar is not shown, and stops what it is shown for. -/
lemma run_showProgress_of_none {current total : Int} (label : String) (ht : ¬ total ≤ 0)
    (h : Figures.Bar.of? current total Figures.Bar.defaultWidth = none) (w : World) :
    (showProgress current total label).run w = .error .outOfRange w := by
  simp [showProgress, ht, h, palette]

/-- Between two worlds, labels are reported: they are noted in their order and counted, and nothing
else is changed but the console. -/
structure Reported (total : Int) (labels : List String) (w v : World) : Prop where
  world : ∃ console meter, v = { w with
    console, meter, journal := w.journal ++ labels.map (.reported total) }
  counted : v.meter.completed = w.meter.completed + labels.length

namespace Reported

variable {total : Int} {labels labels' : List String} {u v : World}

lemma nil (total : Int) (w : World) : Reported total [] w w := ⟨⟨w.console, w.meter, by simp⟩, rfl⟩

lemma append (h : Reported total labels w v) (h' : Reported total labels' v u) :
    Reported total (labels ++ labels') w u := by
  obtain ⟨⟨c, m, rfl⟩, hcount⟩ := h
  obtain ⟨⟨c', m', rfl⟩, hcount'⟩ := h'
  refine ⟨⟨c', m', by simp⟩, ?_⟩
  simp only [List.length_append] at hcount hcount' ⊢
  omega

/-- Neither the files are changed, nor where and when they are seen. -/
lemma files (h : Reported total labels w v) :
    v.tree = w.tree ∧ v.directory = w.directory ∧ v.now = w.now := by
  obtain ⟨⟨c, m, rfl⟩, -⟩ := h
  exact ⟨rfl, rfl, rfl⟩

/-- Reports do not depend on the tree. -/
lemma withTree (h : Reported total labels w v) (t : FileTree) :
    Reported total labels { w with tree := t } { v with tree := t } := by
  obtain ⟨⟨c, m, rfl⟩, hcount⟩ := h
  exact ⟨⟨c, m, rfl⟩, hcount⟩

end Reported

/-- A report is noted and counted. It stops only where the count is beyond what can be drawn. -/
lemma run_report (total : Int) (label : String) (w : World) :
    ∃ u, Reported total [label] w u ∧
      ((report total label).run w = .ok () u ∨
        (report total label).run w = .error .outOfRange u ∧ 2 ^ 1000 ≤ u.meter.completed) := by
  -- What comes in front of the progress bar does not stop.
  obtain ⟨console, first, hfront⟩ : ∃ (console : Console) (first : Int),
      (report total label).run w =
        (showProgress ↑(w.meter.completed + 1) first s!"Decompiled {label}").run { w with
          console, meter := ⟨true, first, w.meter.completed + 1⟩
          journal := w.journal ++ [.reported total label] } := by
    by_cases hs : w.meter.started = true
    · exact ⟨w.console, w.meter.total, by simp [report, World.note, hs]⟩
    · obtain ⟨c, hc⟩ := prints_log .info s!"Total files: {total}" { w with
        meter := ⟨true, total, w.meter.completed⟩
        journal := w.journal ++ [.reported total label] }
      refine ⟨c, total, ?_⟩
      simp only [report, World.note, hs, info, EStateM.run_bind, EStateM.run_modify,
        EStateM.run_get, hc, Bool.false_eq_true, if_false]
  by_cases hbar : first ≤ 0 ∨ (Figures.Bar.of? ↑(w.meter.completed + 1) first
      Figures.Bar.defaultWidth).isSome
  · obtain ⟨c, hshow⟩ := exists_showProgress s!"Decompiled {label}" hbar { w with
      console, meter := ⟨true, first, w.meter.completed + 1⟩
      journal := w.journal ++ [.reported total label] }
    exact ⟨_, ⟨⟨c, _, rfl⟩, rfl⟩, .inl (hfront.trans hshow)⟩
  · refine ⟨_, ⟨⟨console, ⟨true, first, w.meter.completed + 1⟩, rfl⟩, rfl⟩, .inr ⟨?_, ?_⟩⟩
    · rw [not_or, Option.not_isSome_iff_eq_none] at hbar
      exact hfront.trans (run_showProgress_of_none _ hbar.1 hbar.2 _)
    · by_contra hc
      exact hbar (.inr (Figures.Bar.isSome_of? (not_le.mp hc) first))

/-- An action reports labels and leaves a tree: all of them, giving a result, or only those up to
one at which the count is beyond what can be drawn. -/
def Reports {α : Type} (total : Int) (labels : List String) (x : Action α) (a : α) (w : World)
    (t : FileTree) : Prop :=
  ∃ u, (Reported total labels { w with tree := t } u ∧ x.run w = .ok a u) ∨
    x.run w = .error .outOfRange u ∧ 2 ^ 1000 ≤ u.meter.completed ∧
      ∃ front t', front <+: labels ∧ Reported total front { w with tree := t' } u

namespace Reports

variable {α β : Type} {total : Int} {labels labels' : List String} {x : Action α} {f : α → Action β}
  {a : α} {b : β} {t t' : FileTree}

/-- An action that only changes the tree reports nothing. -/
lemma of_ok (h : x.run w = .ok a { w with tree := t }) : Reports total [] x a w t :=
  ⟨_, .inl ⟨.nil total _, h⟩⟩

lemma bind (hx : Reports total labels x a w t)
    (hf : ∀ u, Reported total labels { w with tree := t } u → Reports total labels' (f a) b u t') :
    Reports total (labels ++ labels') (x >>= f) b w t' := by
  obtain ⟨v, ⟨hv, hok⟩ | ⟨herror, hbound, front, t₁, hfront, hv⟩⟩ := hx
  · obtain ⟨u, ⟨hu, hrest⟩ | ⟨hrest, hbound, front, t₁, hfront, hu⟩⟩ := hf v hv
    · exact ⟨u, .inl ⟨(hv.withTree t').append hu, (Action.run_bind_of_ok hok).trans hrest⟩⟩
    · exact ⟨u, .inr ⟨(Action.run_bind_of_ok hok).trans hrest, hbound, labels ++ front, t₁,
        List.prefix_append_right_inj labels |>.mpr hfront, (hv.withTree t₁).append hu⟩⟩
  · exact ⟨v, .inr ⟨Action.run_bind_of_error herror, hbound, front, t₁,
      hfront.trans (List.prefix_append _ _), hv⟩⟩

/-- A change of the tree in front does not matter. -/
lemma after (h : x.run w = .ok a { w with tree := t })
    (hf : Reports total labels (f a) b { w with tree := t } t') :
    Reports total labels (x >>= f) b w t' := by
  obtain ⟨u, hu⟩ := hf
  refine ⟨u, ?_⟩
  rw [Action.run_bind_of_ok h]
  exact hu

lemma bind_pure (hx : Reports total labels x a w t) (g : α → β) :
    Reports total labels (x >>= fun a => Pure.pure (g a)) (g a) w t := by
  rw [← List.append_nil labels]
  refine hx.bind fun u hu => ?_
  obtain ⟨⟨c, m, rfl⟩, -⟩ := hu
  exact .of_ok rfl

end Reports

lemma reports_report (total : Int) (label : String) (w : World) :
    Reports total [label] (report total label) () w w.tree := by
  obtain ⟨u, hu, hok | ⟨herror, hbound⟩⟩ := run_report total label w
  · exact ⟨u, .inl ⟨hu, hok⟩⟩
  · exact ⟨u, .inr ⟨herror, hbound, [label], w.tree, List.prefix_refl _, hu⟩⟩

lemma reports_forM (total : Int) (labels : List String) (w : World) :
    Reports total labels (labels.forM (report total)) () w w.tree := by
  induction labels generalizing w with
  | nil => exact .of_ok rfl
  | cons label labels ih =>
    have hrest : ∀ u, Reported total [label] w u →
        Reports total labels (labels.forM (report total)) () u w.tree := by
      intro u hu
      rw [← hu.files.1]
      exact ih u
    exact (reports_report total label w).bind hrest

/-! ### Questions -/

/-- A way to ask the operator: a question is noted once and changes nothing but the console and
the answers that are left. It is never refused. -/
def Asks (confirm : String → Action Bool) : Prop :=
  ∀ question w, ∃ answer text console answers, (confirm question).run w =
    .ok answer { w with console, answers, journal := w.journal ++ [.asked text] }

lemma run_nextAnswer (w : World) : World.nextAnswer.run w =
    .ok (w.answers.headD none) { w with answers := w.answers.tail } := rfl

/-- A question is answered by the next of the operator's answers. -/
lemma run_ask (prompt : String) (w : World) :
    ∃ console, (ask prompt).run w = .ok (w.answers.headD none)
      { w with console, answers := w.answers.tail, journal := w.journal ++ [.asked prompt] } := by
  obtain ⟨c, hc⟩ := prints_line prompt { w with journal := w.journal ++ [.asked prompt] }
  have hnote : (World.note (.asked prompt)).run w =
      .ok () { w with journal := w.journal ++ [.asked prompt] } := rfl
  exact ⟨c, by rw [ask, Action.run_bind_of_ok hnote, Action.run_bind_of_ok hc, run_nextAnswer]⟩

/-- Only an answer that is `y` without the blanks around it affirms. -/
lemma run_confirm (question : String) (w : World) :
    ∃ text console, (confirm question).run w =
      .ok ((w.answers.headD none).map Text.trim = some "y")
        { w with console, answers := w.answers.tail, journal := w.journal ++ [.asked text] } := by
  obtain ⟨p, hp⟩ : ∃ p, palette.run w = .ok p w := ⟨_, rfl⟩
  obtain ⟨c, hc⟩ := run_ask (p.yellow ++ question ++ " [y/N]" ++ p.plain) w
  exact ⟨_, c, by rw [confirm, Action.run_bind_of_ok hp, Action.run_bind_of_ok hc]; rfl⟩

lemma asks_confirm : Asks confirm := by
  intro question w
  obtain ⟨text, console, h⟩ := run_confirm question w
  exact ⟨_, text, console, _, h⟩

end SourceRecovery.Console
