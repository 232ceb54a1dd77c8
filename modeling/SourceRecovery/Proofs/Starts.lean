import SourceRecovery.Proofs.Console
import SourceRecovery.Proofs.Files.Directories

/-!
# Which actions start a program

The journal tells which programs were started. Whatever changes only the tree or the console, and
whatever asks the operator, starts none and stays in the working directory. Answers are used up in
their order.
-/

namespace SourceRecovery

/-- The programs that were started: their commands, and the images that these end with. -/
def startsOf (journal : List Event) : List (List String × Bytes) :=
  journal.filterMap fun
    | .started command image => some (command, image)
    | _ => none

@[simp] lemma startsOf_append (journal journal' : List Event) :
    startsOf (journal ++ journal') = startsOf journal ++ startsOf journal' :=
  List.filterMap_append

/-- Reports are no starts. -/
@[simp] lemma startsOf_reported (total : Int) (labels : List String) :
    startsOf (labels.map (.reported total)) = [] := by
  induction labels with
  | nil => rfl
  | cons label labels ih => exact ih

/-- No program is started, the working directory is kept, and what answers there are still were the
last ones. -/
structure World.StartsNothing (w v : World) : Prop where
  directory : v.directory = w.directory
  starts : startsOf v.journal = startsOf w.journal
  answers : v.answers <:+ w.answers

instance : IsPreorder World World.StartsNothing where
  refl w := ⟨rfl, rfl, w.answers.suffix_refl⟩
  trans _ _ _ h h' := ⟨h'.directory.trans h.directory, h'.starts.trans h.starts,
    h'.answers.trans h.answers⟩

lemma World.OnlyTree.startsNothing {w v : World} (h : w.OnlyTree v) : w.StartsNothing v := by
  obtain ⟨t, rfl⟩ := h
  exact ⟨rfl, rfl, List.suffix_refl _⟩

lemma Action.Keeps.startsNothing {α : Type} {x : Action α} (h : Keeps World.OnlyTree x) :
    Keeps World.StartsNothing x :=
  h.mono fun _ _ hw => hw.startsNothing

namespace Console

open SourceRecovery.Action

lemma Prints.startsNothing {x : Action Unit} (h : Prints x) : Keeps World.StartsNothing x := by
  intro w
  obtain ⟨c, hc⟩ := h w
  rw [after_of_ok hc]
  exact ⟨rfl, rfl, List.suffix_refl _⟩

lemma startsNothing_ask (prompt : String) : Keeps World.StartsNothing (ask prompt) := by
  refine .bind (fun w => ⟨rfl, ?_, List.suffix_refl _⟩) fun _ =>
    .bind (prints_line prompt).startsNothing fun _ w => ⟨rfl, rfl, List.tail_suffix _⟩
  exact (startsOf_append _ _).trans (List.append_nil _)

lemma startsNothing_confirm (question : String) : Keeps World.StartsNothing (confirm question) := by
  intro w
  obtain ⟨text, c, hc⟩ := run_confirm question w
  rw [after_of_ok hc]
  exact ⟨rfl, (startsOf_append _ _).trans (List.append_nil _), List.tail_suffix _⟩

/-- Progress that cannot be drawn stops, and changes nothing. -/
lemma startsNothing_showProgress (current total : Int) (label : String) :
    Keeps World.StartsNothing (showProgress current total label) := by
  intro w
  by_cases h : total ≤ 0 ∨ (Figures.Bar.of? current total Figures.Bar.defaultWidth).isSome
  · obtain ⟨c, hc⟩ := exists_showProgress label h w
    rw [after_of_ok hc]
    exact ⟨rfl, rfl, List.suffix_refl _⟩
  · rw [not_or, Option.not_isSome_iff_eq_none] at h
    rw [after_of_error (run_showProgress_of_none label h.1 h.2 w)]
    exact refl_of World.StartsNothing w

end Console

end SourceRecovery
