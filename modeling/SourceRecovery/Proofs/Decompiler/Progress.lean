import SourceRecovery.Decompiler.External
import SourceRecovery.Proofs.Console
import SourceRecovery.Proofs.Sources

/-!
# What is reported while the external decompiler runs

A source file is reported at the first look at which it is new or changed, compared with what was
there before the start, and at no later one. Looking at the program until it has ended therefore
accounts for the surveys of all looks: each changed file is reported once, in the order of the looks
and by path within one look.
-/

namespace SourceRecovery

/-- The tree after some changes below a directory. -/
def FileTree.performed (base : List String) (t : FileTree) (changes : List Change) : FileTree :=
  changes.foldl (fun t c => t.apply base c) t

lemma FileTree.performed_append (base : List String) (t : FileTree) (cs ds : List Change) :
    performed base t (cs ++ ds) = performed base (performed base t cs) ds := List.foldl_append

namespace External

open SourceRecovery.Action SourceRecovery.Path

variable {baseline survey : List (String × Int)} {surveys : List (List (String × Int))}
  {reported labels : List String} {p q : String} {i : ℕ}

/-! ### Changed files -/

/-- A source file is in a survey, and not as it is in the baseline. -/
def IsChanged (baseline survey : List (String × Int)) (p : String) : Prop :=
  ∃ m, survey.lookup p = some m ∧ baseline.lookup p ≠ some m

/-- A look is the first one at which a source file is changed. -/
structure IsFirstChange (baseline : List (String × Int)) (surveys : List (List (String × Int)))
    (i : ℕ) (p : String) : Prop where
  changed : ∃ survey, surveys[i]? = some survey ∧ IsChanged baseline survey p
  first : ∀ j < i, ∀ survey, surveys[j]? = some survey → ¬IsChanged baseline survey p

/-- Labels account for some surveys: they are the files that are changed in any of them, each once,
in the order of the first such survey and ascending within one. -/
structure Accounts (baseline : List (String × Int)) (surveys : List (List (String × Int)))
    (labels : List String) : Prop where
  mem_iff : ∀ p, p ∈ labels ↔ ∃ survey ∈ surveys, IsChanged baseline survey p
  nodup : labels.Nodup
  ordered : labels.Pairwise fun p q => ∃ i j, IsFirstChange baseline surveys i p ∧
    IsFirstChange baseline surveys j q ∧ (i < j ∨ i = j ∧ Text.precedes p q = true)

lemma isFirstChange_zero :
    IsFirstChange baseline (survey :: surveys) 0 p ↔ IsChanged baseline survey p := by
  constructor
  · rintro ⟨⟨s, hs, hp⟩, -⟩
    cases hs
    exact hp
  · intro h
    exact ⟨⟨survey, rfl, h⟩, fun j hj => absurd hj (Nat.not_lt_zero j)⟩

lemma isFirstChange_succ : IsFirstChange baseline (survey :: surveys) (i + 1) p ↔
    ¬IsChanged baseline survey p ∧ IsFirstChange baseline surveys i p := by
  constructor
  · rintro ⟨hchanged, hfirst⟩
    refine ⟨hfirst 0 i.succ_pos survey rfl, hchanged, fun j hj s hs => ?_⟩
    exact hfirst (j + 1) (Nat.succ_lt_succ hj) s hs
  · rintro ⟨hnot, hchanged, hfirst⟩
    refine ⟨hchanged, fun j hj s hs => ?_⟩
    cases j with
    | zero =>
      cases hs
      exact hnot
    | succ j => exact hfirst j (Nat.lt_of_succ_lt_succ hj) s hs

/-- What is changed is changed first at some look. -/
lemma exists_isFirstChange (h : ∃ survey ∈ surveys, IsChanged baseline survey p) :
    ∃ i, IsFirstChange baseline surveys i p := by
  induction surveys with
  | nil => simp at h
  | cons survey surveys ih =>
    by_cases hp : IsChanged baseline survey p
    · exact ⟨0, isFirstChange_zero.mpr hp⟩
    · obtain ⟨s, hs, hchanged⟩ := h
      rcases List.mem_cons.mp hs with rfl | hs
      · exact absurd hchanged hp
      · obtain ⟨i, hi⟩ := ih ⟨s, hs, hchanged⟩
        exact ⟨i + 1, isFirstChange_succ.mpr ⟨hp, hi⟩⟩

/-! ### One look -/

/-- At a look those files are new that are changed and were not reported before. -/
lemma mem_fresh (h : Sources.IsOrdered survey) :
    p ∈ fresh baseline reported survey ↔ p ∉ reported ∧ IsChanged baseline survey p := by
  simp only [fresh, IsChanged, List.mem_map, List.mem_filter, Prod.exists, Bool.and_eq_true,
    Bool.not_eq_true', List.contains_eq_mem, decide_eq_false_iff_not, decide_eq_true_eq,
    h.lookup_eq_some_iff]
  constructor
  · rintro ⟨r, m, ⟨hmem, hnew, hold⟩, rfl⟩
    exact ⟨hnew, m, hmem, hold⟩
  · rintro ⟨hnew, m, hmem, hold⟩
    exact ⟨p, m, ⟨hmem, hnew, hold⟩, rfl⟩

lemma pairwise_fresh (h : Sources.IsOrdered survey) :
    (fresh baseline reported survey).Pairwise fun p q => Text.precedes p q = true :=
  (h.filter _).map _ fun _ _ hlt => hlt

/-! ### All looks -/

/-- The files that are reported at some looks, given those that were reported before. -/
def account (baseline : List (String × Int)) :
    List (List (String × Int)) → List String → List String
  | [], _ => []
  | survey :: surveys, reported =>
    fresh baseline reported survey ++
      account baseline surveys (reported ++ fresh baseline reported survey)

lemma mem_account (h : ∀ s ∈ surveys, Sources.IsOrdered s) :
    p ∈ account baseline surveys reported ↔
      p ∉ reported ∧ ∃ survey ∈ surveys, IsChanged baseline survey p := by
  induction surveys generalizing reported with
  | nil => simp [account]
  | cons survey surveys ih =>
    have hhead : p ∈ fresh baseline reported survey ↔ _ := mem_fresh (h survey (.head _))
    simp only [account, List.mem_append, ih fun s hs => h s (.tail _ hs), hhead, List.mem_cons,
      exists_eq_or_imp]
    tauto

/-- The files of a look are in order, and come in front of those of all later looks. -/
lemma pairwise_account (h : ∀ s ∈ surveys, Sources.IsOrdered s) :
    (account baseline surveys reported).Pairwise fun p q => ∃ i j,
      IsFirstChange baseline surveys i p ∧ IsFirstChange baseline surveys j q ∧
        (i < j ∨ i = j ∧ Text.precedes p q = true) := by
  induction surveys generalizing reported with
  | nil => exact .nil
  | cons survey surveys ih =>
    have hhead := h survey (.head _)
    have htail : ∀ s ∈ surveys, Sources.IsOrdered s := fun s hs => h s (.tail _ hs)
    have hlater {p : String}
        (hp : p ∈ account baseline surveys (reported ++ fresh baseline reported survey)) :
        ¬IsChanged baseline survey p ∧ ∃ i, IsFirstChange baseline surveys i p := by
      obtain ⟨hnew, hchanged⟩ := (mem_account htail).mp hp
      rw [List.mem_append, mem_fresh hhead] at hnew
      exact ⟨fun hc => hnew (.inr ⟨fun hr => hnew (.inl hr), hc⟩), exists_isFirstChange hchanged⟩
    refine List.pairwise_append.mpr ⟨?_, ?_, fun p hp q hq => ?_⟩
    · refine (pairwise_fresh hhead).imp_of_mem fun {p q} hp hq hlt => ?_
      exact ⟨0, 0, isFirstChange_zero.mpr ((mem_fresh hhead).mp hp).2,
        isFirstChange_zero.mpr ((mem_fresh hhead).mp hq).2, .inr ⟨rfl, hlt⟩⟩
    · refine (ih htail).imp_of_mem fun {p q} hp hq hpq => ?_
      obtain ⟨i, j, hi, hj, hij⟩ := hpq
      exact ⟨i + 1, j + 1, isFirstChange_succ.mpr ⟨(hlater hp).1, hi⟩,
        isFirstChange_succ.mpr ⟨(hlater hq).1, hj⟩,
        hij.imp Nat.succ_lt_succ fun h => ⟨congrArg Nat.succ h.1, h.2⟩⟩
    · obtain ⟨hnot, j, hj⟩ := hlater hq
      exact ⟨0, j + 1, isFirstChange_zero.mpr ((mem_fresh hhead).mp hp).2,
        isFirstChange_succ.mpr ⟨hnot, hj⟩, .inl j.succ_pos⟩

/-- A file is changed first at one look only. -/
lemma IsFirstChange.eq {j : ℕ} (hi : IsFirstChange baseline surveys i p)
    (hj : IsFirstChange baseline surveys j p) : i = j := by
  obtain ⟨s, hs, hchanged⟩ := hi.changed
  obtain ⟨s', hs', hchanged'⟩ := hj.changed
  rcases Nat.lt_trichotomy i j with hlt | heq | hlt
  · exact absurd hchanged (hj.first i hlt s hs)
  · exact heq
  · exact absurd hchanged' (hi.first j hlt s' hs')

/-- What is reported at some looks accounts for their surveys. -/
lemma accounts_account (h : ∀ s ∈ surveys, Sources.IsOrdered s) :
    Accounts baseline surveys (account baseline surveys []) where
  mem_iff p := by simp [mem_account h]
  nodup := by
    refine (pairwise_account h).imp ?_
    rintro p q ⟨i, j, hi, hj, hij⟩ rfl
    obtain rfl := hi.eq hj
    rcases hij with hlt | ⟨-, hlt⟩
    · exact lt_irrefl i hlt
    · rw [Text.not_precedes_self] at hlt
      cases hlt
  ordered := pairwise_account h

/-! ### Looking at the program -/

/-- The trees at the looks at a program that makes changes below a directory before each; one that
has ended when it is looked at for the first time is looked at once. -/
def looks (place : List String) : FileTree → List (List FileTree.Change) → List FileTree
  | t, [] => [t]
  | t, [changes] => [t.performed place changes]
  | t, changes :: rest => t.performed place changes :: looks place (t.performed place changes) rest

@[simp] lemma looks_cons_cons (place : List String) (t : FileTree)
    (changes next : List FileTree.Change) (rest : List (List FileTree.Change)) :
    looks place t (changes :: next :: rest) = t.performed place changes ::
      looks place (t.performed place changes) (next :: rest) := rfl

lemma length_looks (place : List String) (t : FileTree) (polls : List (List FileTree.Change)) :
    (looks place t polls).length = max 1 polls.length := by
  induction polls generalizing t with
  | nil => rfl
  | cons changes rest ih =>
    cases rest with
    | nil => rfl
    | cons next rest =>
      rw [looks_cons_cons, List.length_cons, ih]
      simp only [List.length_cons]
      omega

/-- The last look comes after all changes. -/
lemma performed_mem_looks (place : List String) (t : FileTree)
    (polls : List (List FileTree.Change)) :
    t.performed place polls.flatten ∈ looks place t polls := by
  induction polls generalizing t with
  | nil => exact .head _
  | cons changes rest ih =>
    cases rest with
    | nil =>
      simp only [List.flatten_cons, List.flatten_nil, List.append_nil]
      exact .head _
    | cons next rest =>
      rw [List.flatten_cons, FileTree.performed_append, looks_cons_cons]
      exact .tail _ (ih _)

variable {output log : String} {total : Int} {w : World}

/-- A look reports what is new. -/
lemma reports_reportFresh (h : IsAdmissible output)
    (baseline : List (String × Int)) (total : Int) (reported : List String) (w : World) :
    Console.Reports total (fresh baseline reported (Sources.survey w.tree w.directory output))
      (reportFresh output baseline total reported)
      (reported ++ fresh baseline reported (Sources.survey w.tree w.directory output))
      w w.tree := by
  refine .after (Sources.run_snapshot h w) ?_
  exact (Console.reports_forM total _ w).bind_pure fun _ => _

/-- What the log's file is in the end does not matter to a survey. -/
lemma survey_extended {t : FileTree} {cwd : List String} (now : Int) (data : Bytes)
    (hlog : Sources.isSource (destination cwd log) = false) :
    Sources.survey (Files.extended t cwd now log data) cwd output =
      Sources.survey t cwd output := by
  unfold Files.extended
  split
  · rename_i f hf
    exact Sources.survey_put hlog (by simp [(FileTree.find_eq_file.mp hf).2.2.2]) _
  · rfl

section Watching

variable (report : List String → Action (List String)) (place : List String) (after : Action Unit)

lemma watch_singleton (changes : List FileTree.Change) (reported : List String) :
    watch report place after [changes] reported = (do
      perform place changes
      after
      let _ ← report reported
      pure ()) := rfl

lemma watch_cons_cons (changes next : List FileTree.Change) (rest : List (List FileTree.Change))
    (reported : List String) :
    watch report place after (changes :: next :: rest) reported = (do
      perform place changes
      let reported ← report reported
      watch report place after (next :: rest) reported) := rfl

lemma run_perform (changes : List FileTree.Change) (w : World) : (perform place changes).run w =
    .ok () { w with tree := w.tree.performed place changes } := rfl

end Watching

/-- The last look comes after the end of the program, whose log is written by then. -/
lemma reports_last (h : IsAdmissible output)
    (hlog : Sources.isSource (destination w.directory log) = false)
    (baseline : List (String × Int)) (total : Int) (data : Bytes) (reported : List String) :
    Console.Reports total (fresh baseline reported (Sources.survey w.tree w.directory output))
      (do
        Files.extend log data
        let _ ← reportFresh output baseline total reported
        pure ()) ()
      w (Files.extended w.tree w.directory w.now log data) := by
  refine .after (Files.run_extend log data w) ?_
  have hlook := reports_reportFresh h baseline total reported
    { w with tree := Files.extended w.tree w.directory w.now log data }
  rw [survey_extended w.now data hlog] at hlook
  exact hlook.bind_pure fun _ => ()

/-- Looking at a program until it has ended reports what is new at each look, and leaves the tree
with all of its changes and its log. -/
lemma reports_watch (h : IsAdmissible output)
    (hlog : Sources.isSource (destination w.directory log) = false)
    (baseline : List (String × Int)) (total : Int) (place : List String) (data : Bytes)
    (polls : List (List FileTree.Change)) (reported : List String) :
    Console.Reports total
      (account baseline ((looks place w.tree polls).map (Sources.survey · w.directory output))
        reported)
      (watch (reportFresh output baseline total) place (Files.extend log data) polls reported) ()
      w (Files.extended (w.tree.performed place polls.flatten) w.directory w.now log data) := by
  induction polls generalizing w reported with
  | nil =>
    simp only [looks, List.map_cons, List.map_nil, account, List.append_nil]
    exact reports_last h hlog baseline total data reported
  | cons changes rest ih =>
    cases rest with
    | nil =>
      rw [watch_singleton]
      refine .after (run_perform place changes w) ?_
      simp only [looks, List.map_cons, List.map_nil, account, List.append_nil, List.flatten_cons,
        List.flatten_nil]
      exact reports_last (w := { w with tree := w.tree.performed place changes }) h hlog
        baseline total data reported
    | cons next rest =>
      rw [watch_cons_cons, looks_cons_cons, List.map_cons, account, List.flatten_cons,
        FileTree.performed_append]
      refine .after (run_perform place changes w) ?_
      have hlook := reports_reportFresh h baseline total reported
        { w with tree := w.tree.performed place changes }
      refine hlook.bind fun u hu => ?_
      obtain ⟨htree, hdirectory, hnow⟩ := hu.files
      have hrest := ih (w := u) (by rw [hdirectory]; exact hlog) (reported ++ fresh baseline
        reported (Sources.survey (w.tree.performed place changes) w.directory output))
      rw [htree, hdirectory, hnow] at hrest
      exact hrest

end External

end SourceRecovery
