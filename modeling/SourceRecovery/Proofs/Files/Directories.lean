import SourceRecovery.Proofs.Files.Operations

/-!
# Making directories

Making directories grows the tree along the places of a path and nowhere else, however it ends.
Where it is refused, the path leads to no directory; it leads to one in the end if and only if no
file stands in the way.
-/

namespace SourceRecovery

/-- No file stands in the way of a directory: its path is one that the system can be given, it
starts at a directory, and it passes through no file. -/
structure FileTree.IsClear (t : FileTree) (cwd : List String) (p : String) : Prop where
  plain : Path.IsPlain p
  origin : t.get? (Path.origin cwd p) = some .directory
  passes : ∀ q ∈ Path.places cwd p, ∀ f, t.get? q ≠ some (.file f)

/-- A path is open: it is one that the system can be given, and all that it passes through before
it gets to its end is directories. -/
structure FileTree.IsOpen (t : FileTree) (cwd : List String) (p : String) : Prop where
  plain : Path.IsPlain p
  passes : ∀ q ∈ Path.places cwd p, q ≠ Path.destination cwd p → t.get? q = some .directory

lemma FileTree.KeepsKinds.isOpen {t t' : FileTree} {cwd : List String} {p : String}
    (h : t.KeepsKinds t') (hp : t.IsOpen cwd p) : t'.IsOpen cwd p where
  plain := hp.plain
  passes q hq hne := h.directory q (hp.passes q hq hne)

namespace Files

open SourceRecovery.Action SourceRecovery.Path

variable {p : String} {w v : World} {e : Fault}

/-! ### What is made -/

lemma growsAlong_ensureDirectory (existing : Bool) (p : String) :
    Keeps (World.GrowsAlong p) (ensureDirectory existing p) := by
  refine (growsAlong_makeDirectory p).catching fun fault => ?_
  refine (keeps_inspect _).bind fun found => ?_
  cases existing && found with
  | false => exact .throwing fault
  | true => exact .pure ()

/-- Whether a directory is made or found, the path leads to one in the end. -/
lemma isDirectory_of_ensureDirectory {existing : Bool}
    (h : (ensureDirectory existing p).run w = .ok () v) :
    v.tree.isDirectory v.directory p = true := by
  simp only [ensureDirectory, run_tryCatch] at h
  cases hm : (makeDirectory p).run w with
  | ok a u =>
    simp only [hm] at h
    cases h
    exact isDirectory_of_makeDirectory hm
  | error fault u =>
    simp only [hm, EStateM.run_bind, isDirectory, run_inspect] at h
    cases hd : u.tree.isDirectory u.directory p with
    | false => simp [hd] at h
    | true =>
      cases existing with
      | false => simp at h
      | true =>
        simp [hd] at h
        rw [← h, hd]

/-- The places of what is in front of the last step are places of the path. -/
lemma growsAlong_of_lastStep (hhead : (lastStep p).1 ≠ "") (hname : (lastStep p).2 ≠ "")
    (h : World.GrowsAlong (lastStep p).1 w v) : World.GrowsAlong p w v := by
  obtain ⟨t, rfl, ht⟩ := h
  refine ⟨t, rfl, ht.mono ?_⟩
  rw [places_eq_lastStep _ hhead hname]
  exact List.subset_append_left _ _

/-- What is in front of a path is made first where there is something in front that is missing. -/
lemma lacksParent_eq_true (h : (lacksParent p).run w = .ok true v) :
    (lastStep p).1 ≠ "" ∧ (lastStep p).2 ≠ "" := by
  rw [lacksParent, run_inspect] at h
  simp only [EStateM.Result.ok.injEq, Bool.and_eq_true, decide_eq_true_eq] at h
  exact h.1.1

lemma run_unlessExists_of_ok {a : Action Unit} (h : a.run w = .ok () v) :
    (unlessExists a).run w = .ok () v := by
  rw [unlessExists, run_tryCatch, h]

lemma run_unlessExists_of_exists {a : Action Unit} {q : String} {r : Option String}
    (h : a.run w = .error (.file .alreadyExists q r) v) : (unlessExists a).run w = .ok () v := by
  rw [unlessExists, run_tryCatch, h]
  rfl

lemma run_unlessExists_of_error {a : Action Unit} (h : a.run w = .error e v)
    (he : ∀ q r, e ≠ .file .alreadyExists q r) : (unlessExists a).run w = .error e v := by
  simp only [unlessExists, run_tryCatch, h]
  rfl

lemma growsAlong_unlessExists {a : Action Unit} (h : Keeps (World.GrowsAlong p) a) :
    Keeps (World.GrowsAlong p) (unlessExists a) := by
  refine h.catching fun fault => ?_
  split
  · exact .pure ()
  · exact .throwing _

/-- Making directories grows the tree along the path, however it ends. -/
lemma growsAlong_makeDirectoriesTo (existing : Bool) (n : ℕ) (p : String) :
    Keeps (World.GrowsAlong p) (makeDirectoriesTo existing n p) := by
  induction n generalizing p with
  | zero => exact .pure ()
  | succ n ih =>
    intro w
    have hlast : Keeps (World.GrowsAlong p) (makeLast existing p) := by
      unfold makeLast
      split
      · exact .pure ()
      · exact growsAlong_ensureDirectory existing p
    obtain ⟨lacks, hl⟩ : ∃ b, (lacksParent p).run w = .ok b w := ⟨_, rfl⟩
    rw [makeDirectoriesTo, after_bind_of_ok hl]
    cases lacks with
    | false => exact growsAlong_ensureDirectory existing p w
    | true =>
      obtain ⟨hhead, hname⟩ := lacksParent_eq_true hl
      refine (Keeps.bind (growsAlong_unlessExists ?_) fun _ => hlast) w
      exact (ih _).mono fun _ _ => growsAlong_of_lastStep hhead hname

lemma onlyTree_makeDirectories (p : String) (existing : Bool) :
    Keeps World.OnlyTree (makeDirectories p existing) :=
  (growsAlong_makeDirectoriesTo _ _ _).mono fun _ _ h => h.onlyTree

/-- How making directories goes: either the last one is made at once, or what is in front of it
is made first. The latter stops all, unless it is only that something exists already. -/
lemma makeDirectoriesTo_cases (existing : Bool) (n : ℕ) (p : String) (w : World) :
    (makeDirectoriesTo existing (n + 1) p).run w = (ensureDirectory existing p).run w ∨
      (lastStep p).1 ≠ "" ∧ (lastStep p).2 ≠ "" ∧
        ((∃ e v, (makeDirectoriesTo existing n (lastStep p).1).run w = .error e v ∧
            (∀ q r, e ≠ .file .alreadyExists q r) ∧
            (makeDirectoriesTo existing (n + 1) p).run w = .error e v) ∨
          ∃ v, ((makeDirectoriesTo existing n (lastStep p).1).run w = .ok () v ∨
              ∃ q r, (makeDirectoriesTo existing n (lastStep p).1).run w =
                .error (.file .alreadyExists q r) v) ∧
            (makeDirectoriesTo existing (n + 1) p).run w = (makeLast existing p).run v) := by
  obtain ⟨lacks, hl⟩ : ∃ b, (lacksParent p).run w = .ok b w := ⟨_, rfl⟩
  rw [makeDirectoriesTo, run_bind_of_ok hl]
  cases lacks with
  | false => exact .inl rfl
  | true =>
    obtain ⟨hhead, hname⟩ := lacksParent_eq_true hl
    refine .inr ⟨hhead, hname, ?_⟩
    simp only [if_true]
    cases hrec : (makeDirectoriesTo existing n (lastStep p).1).run w with
    | ok a v => exact .inr ⟨v, .inl rfl, run_bind_of_ok (run_unlessExists_of_ok hrec)⟩
    | error e v =>
      by_cases he : ∃ q r, e = .file .alreadyExists q r
      · obtain ⟨q, r, rfl⟩ := he
        exact .inr ⟨v, .inr ⟨q, r, rfl⟩, run_bind_of_ok (run_unlessExists_of_exists hrec)⟩
      · push Not at he
        exact .inl ⟨e, v, rfl, he, run_bind_of_error (run_unlessExists_of_error hrec he)⟩

/-- What is not made nor found stops with a refusal by the system. -/
lemma raises_ensureDirectory (existing : Bool) (p : String) :
    Raises (fun e => ∃ problem, e = .file problem p none) (ensureDirectory existing p) := by
  refine Raises.catching (Q := fun e => ∃ problem, e = .file problem p none) ?_ fun e he => ?_
  · intro w e v h
    obtain ⟨problem, -, rfl, -⟩ := change_eq_error.mp h
    exact ⟨problem, rfl⟩
  · intro w e' v h
    simp only [isDirectory, EStateM.run_bind, run_inspect] at h
    split_ifs at h
    · cases h
    · cases h
      exact he

/-- Where a directory that may exist is refused, there is none. -/
lemma not_isDirectory_of_ensureDirectory (h : (ensureDirectory true p).run w = .error e v) :
    v.tree.isDirectory v.directory p = false ∧ v = w ∧
      ∃ problem, w.tree.makeDirectory w.directory p = .error problem ∧
        e = .file problem p none := by
  simp only [ensureDirectory, run_tryCatch] at h
  cases hm : (makeDirectory p).run w with
  | ok a u => simp [hm] at h
  | error fault u =>
    obtain ⟨problem, hproblem, rfl, rfl⟩ := change_eq_error.mp hm
    simp only [hm, isDirectory, EStateM.run_bind, run_inspect] at h
    cases hd : u.tree.isDirectory u.directory p with
    | true =>
      simp [hd] at h
    | false =>
      simp [hd] at h
      obtain ⟨rfl, rfl⟩ := h
      exact ⟨hd, rfl, problem, hproblem, rfl⟩

/-- Directories that cannot be made stop with a refusal by the system. -/
lemma raises_makeDirectoriesTo (existing : Bool) (n : ℕ) (p : String) :
    Raises (fun e => ∃ problem q, e = .file problem q none) (makeDirectoriesTo existing n p) := by
  induction n generalizing p with
  | zero => exact .pure ()
  | succ n ih =>
    have hensure (w : World) (e : Fault) (v : World)
        (h : (ensureDirectory existing p).run w = .error e v) :
        ∃ problem q, e = .file problem q none := by
      obtain ⟨problem, he⟩ := raises_ensureDirectory existing p w e v h
      exact ⟨problem, p, he⟩
    intro w e v h
    rcases makeDirectoriesTo_cases existing n p w with
      heq | ⟨-, -, ⟨e', v', hrec, -, heq⟩ | ⟨u, -, heq⟩⟩
    · exact hensure w e v (heq ▸ h)
    · rw [heq] at h
      cases h
      exact ih _ w e v hrec
    · rw [heq, makeLast] at h
      split_ifs at h
      · cases h
      · exact hensure u e v h

lemma raises_makeDirectories (p : String) (existing : Bool) :
    Raises IsRefusal (makeDirectories p existing) :=
  (raises_makeDirectoriesTo _ _ _).mono fun _ ⟨problem, q, he⟩ => ⟨problem, q, none, he⟩

/-- Directories are made up to the last one, which is not made where the path ends in a dot. -/
lemma isDirectory_of_makeDirectories {existing : Bool} (hname : (lastStep p).2 ≠ ".")
    (h : (makeDirectories p existing).run w = .ok () v) :
    v.tree.isDirectory v.directory p = true := by
  rcases makeDirectoriesTo_cases existing p.length p w with
    heq | ⟨-, -, ⟨e', v', -, -, heq⟩ | ⟨u, -, heq⟩⟩
  · exact isDirectory_of_ensureDirectory (heq ▸ h)
  · rw [makeDirectories, heq] at h
    cases h
  · rw [makeDirectories, heq, makeLast, if_neg hname] at h
    exact isDirectory_of_ensureDirectory h

/-- A path that something was made or exists at the end of is open. -/
lemma isOpen_of_ensureDirectory (h : (ensureDirectory true p).run w = .ok () v ∨
    ∃ q r, (ensureDirectory true p).run w = .error (.file .alreadyExists q r) v) :
    v.tree.IsOpen v.directory p := by
  rcases h with hok | ⟨q, r, herror⟩
  · obtain ⟨hplain, hdirs⟩ := FileTree.isDirectory_iff.mp (isDirectory_of_ensureDirectory hok)
    exact ⟨hplain, fun q hq _ => hdirs q hq⟩
  · obtain ⟨-, rfl, problem, hmake, he⟩ := not_isDirectory_of_ensureDirectory herror
    cases he
    cases hs : v.tree.locate v.directory p with
    | error problem =>
      simp only [FileTree.makeDirectory, hs, bind, Except.bind, Except.error.injEq] at hmake
      exact absurd (hmake ▸ hs) FileTree.locate_ne_alreadyExists
    | ok s =>
      obtain ⟨hplain, hdirs, -⟩ := FileTree.locate_eq_ok hs
      refine ⟨hplain, fun q hq hne => hdirs q ?_⟩
      rw [← dropLast_places_append, List.mem_append, List.mem_singleton] at hq
      exact hq.resolve_right hne

/-- Making directories opens the path. Only where it ends in a dot may its end be a file even so. -/
lemma isOpen_of_makeDirectoriesTo {n : ℕ} (hn : p.length < n)
    (h : (makeDirectoriesTo true n p).run w = .ok () v ∨
      ∃ q r, (makeDirectoriesTo true n p).run w = .error (.file .alreadyExists q r) v) :
    v.tree.IsOpen v.directory p := by
  induction n generalizing p v with
  | zero => omega
  | succ n ih =>
    rcases makeDirectoriesTo_cases true n p w with
      heq | ⟨hhead, hname, ⟨e', v', -, hne, heq⟩ | ⟨u, hrec, heq⟩⟩
    · exact isOpen_of_ensureDirectory (heq ▸ h)
    · rw [heq] at h
      rcases h with h | ⟨q, r, h⟩
      · cases h
      · cases h
        exact absurd rfl (hne q r)
    · rw [heq, makeLast] at h
      split_ifs at h with hdot
      · have hlen := length_lastStep_lt hname
        obtain ⟨hplain, hpasses⟩ := ih (by omega) hrec
        obtain rfl : u = v := by
          rcases h with h | ⟨q, r, h⟩
          · cases h
            rfl
          · cases h
        have hplaces := places_eq_lastStep u.directory hhead hname
        have hend : destination u.directory p = destination u.directory (lastStep p).1 := by
          rw [destination_append_component (origin_lastStep hhead).symm
            (components_eq_lastStep hname), hdot]
          rfl
        refine ⟨hplain.of_lastStep hdot, fun q hq hne => ?_⟩
        rw [hend] at hne
        rw [hplaces, hdot, List.mem_append, List.mem_singleton] at hq
        rcases hq with hq | hq
        · exact hpasses q hq hne
        · exact absurd hq hne
      · exact isOpen_of_ensureDirectory h

/-- Where directories that may exist are refused, the path leads to none. -/
lemma not_isDirectory_of_makeDirectoriesTo {n : ℕ}
    (h : (makeDirectoriesTo true n p).run w = .error e v) :
    v.tree.isDirectory v.directory p = false := by
  induction n generalizing p with
  | zero => cases h
  | succ n ih =>
    rcases makeDirectoriesTo_cases true n p w with
      heq | ⟨hhead, hname, ⟨e', v', hrec, -, heq⟩ | ⟨u, -, heq⟩⟩
    · exact (not_isDirectory_of_ensureDirectory (heq ▸ h)).1
    · rw [heq] at h
      cases h
      have hnot := ih hrec
      by_contra hd
      rw [Bool.not_eq_false] at hd
      simp [FileTree.isDirectory_lastStep hd hhead hname] at hnot
    · rw [heq, makeLast] at h
      split_ifs at h
      · cases h
      · exact (not_isDirectory_of_ensureDirectory h).1

/-- A directory is made or found where there is no file. -/
lemma exists_ensureDirectory (hplain : IsPlain p)
    (hdirs : ∀ q ∈ (places w.directory p).dropLast, w.tree.get? q = some .directory)
    (hfile : ∀ f, w.tree.get? (destination w.directory p) ≠ some (.file f)) :
    ∃ v, (ensureDirectory true p).run w = .ok () v := by
  cases h : (ensureDirectory true p).run w with
  | ok a v => exact ⟨v, rfl⟩
  | error e v =>
    obtain ⟨hd, rfl, problem, hproblem, -⟩ := not_isDirectory_of_ensureDirectory h
    obtain ⟨s, hs⟩ := FileTree.exists_locate hplain hdirs
    obtain ⟨-, -, -, hnode, -⟩ := FileTree.locate_eq_ok hs
    simp only [FileTree.makeDirectory, hs, bind, Except.bind] at hproblem
    cases hn : s.node with
    | none => simp [hn] at hproblem
    | some n =>
      rw [hn] at hnode
      cases n with
      | file f => exact absurd hnode.symm (hfile f)
      | directory =>
        have hdir := FileTree.isDirectory_iff.mpr
          ⟨hplain, FileTree.forall_places_iff.mpr ⟨hdirs, hnode.symm⟩⟩
        simp [hdir] at hd

/-- Nothing is made in front of a path where it is there. -/
lemma run_makeDirectoriesTo_of_dirs (existing : Bool) (n : ℕ) (hplain : IsPlain p)
    (hdirs : ∀ q ∈ (places w.directory p).dropLast, w.tree.get? q = some .directory) :
    (makeDirectoriesTo existing (n + 1) p).run w = (ensureDirectory existing p).run w := by
  have hlacks : (lacksParent p).run w = .ok false w := by
    rw [lacksParent, run_inspect]
    by_cases h : (lastStep p).1 = "" ∨ (lastStep p).2 = ""
    · rcases h with h | h <;> simp [h]
    · push Not at h
      rw [places_eq_lastStep _ h.1 h.2, List.dropLast_concat] at hdirs
      have hdir := FileTree.isDirectory_iff.mpr
        ⟨hplain.of_subset (lastStep_isPrefix p).subset h.1, hdirs⟩
      simp [FileTree.pathExists_of_isDirectory hdir]
  rw [makeDirectoriesTo, run_bind_of_ok hlacks]
  rfl

/-- A directory that is there is not made again. -/
lemma run_makeDirectories_of_isDirectory (hd : w.tree.isDirectory w.directory p = true) :
    (makeDirectories p true).run w = .ok () w := by
  obtain ⟨hplain, hdirs⟩ := FileTree.isDirectory_iff.mp hd
  rw [FileTree.forall_places_iff] at hdirs
  rw [makeDirectories, run_makeDirectoriesTo_of_dirs true _ hplain hdirs.1, ensureDirectory,
    run_tryCatch]
  cases h : (makeDirectory p).run w with
  | ok a v =>
    obtain ⟨t, ht, -⟩ := change_eq_ok.mp h
    have hnone := (FileTree.makeDirectory_eq_ok ht).2.2.1
    simp [hdirs.2] at hnone
  | error e v =>
    obtain ⟨problem, -, -, rfl⟩ := change_eq_error.mp h
    simp [isDirectory, hd]

/-! ### Where directories can be made -/

/-- What a path leads to that no file stands in the way of is a directory. -/
lemma isDirectory_of_pathExists {t : FileTree} {cwd : List String} (hp : t.IsClear cwd p)
    (h : t.pathExists cwd p = true) : t.isDirectory cwd p = true := by
  unfold FileTree.pathExists at h
  cases hfind : t.find cwd p with
  | error problem => simp [hfind] at h
  | ok n =>
    cases n with
    | file f =>
      obtain ⟨-, -, -, hf⟩ := FileTree.find_eq_file.mp hfind
      exact absurd hf (hp.passes _ (destination_mem_places _ _) f)
    | directory => simp [FileTree.isDirectory, hfind]

lemma isClear_lastStep {t : FileTree} {cwd : List String} (hp : t.IsClear cwd p)
    (hhead : (lastStep p).1 ≠ "") (hname : (lastStep p).2 ≠ "") :
    t.IsClear cwd (lastStep p).1 where
  plain := hp.plain.of_subset (lastStep_isPrefix p).subset hhead
  origin := by rw [origin_lastStep hhead, hp.origin]
  passes q hq := hp.passes q (by
    rw [places_eq_lastStep cwd hhead hname]
    exact List.mem_append_left _ hq)

/-- A path that something is missing in front of has a last step, and something in front of it. -/
lemma lastStep_ne_empty {t : FileTree} {cwd : List String}
    (ho : t.get? (origin cwd p) = some .directory)
    (h : ¬∀ q ∈ (places cwd p).dropLast, t.get? q = some .directory) :
    (lastStep p).1 ≠ "" ∧ (lastStep p).2 ≠ "" := by
  by_contra hc
  refine h ?_
  by_cases hname : (lastStep p).2 = ""
  · simp [places, components_eq_nil_of_lastStep hname]
  · have hhead : (lastStep p).1 = "" := by
      by_contra hhead
      exact hc ⟨hhead, hname⟩
    simp [places, components_eq_lastStep hname, hhead, ho]

/-- Where something in front of a path is missing, it is made first. -/
lemma run_lacksParent_of_isClear (hp : w.tree.IsClear w.directory p)
    (h : ¬∀ q ∈ (places w.directory p).dropLast, w.tree.get? q = some .directory) :
    (lacksParent p).run w = .ok true w := by
  obtain ⟨hhead, hname⟩ := lastStep_ne_empty hp.origin h
  rw [places_eq_lastStep _ hhead hname, List.dropLast_concat] at h
  have hmissing : w.tree.pathExists w.directory (lastStep p).1 = false := by
    by_contra hexists
    rw [Bool.not_eq_false] at hexists
    have hd := isDirectory_of_pathExists (isClear_lastStep hp hhead hname) hexists
    exact h (FileTree.isDirectory_iff.mp hd).2
  rw [lacksParent, run_inspect]
  simp [hhead, hname, hmissing]

/-- Once all in front of its last step is there, the directory itself is made, or is there as well
because the step leads nowhere. -/
lemma exists_lastDirectory (hplain : IsPlain p) (hhead : (lastStep p).1 ≠ "")
    (hname : (lastStep p).2 ≠ "")
    (hfront : ∀ q ∈ places w.directory (lastStep p).1, w.tree.get? q = some .directory)
    (hfile : ∀ f, w.tree.get? (destination w.directory p) ≠ some (.file f)) :
    ∃ v, (makeLast true p).run w = .ok () v ∧ v.tree.isDirectory v.directory p = true := by
  have hplaces := places_eq_lastStep w.directory hhead hname
  by_cases hdot : (lastStep p).2 = "."
  · rw [makeLast, if_pos hdot]
    refine ⟨w, rfl, FileTree.isDirectory_iff.mpr ⟨hplain, ?_⟩⟩
    rw [hplaces, hdot]
    intro q hq
    rcases List.mem_append.mp hq with hq | hq
    · exact hfront q hq
    · rw [List.mem_singleton.mp hq]
      exact hfront _ (destination_mem_places _ _)
  · rw [makeLast, if_neg hdot]
    obtain ⟨v, hv⟩ := exists_ensureDirectory hplain
      (by rw [hplaces, List.dropLast_concat]; exact hfront) hfile
    exact ⟨v, hv, isDirectory_of_ensureDirectory hv⟩

/-- Directories can be made where no file stands in the way. -/
lemma exists_makeDirectoriesTo {n : ℕ} (hn : p.length < n) (hp : w.tree.IsClear w.directory p) :
    ∃ v, (makeDirectoriesTo true n p).run w = .ok () v ∧
      v.tree.isDirectory v.directory p = true := by
  induction n generalizing p with
  | zero => omega
  | succ n ih =>
    have hfile := hp.passes _ (destination_mem_places _ _)
    by_cases hdirs : ∀ q ∈ (places w.directory p).dropLast, w.tree.get? q = some .directory
    · obtain ⟨v, hv⟩ := exists_ensureDirectory hp.plain hdirs hfile
      rw [run_makeDirectoriesTo_of_dirs true n hp.plain hdirs]
      exact ⟨v, hv, isDirectory_of_ensureDirectory hv⟩
    · obtain ⟨hhead, hname⟩ := lastStep_ne_empty hp.origin hdirs
      have hlen := length_lastStep_lt hname
      obtain ⟨u, hu, hd⟩ := ih (by omega) (isClear_lastStep hp hhead hname)
      have hrun : (makeDirectoriesTo true (n + 1) p).run w = (makeLast true p).run u := by
        rw [makeDirectoriesTo, run_bind_of_ok (run_lacksParent_of_isClear hp hdirs)]
        exact run_bind_of_ok (run_unlessExists_of_ok hu)
      rw [hrun]
      -- What was made in front is no file, wherever the last step leads.
      obtain ⟨t, rfl, ht⟩ := (growsAlong_makeDirectoriesTo _ _ _).of_ok hu
      refine exists_lastDirectory hp.plain hhead hname (FileTree.isDirectory_iff.mp hd).2
        fun f hf => ?_
      rcases ht (destination w.directory p) with heq | ⟨-, hdir, -⟩
      · exact hfile f (heq ▸ hf)
      · simp [hdir] at hf

lemma exists_ensureDirectory_error
    (ho : w.tree.get? (origin w.directory p) ≠ some .directory) :
    ∃ problem, (ensureDirectory true p).run w = .error (.file problem p none) w ∧
      problem ≠ .alreadyExists := by
  obtain ⟨problem, hproblem⟩ := FileTree.exists_locate_error ho
  have hmake : (makeDirectory p).run w = .error (.file problem p none) w :=
    change_eq_error.mpr
      ⟨problem, by simp [FileTree.makeDirectory, hproblem, bind, Except.bind], rfl, rfl⟩
  have hd : w.tree.isDirectory w.directory p = false := by
    by_contra hd
    rw [Bool.not_eq_false] at hd
    exact ho ((FileTree.isDirectory_iff.mp hd).2 _ (origin_mem_places _ _))
  refine ⟨problem, by simp [ensureDirectory, hmake, isDirectory, hd], ?_⟩
  rintro rfl
  exact FileTree.locate_ne_alreadyExists hproblem

/-- No directory can be made on a path that does not start at one, and none exists there. -/
lemma not_makeDirectoriesTo_of_origin {n : ℕ} (hn : p.length < n)
    (ho : w.tree.get? (origin w.directory p) ≠ some .directory) :
    (∀ v, (makeDirectoriesTo true n p).run w ≠ .ok () v) ∧
      ∀ q r v, (makeDirectoriesTo true n p).run w ≠ .error (.file .alreadyExists q r) v := by
  induction n generalizing p with
  | zero => omega
  | succ n ih =>
    rcases makeDirectoriesTo_cases true n p w with
      heq | ⟨hhead, hname, ⟨e', v', -, hne, heq⟩ | ⟨u, hrec, -⟩⟩
    · obtain ⟨problem, hproblem, hne⟩ := exists_ensureDirectory_error ho
      simp [heq, hproblem, hne]
    · rw [heq]
      refine ⟨fun v h => (nomatch h), fun q r v h => ?_⟩
      cases h
      exact hne q r rfl
    · have hlen := length_lastStep_lt hname
      obtain ⟨hok, herror⟩ := ih (p := (lastStep p).1) (by omega) (by rwa [origin_lastStep hhead])
      rcases hrec with hrec | ⟨q, r, hrec⟩
      · exact absurd hrec (hok u)
      · exact absurd hrec (herror q r u)

/-- A directory that is there once directories are made, however much is written after that, is one
that no file stood in the way of. -/
lemma isClear_of_keepsKinds {u : World} (hv : (makeDirectories p true).run w = .ok () v)
    (hk : v.KeepsKinds u) (hd : u.tree.isDirectory u.directory p = true) :
    w.tree.IsClear w.directory p := by
  have hkeeps := trans_of World.KeepsKinds
    ((growsAlong_makeDirectoriesTo _ _ _).of_ok hv).keepsKinds hk
  obtain ⟨hplain, hdirs⟩ := FileTree.isDirectory_iff.mp hd
  rw [hkeeps.directory] at hdirs
  refine ⟨hplain, ?_, fun q hq f hf => ?_⟩
  · by_contra ho
    exact (not_makeDirectoriesTo_of_origin (Nat.lt_succ_self _) ho).1 _ hv
  · obtain ⟨g, hg⟩ := hkeeps.tree.file q f hf
    simp [hdirs q hq] at hg

/-- Making directories leads to a directory if and only if no file stands in the way. -/
lemma isClear_iff : w.tree.IsClear w.directory p ↔
    ∃ v, (makeDirectories p true).run w = .ok () v ∧ v.tree.isDirectory v.directory p = true := by
  constructor
  · exact exists_makeDirectoriesTo (Nat.lt_succ_self _)
  · rintro ⟨v, hv, hd⟩
    exact isClear_of_keepsKinds hv (refl_of World.KeepsKinds v) hd

end Files

end SourceRecovery
