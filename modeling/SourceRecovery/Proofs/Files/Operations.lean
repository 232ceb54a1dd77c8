import SourceRecovery.Proofs.Action
import SourceRecovery.Proofs.Files.Tree

/-!
# What operations on files do

Each operation changes nothing of the world but the tree, and reading changes nothing at all. What
is written is a file, and what is made a directory, at the place that the path leads to.
-/

namespace SourceRecovery

/-- Nothing of the world but the tree is changed. -/
def World.OnlyTree (w v : World) : Prop := ∃ t, v = { w with tree := t }

/-- Nothing is changed but the tree, which grows by directories at the places of a path. -/
def World.GrowsAlong (p : String) (w v : World) : Prop :=
  ∃ t, v = { w with tree := t } ∧ w.tree.GrowsAlong (Path.places w.directory p) t

/-- The working directory is kept, and all directories and files stay what they are. -/
structure World.KeepsKinds (w v : World) : Prop where
  directory : v.directory = w.directory
  tree : w.tree.KeepsKinds v.tree

instance : IsPreorder World World.OnlyTree where
  refl _ := ⟨_, rfl⟩
  trans := by
    rintro _ _ _ ⟨t, rfl⟩ ⟨t', rfl⟩
    exact ⟨t', rfl⟩

instance (p : String) : IsPreorder World (World.GrowsAlong p) where
  refl _ := ⟨_, rfl, .refl _ _⟩
  trans := by
    rintro _ _ _ ⟨t, rfl, h⟩ ⟨t', rfl, h'⟩
    exact ⟨t', rfl, h.trans h'⟩

instance : IsPreorder World World.KeepsKinds where
  refl _ := ⟨rfl, .refl _⟩
  trans _ _ _ h h' := ⟨h'.directory.trans h.directory, h.tree.trans h'.tree⟩

lemma World.GrowsAlong.onlyTree {p : String} {w v : World} (h : w.GrowsAlong p v) :
    w.OnlyTree v := by
  obtain ⟨t, rfl, -⟩ := h
  exact ⟨t, rfl⟩

lemma World.GrowsAlong.keepsKinds {p : String} {w v : World} (h : w.GrowsAlong p v) :
    w.KeepsKinds v := by
  obtain ⟨t, rfl, ht⟩ := h
  exact ⟨rfl, ht.keepsKinds⟩

namespace Files

open SourceRecovery.Action SourceRecovery.Path

variable {p : String} {w v : World} {e : Fault}

/-! ### Single operations -/

@[simp] lemma run_inspect {α : Type} (f : FileTree → List String → α) :
    (inspect f).run w = .ok (f w.tree w.directory) w := rfl

lemma run_change {target : Option String}
    {f : FileTree → List String → Except FileProblem FileTree} :
    (change p target f).run w = match f w.tree w.directory with
      | .ok t => .ok () { w with tree := t }
      | .error problem => .error (.file problem p target) w := by
  simp only [change, EStateM.run_bind, EStateM.run_get]
  cases f w.tree w.directory <;> simp

lemma change_eq_ok {target : Option String}
    {f : FileTree → List String → Except FileProblem FileTree} :
    (change p target f).run w = .ok () v ↔
      ∃ t, f w.tree w.directory = .ok t ∧ v = { w with tree := t } := by
  rw [run_change]
  cases f w.tree w.directory <;> simp [eq_comm]

lemma change_eq_error {target : Option String}
    {f : FileTree → List String → Except FileProblem FileTree} :
    (change p target f).run w = .error e v ↔
      ∃ problem, f w.tree w.directory = .error problem ∧ e = .file problem p target ∧ v = w := by
  rw [run_change]
  cases f w.tree w.directory <;> simp [eq_comm]

/-- A change of the tree is kept track of by what it does to the tree where it succeeds. -/
lemma keeps_change {R : World → World → Prop} [IsPreorder World R] (target : Option String)
    {f : FileTree → List String → Except FileProblem FileTree}
    (h : ∀ w t, f w.tree w.directory = .ok t → R w { w with tree := t }) :
    Keeps R (change p target f) := by
  intro w
  cases ht : f w.tree w.directory with
  | ok t =>
    rw [after_of_ok (change_eq_ok.mpr ⟨t, ht, rfl⟩)]
    exact h w t ht
  | error problem =>
    rw [after_of_error (change_eq_error.mpr ⟨problem, ht, rfl, rfl⟩)]
    exact refl_of R w

lemma keeps_inspect {α : Type} {R : World → World → Prop} [IsPreorder World R]
    (f : FileTree → List String → α) : Keeps R (inspect f) := fun w => refl_of R w

lemma run_obtain_of_ok {α : Type} {f : FileTree → List String → Except FileProblem α} {a : α}
    (h : f w.tree w.directory = .ok a) : (obtain p f).run w = .ok a w := by
  simp [obtain, h]

lemma run_obtain_of_error {α : Type} {f : FileTree → List String → Except FileProblem α}
    {problem : FileProblem} (h : f w.tree w.directory = .error problem) :
    (obtain p f).run w = .error (.file problem p none) w := by
  simp [obtain, h]

lemma run_read : (read p).run w = match w.tree.read w.directory p with
    | .ok data => .ok data w
    | .error problem => .error (.file problem p none) w := by
  cases h : w.tree.read w.directory p with
  | ok data => exact run_obtain_of_ok h
  | error problem => exact run_obtain_of_error h

/-- Words that the system takes are given to it. -/
lemma run_give {words : List String} (h : ∀ word ∈ words, IsAdmissible word) (w : World) :
    (give words).run w = .ok () w := by
  induction words with
  | nil => rfl
  | cons word words ih =>
    obtain ⟨hword, hwords⟩ := List.forall_mem_cons.mp h
    exact (run_bind_of_ok (run_obtain_of_ok (accept_eq_ok_iff.mpr hword))).trans (ih hwords)

/-- A word that the system does not take is refused. -/
lemma exists_give_error {words : List String} (h : ∃ word ∈ words, ¬ IsAdmissible word)
    (w : World) : ∃ e, (give words).run w = .error e w := by
  induction words with
  | nil => simp at h
  | cons word words ih =>
    cases hword : accept word with
    | error problem => exact ⟨_, run_bind_of_error (run_obtain_of_error hword)⟩
    | ok =>
      obtain ⟨e, he⟩ := ih <| by simpa [accept_eq_ok_iff.mp hword] using h
      exact ⟨e, (run_bind_of_ok (run_obtain_of_ok hword)).trans he⟩

lemma keeps_read {R : World → World → Prop} [IsPreorder World R] (p : String) :
    Keeps R (read p) := by
  intro w
  have h : (read p).after w = w := by
    rw [after, run_read]
    cases w.tree.read w.directory p <;> rfl
  rw [h]
  exact refl_of R w

/-- A text that a file holds is read with its newlines unified. -/
lemma run_readText {text : String} (h : w.tree.read w.directory p = .ok (Text.encode text)) :
    (readText p).run w = .ok (Text.unifyNewlines text) w := by
  have hread : (read p).run w = .ok (Text.encode text) w := by rw [run_read, h]
  rw [readText, run_bind_of_ok hread, Text.decode?_encode]
  rfl

/-- The text of a file is what its bytes decode to, with its newlines unified. -/
lemma readText_eq_ok {text : String} (h : (readText p).run w = .ok text v) :
    v = w ∧ IsPlain p ∧ (∀ q ∈ (places w.directory p).dropLast, w.tree.get? q = some .directory) ∧
      ∃ f decoded, w.tree.get? (destination w.directory p) = some (.file f) ∧
        Text.decode? f.data = some decoded ∧ text = Text.unifyNewlines decoded := by
  obtain ⟨data, u, hread, hrest⟩ := bind_eq_ok.mp h
  rw [run_read] at hread
  cases hr : w.tree.read w.directory p with
  | error problem => simp [hr] at hread
  | ok former =>
    simp only [hr, EStateM.Result.ok.injEq] at hread
    obtain ⟨rfl, rfl⟩ := hread
    obtain ⟨hplain, hdirs, f, hf, rfl⟩ := FileTree.read_eq_ok hr
    cases hd : Text.decode? f.data with
    | none => simp [hd] at hrest
    | some decoded =>
      simp only [hd] at hrest
      cases hrest
      exact ⟨rfl, hplain, hdirs, f, decoded, hf, hd, rfl⟩

lemma run_write (p : String) (data : Bytes) (w : World) :
    (write p data).run w = match w.tree.write w.directory w.now p data with
      | .ok t => .ok () { w with tree := t }
      | .error problem => .error (.file problem p none) w :=
  run_change (f := fun t cwd => t.write cwd w.now p data)

/-- Writing puts a file where the path leads, which is to no directory. -/
lemma write_eq_ok {data : Bytes} (h : (write p data).run w = .ok () v) :
    w.tree.get? (destination w.directory p) ≠ some .directory ∧
      ∃ x, v = { w with
        tree := w.tree.put (destination w.directory p) (.file ⟨data, x, w.now⟩) } := by
  obtain ⟨t, ht, rfl⟩ := change_eq_ok (f := fun t cwd => t.write cwd w.now p data) |>.mp h
  obtain ⟨hd, x, rfl⟩ := FileTree.write_eq_ok ht
  exact ⟨hd, x, rfl⟩

lemma follows_of_write {data : Bytes} (h : (write p data).run w = .ok () v) :
    IsPlain p ∧ (∀ q ∈ (places w.directory p).dropLast, w.tree.get? q = some .directory) ∧
      endsInSlash p = false := by
  obtain ⟨t, ht, -⟩ := change_eq_ok (f := fun t cwd => t.write cwd w.now p data) |>.mp h
  exact FileTree.follows_of_write ht

/-- What was written is a file. -/
lemma isFile_of_write {data : Bytes} (h : (write p data).run w = .ok () v) :
    v.tree.isFile v.directory p = true := by
  obtain ⟨hplain, hdirs, hslash⟩ := follows_of_write h
  obtain ⟨hd, x, rfl⟩ := write_eq_ok h
  exact FileTree.isFile_iff.mpr ⟨_, FileTree.find_put hplain hdirs hslash hd _⟩

/-- What was written can be read. -/
lemma read_of_write {data : Bytes} (h : (write p data).run w = .ok () v) :
    v.tree.read v.directory p = .ok data := by
  obtain ⟨hplain, hdirs, hslash⟩ := follows_of_write h
  obtain ⟨hd, x, rfl⟩ := write_eq_ok h
  have hfind := FileTree.find_put hplain hdirs hslash hd ⟨data, x, w.now⟩
  simp only [FileTree.read, hfind, bind, Except.bind]

/-- Writing somewhere else does not matter to what can be read. -/
lemma read_of_write_of_ne {q : String} {data other : Bytes}
    (hread : w.tree.read w.directory p = .ok data) (h : (write q other).run w = .ok () v)
    (hne : destination w.directory p ≠ destination w.directory q) :
    v.tree.read v.directory p = .ok data := by
  obtain ⟨hd, x, rfl⟩ := write_eq_ok h
  obtain ⟨n, hfind, hdata⟩ := exists_of_bind_eq_ok hread
  cases n with
  | directory => cases hdata
  | file f =>
    cases hdata
    obtain ⟨hplain, hdirs, hslash, hf⟩ := FileTree.find_eq_file.mp hfind
    have hkept : (w.tree.put (destination w.directory q) (.file ⟨other, x, w.now⟩)).find
        w.directory p = .ok (.file f) := by
      refine FileTree.find_eq_file.mpr ⟨hplain, fun r hr => ?_, hslash, ?_⟩
      · exact (FileTree.KeepsKinds.put_file hd).directory r (hdirs r hr)
      · rw [FileTree.get?_put_of_ne _ _ hne, hf]
    simp only [FileTree.read, hkept, bind, Except.bind]

/-- A write that is refused changes nothing. -/
lemma write_eq_error {data : Bytes} (h : (write p data).run w = .error e v) : v = w :=
  ((change_eq_error (f := fun t cwd => t.write cwd w.now p data)).mp h).choose_spec.2.2

/-- Writing to a path that leads to no directory puts a file there. -/
lemma exists_write (hp : IsPlain p)
    (hdirs : ∀ q ∈ (places w.directory p).dropLast, w.tree.get? q = some .directory)
    (hslash : endsInSlash p = false)
    (hd : w.tree.get? (destination w.directory p) ≠ some .directory) (data : Bytes) :
    ∃ f, (write p data).run w =
      .ok () { w with tree := w.tree.put (destination w.directory p) (.file f) } := by
  obtain ⟨t, ht⟩ := FileTree.exists_write hp hdirs hslash hd w.now data
  obtain ⟨-, x, rfl⟩ := FileTree.write_eq_ok ht
  exact ⟨_, change_eq_ok (f := fun t cwd => t.write cwd w.now p data) |>.mpr ⟨_, ht, rfl⟩⟩

/-- A file can be written where writing succeeds. -/
lemma isWritable_iff_write (data : Bytes) :
    w.tree.IsWritable w.directory p ↔ ∃ v, (write p data).run w = .ok () v := by
  rw [FileTree.isWritable_iff w.now data]
  constructor
  · rintro ⟨t, ht⟩
    exact ⟨_, change_eq_ok (f := fun t cwd => t.write cwd w.now p data) |>.mpr ⟨t, ht, rfl⟩⟩
  · rintro ⟨v, hv⟩
    obtain ⟨t, ht, -⟩ := change_eq_ok (f := fun t cwd => t.write cwd w.now p data) |>.mp hv
    exact ⟨t, ht⟩

/-- Appending to a file that is there adds to its content. -/
lemma exists_append {former : File} (h : w.tree.find w.directory p = .ok (.file former))
    (data : Bytes) : ∃ f, f.data = former.data ++ data ∧ (append p data).run w =
      .ok () { w with tree := w.tree.put (destination w.directory p) (.file f) } := by
  have hread : w.tree.read w.directory p = .ok former.data := by
    simp [FileTree.read, h, bind, Except.bind]
  refine ⟨⟨former.data ++ data, former.executable, w.now⟩, rfl, change_eq_ok (f := fun t cwd => do
    t.write cwd w.now p ((← t.read cwd p) ++ data)) |>.mpr ⟨_, ?_, rfl⟩⟩
  simp only [hread, bind, Except.bind, FileTree.write_of_find h]

/-- What a file is once something is written on to it that was held open: a file that is gone
stays gone. -/
def extended (t : FileTree) (cwd : List String) (now : Int) (p : String) (data : Bytes) :
    FileTree :=
  match t.find cwd p with
  | .ok (.file f) => t.put (destination cwd p) (.file ⟨f.data ++ data, f.executable, now⟩)
  | _ => t

/-- Writing on to a file that is held open never fails. -/
lemma run_extend (p : String) (data : Bytes) (w : World) : (extend p data).run w =
    .ok () { w with tree := extended w.tree w.directory w.now p data } := by
  by_cases hf : w.tree.isFile w.directory p = true
  · obtain ⟨f, hfind⟩ := FileTree.isFile_iff.mp hf
    have hread : w.tree.read w.directory p = .ok f.data := by
      simp [FileTree.read, hfind, bind, Except.bind]
    have hrun : (extend p data).run w = (append p data).run w := by
      simp only [extend, isFile, EStateM.run_bind, run_inspect, hf, if_true]
    rw [hrun]
    refine change_eq_ok (f := fun t cwd => do t.write cwd w.now p ((← t.read cwd p) ++ data)) |>.mpr
      ⟨_, ?_, rfl⟩
    simp only [hread, bind, Except.bind, FileTree.write_of_find hfind, extended, hfind]
  · have hsame : extended w.tree w.directory w.now p data = w.tree := by
      unfold extended
      split
      · rename_i f hfind
        exact absurd (FileTree.isFile_iff.mpr ⟨f, hfind⟩) hf
      · rfl
    simp only [hsame, extend, isFile, EStateM.run_bind, run_inspect, hf, if_false,
      Bool.false_eq_true, EStateM.run_pure]

/-- Removing a directory whose path ends in a name of its own never fails. -/
lemma run_removeAll (h : w.tree.isDirectory w.directory p = true) (hn : IsName (name p)) :
    (removeAll p).run w = .ok () { w with
      tree :=
        (w.tree.eraseBelow (destination w.directory p)).erase (destination w.directory p) } := by
  simp only [removeAll, EStateM.run_bind, EStateM.run_get,
    FileTree.removeAll_of_isDirectory h hn, run_ofExcept_ok, EStateM.run_set]
  rfl

lemma keepsKinds_write (p : String) (data : Bytes) : Keeps World.KeepsKinds (write p data) := by
  intro w
  refine keeps_change (R := World.KeepsKinds) (p := p) none
    (f := fun t cwd => t.write cwd w.now p data) (fun u t ht => ?_) w
  obtain ⟨hd, x, rfl⟩ := FileTree.write_eq_ok ht
  exact ⟨rfl, .put_file hd⟩

lemma onlyTree_change (p : String) (target : Option String)
    (f : FileTree → List String → Except FileProblem FileTree) :
    Keeps World.OnlyTree (change p target f) :=
  keeps_change target fun _ t _ => ⟨t, rfl⟩

lemma onlyTree_write (p : String) (data : Bytes) : Keeps World.OnlyTree (write p data) :=
  fun w => onlyTree_change p none (fun t cwd => t.write cwd w.now p data) w

lemma onlyTree_append (p : String) (data : Bytes) : Keeps World.OnlyTree (append p data) :=
  fun w => onlyTree_change p none
    (fun t cwd => do t.write cwd w.now p ((← t.read cwd p) ++ data)) w

/-- What could not be removed stops the removal, once the rest is gone. -/
lemma onlyTree_removeAll (p : String) : Keeps World.OnlyTree (removeAll p) := by
  intro w
  cases h : w.tree.removeAll w.directory p with
  | error problem =>
    have hrun : (removeAll p).run w = .error (.file problem p none) w := by
      simp [removeAll, h]
    rw [after_of_error hrun]
    exact refl_of World.OnlyTree w
  | ok result =>
    obtain ⟨t, left⟩ := result
    have hafter : (removeAll p).after w = { w with tree := t } := by
      cases left <;> simp [removeAll, h, after]
    exact ⟨t, hafter⟩

lemma keepsKinds_append (p : String) (data : Bytes) : Keeps World.KeepsKinds (append p data) := by
  intro w
  refine keeps_change (R := World.KeepsKinds) (p := p) none
    (f := fun t cwd => do t.write cwd w.now p ((← t.read cwd p) ++ data)) (fun u t ht => ?_) w
  obtain ⟨former, -, hwrite⟩ := exists_of_bind_eq_ok ht
  obtain ⟨hd, x, rfl⟩ := FileTree.write_eq_ok hwrite
  exact ⟨rfl, .put_file hd⟩

/-- Making a directory grows the tree at the place that the path leads to. -/
lemma growsAlong_makeDirectory (p : String) : Keeps (World.GrowsAlong p) (makeDirectory p) := by
  refine keeps_change none fun w t ht => ?_
  obtain ⟨-, -, hnone, rfl⟩ := FileTree.makeDirectory_eq_ok ht
  exact ⟨_, rfl, .put_directory (destination_mem_places _ _) hnone⟩

lemma isDirectory_of_makeDirectory (h : (makeDirectory p).run w = .ok () v) :
    v.tree.isDirectory v.directory p = true := by
  obtain ⟨t, ht, rfl⟩ := change_eq_ok.mp h
  obtain ⟨hplain, hdirs, hnone, rfl⟩ := FileTree.makeDirectory_eq_ok ht
  have hne : destination w.directory p ≠ [] := by
    intro he
    simp [he] at hnone
  refine FileTree.isDirectory_iff.mpr ⟨hplain, FileTree.forall_places_iff.mpr ⟨fun q hq => ?_, ?_⟩⟩
  · have hq' : q ≠ destination w.directory p := by
      rintro rfl
      have := hdirs _ hq
      simp [hnone] at this
    rw [FileTree.get?_put_of_ne _ _ hq']
    exact hdirs q hq
  · exact FileTree.get?_put_self _ _ hne

/-! ### What is refused -/

/-- A refusal of an operation on files. -/
def IsRefusal (e : Fault) : Prop := ∃ problem q target, e = .file problem q target

lemma raises_obtain {α : Type} (p : String)
    (f : FileTree → List String → Except FileProblem α) : Raises IsRefusal (obtain p f) :=
  .bind_get fun _ => .ofExcept fun problem _ => ⟨problem, p, none, rfl⟩

lemma raises_give (words : List String) : Raises IsRefusal (give words) :=
  .forM fun word _ => raises_obtain word _

lemma raises_change (p : String) (target : Option String)
    (f : FileTree → List String → Except FileProblem FileTree) :
    Raises IsRefusal (change p target f) := by
  intro w e v h
  obtain ⟨problem, -, rfl, -⟩ := change_eq_error.mp h
  exact ⟨problem, p, target, rfl⟩

lemma raises_write (p : String) (data : Bytes) : Raises IsRefusal (write p data) :=
  .bind_get fun _ => raises_change _ _ _

lemma raises_append (p : String) (data : Bytes) : Raises IsRefusal (append p data) :=
  .bind_get fun _ => raises_change _ _ _

lemma raises_extend (p : String) (data : Bytes) : Raises IsRefusal (extend p data) := by
  refine .bind (.of_ok fun w => ⟨_, _, rfl⟩) fun found => ?_
  split
  · exact raises_append p data
  · exact .pure ()

lemma raises_removeAll (p : String) : Raises IsRefusal (removeAll p) := by
  refine .bind_get fun w => .bind (.ofExcept fun problem _ => ⟨problem, p, none, rfl⟩) ?_
  rintro ⟨tree, left⟩
  refine .bind (.of_ok fun w => ⟨_, _, rfl⟩) fun _ => ?_
  cases left with
  | none => exact .pure ()
  | some problem => exact .throwing ⟨problem, p, none, rfl⟩

/-- The text of a file may be refused, or be none. -/
lemma raises_readText (p : String) :
    Raises (fun e => IsRefusal e ∨ e = .undecodable) (readText p) := by
  refine .bind ((raises_obtain p _).mono fun _ => .inl) fun data => ?_
  split
  · exact .pure _
  · exact .throwing (.inr rfl)

end Files

end SourceRecovery
