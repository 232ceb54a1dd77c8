import Mathlib.Data.List.Sort
import SourceRecovery.Proofs.Files.Walk
import SourceRecovery.Proofs.Text.Order
import SourceRecovery.Sources

/-!
# The source files that are found

The paths of the source files below a directory are found once each and in ascending order. A
survey tells each of those that lead to a file with the moment at which it was written; links that
lead nowhere do not matter to it, and neither do files that are no source files.
-/

namespace SourceRecovery.Sources

open SourceRecovery.Action SourceRecovery.Path

variable {t : FileTree} {links : List (List String)} {cwd place cs dirs : List String}
  {base p q : String} {m : Int} {f : File} {found : List (String × Int)} {w : World}

/-! ### Naming a source file -/

/-- A relative path is the one that leads on from a place by some names, the last of which is that
of a source file. -/
structure IsPathTo (t : FileTree) (place : List String) (q : String) (dirs : List String)
    (base : String) : Prop where
  leads : t.Leads place dirs base
  extension : extension.toList <:+ base.toList
  path : q = "/".intercalate (dirs ++ [base])

/-- A relative path names a source file below a place. -/
def NamesSource (t : FileTree) (place : List String) (q : String) (f : File) : Prop :=
  ∃ dirs base, IsPathTo t place q dirs base ∧ t.get? (place ++ (dirs ++ [base])) = some (.file f)

/-- A relative path names a link below a place that leads nowhere. -/
def NamesLink (t : FileTree) (links : List (List String)) (place : List String) (q : String) :
    Prop :=
  ∃ dirs base, IsPathTo t place q dirs base ∧ t.get? (place ++ (dirs ++ [base])) = none ∧
    place ++ (dirs ++ [base]) ∈ links

lemma isSource_concat : isSource (cs ++ [base]) = true ↔ extension.toList <:+ base.toList := by
  rw [isSource, List.getLast?_concat, List.isSuffixOf_iff_suffix]

lemma intercalate_injective {cs ds : List String} (hc : ∀ c ∈ cs, isFileName c = true)
    (hd : ∀ d ∈ ds, isFileName d = true) (h : "/".intercalate cs = "/".intercalate ds) :
    cs = ds := by
  have hnames {cs : List String} (hcs : ∀ c ∈ cs, isFileName c = true) :
      ∀ c ∈ cs, c ≠ "" ∧ '/' ∉ c.toList := fun c hc =>
    ⟨(isFileName_iff.mp (hcs c hc)).1.ne_empty, (isFileName_iff.mp (hcs c hc)).1.no_slash⟩
  rw [← components_intercalate (hnames hc), h, components_intercalate (hnames hd)]

/-- A relative path leads on by one list of names. -/
lemma IsPathTo.eq {dirs' : List String} {base' : String} (h : IsPathTo t place q dirs base)
    (h' : IsPathTo t place q dirs' base') : dirs' ++ [base'] = dirs ++ [base] :=
  intercalate_injective h'.leads.named h.leads.named (h'.path.symm.trans h.path)

/-! ### Finding paths -/

/-- Below a directory, the paths of source files are found, and those of links with such names. -/
lemma mem_below (hplace : t.get? place = some .directory) :
    q ∈ below t links place ↔ (∃ f, NamesSource t place q f) ∨ NamesLink t links place q := by
  simp only [below, List.mem_mergeSort, List.mem_map, List.mem_filter,
    FileTree.mem_walk_depth hplace]
  constructor
  · rintro ⟨_, ⟨⟨dirs, base, rfl, hleads, hcases⟩, hsource⟩, rfl⟩
    have hpath : IsPathTo t place _ dirs base := ⟨hleads, isSource_concat.mp hsource, rfl⟩
    rcases hcases with ⟨f, hf⟩ | hlink
    · exact .inl ⟨f, dirs, base, hpath, hf⟩
    · exact .inr ⟨dirs, base, hpath, hlink⟩
  · rintro (⟨f, dirs, base, hpath, hf⟩ | ⟨dirs, base, hpath, hlink⟩)
    · exact ⟨_, ⟨⟨dirs, base, rfl, hpath.leads, .inl ⟨f, hf⟩⟩, isSource_concat.mpr hpath.extension⟩,
        hpath.path.symm⟩
    · exact ⟨_, ⟨⟨dirs, base, rfl, hpath.leads, .inr hlink⟩, isSource_concat.mpr hpath.extension⟩,
        hpath.path.symm⟩

/-- The paths that are found are told once each, in the order of texts. -/
lemma pairwise_below (hplace : t.get? place = some .directory) :
    (below t links place).Pairwise fun a b => Text.precedes a b = true := by
  have hnamed (cs : List String) (h : cs ∈ t.walk links (t.depth links) place) :
      ∀ c ∈ cs, isFileName c = true := by
    obtain ⟨dirs, base, rfl, hleads, -⟩ := (FileTree.mem_walk_depth hplace).mp h
    exact hleads.named
  have hnodup :
      (((t.walk links (t.depth links) place).filter isSource).map "/".intercalate).Nodup := by
    refine (FileTree.nodup_walk.filter _).map_on fun cs hcs ds hds => ?_
    exact intercalate_injective (hnamed cs (List.mem_of_mem_filter hcs))
      (hnamed ds (List.mem_of_mem_filter hds))
  have hsorted := (Text.pairwise_mergeSort id _).and
    ((List.mergeSort_perm _ fun a b => !Text.precedes b a).nodup_iff.mpr hnodup)
  exact hsorted.imp fun ⟨hba, hne⟩ => Text.precedes_of_ne hne hba

/-- From a path that the system can be given, the paths below the directory that it leads to are
found. -/
lemma run_find (h : IsAdmissible p) (w : World) :
    (find p).run w = .ok (if w.tree.isDirectory w.directory p then
      below w.tree w.links (destination w.directory p) else []) w := by
  have hdir : w.tree.isDirectory w.directory p = true ↔ _ := FileTree.isDirectory_iff
  refine (run_bind_of_ok (EStateM.run_get w)).trans (Files.run_obtain_of_ok ?_)
  unfold search
  cases hl : w.tree.locate w.directory p with
  | error problem =>
    have hd : w.tree.isDirectory w.directory p = false := by
      simp [FileTree.isDirectory, FileTree.find, hl, bind, Except.bind]
    rcases FileTree.locate_eq_error h hl with rfl | rfl <;> simp [hd]
  | ok spot =>
    obtain ⟨hplain, hdirs, hplace, hnode, -⟩ := FileTree.locate_eq_ok hl
    rw [FileTree.forall_places_iff, ← hnode] at hdir
    have hd : w.tree.isDirectory w.directory p = true ↔ spot.node = some .directory :=
      hdir.trans ⟨fun h => h.2.2, fun h => ⟨hplain, hdirs, h⟩⟩
    simp only [hplace, hd]

/-- Nothing is found from a path that the system cannot be given. -/
lemma exists_find_error (h : ¬ IsAdmissible p) (w : World) :
    ∃ e, (find p).run w = .error e w := by
  have hsearch : ∃ problem, search w.links p w.tree w.directory = .error problem := by
    unfold search
    cases hl : w.tree.locate w.directory p with
    | ok spot => exact absurd (FileTree.locate_eq_ok hl).1.isAdmissible h
    | error problem =>
      have hsystem := (FileTree.isSystem_of_locate_iff hl).not.mpr h
      cases problem with
      | cutPath => exact ⟨_, rfl⟩
      | unencodable => exact ⟨_, rfl⟩
      | _ => exact absurd rfl hsystem
  obtain ⟨problem, hproblem⟩ := hsearch
  exact ⟨_, (run_bind_of_ok (EStateM.run_get w)).trans (Files.run_obtain_of_error hproblem)⟩

/-! ### Taking a survey -/

/-- A path below a directory with the moment of its file. -/
def stamped? (t : FileTree) (cwd : List String) (p q : String) : Option (String × Int) :=
  (t.modified cwd (join p q)).toOption.map fun m => (q, m)

/-- The source files that are found from a path, and when they were written; there are none where
it leads to no directory. -/
def survey (t : FileTree) (cwd : List String) (p : String) : List (String × Int) :=
  if t.isDirectory cwd p then (below t [] (destination cwd p)).filterMap (stamped? t cwd p) else []

/-- From the directory, a path that is found leads to what its names lead to. -/
lemma IsPathTo.find_eq (h : IsPathTo t (destination cwd p) q dirs base)
    (hd : t.isDirectory cwd p = true) :
    t.find cwd (join p q) =
      (t.get? (destination cwd p ++ (dirs ++ [base]))).elim (.error .notFound) .ok := by
  rw [h.path, FileTree.find_join_intercalate hd h.leads]

lemma NamesSource.find_eq (h : NamesSource t (destination cwd p) q f)
    (hd : t.isDirectory cwd p = true) : t.find cwd (join p q) = .ok (.file f) := by
  obtain ⟨dirs, base, hpath, hf⟩ := h
  rw [hpath.find_eq hd, hf, Option.elim_some]

lemma NamesLink.find_eq (h : NamesLink t links (destination cwd p) q)
    (hd : t.isDirectory cwd p = true) : t.find cwd (join p q) = .error .notFound := by
  obtain ⟨dirs, base, hpath, hnone, -⟩ := h
  rw [hpath.find_eq hd, hnone, Option.elim_none]

lemma NamesSource.stamped?_eq (h : NamesSource t (destination cwd p) q f)
    (hd : t.isDirectory cwd p = true) : stamped? t cwd p q = some (q, f.modified) := by
  rw [stamped?, FileTree.modified, h.find_eq hd]
  rfl

lemma NamesLink.stamped?_eq (h : NamesLink t links (destination cwd p) q)
    (hd : t.isDirectory cwd p = true) : stamped? t cwd p q = none := by
  rw [stamped?, FileTree.modified, h.find_eq hd]
  rfl

/-- A path leads to one file. -/
lemma NamesSource.eq {f' : File} (h : NamesSource t place q f) (h' : NamesSource t place q f') :
    f = f' := by
  obtain ⟨dirs, base, hpath, hf⟩ := h
  obtain ⟨dirs', base', hpath', hf'⟩ := h'
  rw [hpath.eq hpath', hf] at hf'
  cases hf'
  rfl

/-- The moment of a path that is found is asked for: a file has one, and a link that leads nowhere
has none. -/
lemma run_dated (hd : w.tree.isDirectory w.directory p = true)
    (hq : q ∈ below w.tree w.links (destination w.directory p)) :
    (dated p q).run w = .ok (stamped? w.tree w.directory p q) w := by
  rcases (mem_below (FileTree.get?_destination hd)).mp hq with ⟨f, hf⟩ | hlink
  · have hmoment : (Files.modified (join p q)).run w = .ok f.modified w :=
      Files.run_obtain_of_ok (by rw [FileTree.modified, hf.find_eq hd]; rfl)
    rw [hf.stamped?_eq hd, dated, run_tryCatch, run_bind_of_ok hmoment]
    rfl
  · have hmoment : (Files.modified (join p q)).run w =
        .error (.file .notFound (join p q) none) w :=
      Files.run_obtain_of_error (by rw [FileTree.modified, hlink.find_eq hd]; rfl)
    rw [hlink.stamped?_eq hd, dated, run_tryCatch, run_bind_of_error hmoment]
    rfl

lemma run_filterMapM {α β : Type} {g : α → Action (Option β)} {h : α → Option β} {as : List α}
    (hg : ∀ a ∈ as, (g a).run w = .ok (h a) w) :
    (as.filterMapM g).run w = .ok (as.filterMap h) w := by
  induction as with
  | nil => rfl
  | cons a as ih =>
    obtain ⟨ha, has⟩ := List.forall_mem_cons.mp hg
    rw [List.filterMapM_cons, run_bind_of_ok ha]
    cases hb : h a with
    | none => rw [List.filterMap_cons_none hb, ← ih has]
    | some b => rw [List.filterMap_cons_some hb, run_bind_of_ok (ih has), EStateM.run_pure]

lemma mem_entries (hd : t.isDirectory cwd p = true) :
    (q, m) ∈ (below t links (destination cwd p)).filterMap (stamped? t cwd p) ↔
      ∃ f, NamesSource t (destination cwd p) q f ∧ m = f.modified := by
  simp only [List.mem_filterMap, mem_below (FileTree.get?_destination hd)]
  constructor
  · rintro ⟨q', ⟨f, hf⟩ | hlink, hentry⟩
    · rw [hf.stamped?_eq hd] at hentry
      cases hentry
      exact ⟨f, hf, rfl⟩
    · rw [hlink.stamped?_eq hd] at hentry
      cases hentry
  · rintro ⟨f, hf, rfl⟩
    exact ⟨q, .inl ⟨f, hf⟩, hf.stamped?_eq hd⟩

/-! ### The order of a survey -/

/-- A survey is in order: it tells its paths one after another in the order of texts, none of them
twice. -/
def IsOrdered (survey : List (String × Int)) : Prop :=
  survey.Pairwise fun a b => Text.precedes a.1 b.1 = true

/-- In a survey that is in order, a path has the moment that it is told with. -/
lemma IsOrdered.lookup_eq_some_iff (h : IsOrdered found) :
    found.lookup p = some m ↔ (p, m) ∈ found := by
  induction found with
  | nil => simp
  | cons e found ih =>
    obtain ⟨r, k⟩ := e
    obtain ⟨hhead, htail⟩ := List.pairwise_cons.mp h
    rw [List.lookup_cons, List.mem_cons, Prod.mk.injEq]
    by_cases hr : p = r
    · subst hr
      have hnot : (p, m) ∉ found := by
        intro hmem
        have hself := hhead _ hmem
        rw [Text.not_precedes_self] at hself
        cases hself
      simp [hnot, eq_comm]
    · have hb : (p == r) = false := by simpa using hr
      simp [hb, hr, ih htail]

/-- Surveys that are in order and tell the same are the same. -/
lemma IsOrdered.eq_of_mem_iff {found' : List (String × Int)} (h : IsOrdered found)
    (h' : IsOrdered found') (hmem : ∀ q m, (q, m) ∈ found ↔ (q, m) ∈ found') : found = found' := by
  have hirrefl : Std.Irrefl fun a b : String × Int => Text.precedes a.1 b.1 = true :=
    ⟨fun a ha => by simp [Text.not_precedes_self] at ha⟩
  have hantisymm : Std.Antisymm fun a b : String × Int => Text.precedes a.1 b.1 = true :=
    ⟨fun a b ha hb => by simp [Text.not_precedes_of_precedes ha] at hb⟩
  exact List.Pairwise.eq_of_mem_iff h h' fun e => hmem e.1 e.2

lemma isOrdered_entries (hd : t.isDirectory cwd p = true) :
    IsOrdered ((below t links (destination cwd p)).filterMap (stamped? t cwd p)) := by
  refine (pairwise_below (FileTree.get?_destination hd)).filterMap _ fun q q' hlt e he e' he' => ?_
  have hkey {q : String} {e : String × Int} (he : stamped? t cwd p q = some e) : e.1 = q := by
    obtain ⟨m, -, rfl⟩ := Option.map_eq_some_iff.mp he
    rfl
  rwa [hkey he, hkey he']

lemma isOrdered_survey (t : FileTree) (cwd : List String) (p : String) :
    IsOrdered (survey t cwd p) := by
  unfold survey
  split_ifs with hd
  · exact isOrdered_entries hd
  · exact .nil

/-- A survey tells of the source files below a directory: their paths from there, and when they
were written. -/
lemma mem_survey : (q, m) ∈ survey t cwd p ↔ t.isDirectory cwd p = true ∧
    ∃ f, NamesSource t (destination cwd p) q f ∧ m = f.modified := by
  unfold survey
  split_ifs with hd
  · simp [hd, mem_entries hd]
  · simp [hd]

/-- A survey tells the paths that are found and have a moment, whatever links are found with
them. -/
lemma survey_eq (links : List (List String)) (hd : t.isDirectory cwd p = true) :
    survey t cwd p = (below t links (destination cwd p)).filterMap (stamped? t cwd p) := by
  refine (isOrdered_survey t cwd p).eq_of_mem_iff (isOrdered_entries hd) fun q m => ?_
  rw [mem_survey, mem_entries hd]
  exact and_iff_right hd

/-- A path that the system can be given is surveyed. -/
lemma run_snapshot (h : IsAdmissible p) (w : World) :
    (snapshot p).run w = .ok (survey w.tree w.directory p) w := by
  refine (run_bind_of_ok (run_find h w)).trans ?_
  by_cases hd : w.tree.isDirectory w.directory p = true
  · rw [if_pos hd, survey_eq w.links hd]
    exact run_filterMapM fun q hq => run_dated hd hq
  · rw [if_neg hd, survey, if_neg hd]
    rfl

/-- A directory that cannot be given to the system cannot be surveyed. -/
lemma exists_snapshot_error (h : ¬ IsAdmissible p) (w : World) :
    ∃ e, (find p).run w = .error e w ∧ (snapshot p).run w = .error e w := by
  obtain ⟨e, he⟩ := exists_find_error h w
  exact ⟨e, he, run_bind_of_error he⟩

/-! ### Files that are no source files -/

lemma isSource_append (h : cs ≠ []) (place : List String) :
    isSource (place ++ cs) = isSource cs := by
  simp [isSource, List.getLast?_append_of_ne_nil _ h]

/-- A file that is no source file is put where there is no directory: the same source files are
named. -/
lemma namesSource_put {r : List String} (hr : isSource r = false)
    (hd : t.get? r ≠ some .directory) (g : File) :
    NamesSource (t.put r (.file g)) place q f ↔ NamesSource t place q f := by
  refine exists_congr fun dirs => exists_congr fun base => ?_
  have hleads : (t.put r (.file g)).Leads place dirs base ↔ t.Leads place dirs base :=
    FileTree.leads_congr fun q => FileTree.get?_put_file_eq_directory hd g
  have hpath : IsPathTo (t.put r (.file g)) place q dirs base ↔ IsPathTo t place q dirs base :=
    ⟨fun h => ⟨hleads.mp h.leads, h.extension, h.path⟩,
      fun h => ⟨hleads.mpr h.leads, h.extension, h.path⟩⟩
  rw [hpath]
  refine and_congr_right fun h => ?_
  have hne : place ++ (dirs ++ [base]) ≠ r := by
    rintro rfl
    rw [isSource_append (by simp), ← Bool.not_eq_true, isSource_concat] at hr
    exact hr h.extension
  rw [FileTree.get?_put_of_ne t _ hne]

/-- Putting a file that is no source file where there is no directory changes no survey. -/
lemma survey_put {r : List String} (hr : isSource r = false) (hd : t.get? r ≠ some .directory)
    (g : File) : survey (t.put r (.file g)) cwd p = survey t cwd p := by
  refine (isOrdered_survey _ _ _).eq_of_mem_iff (isOrdered_survey _ _ _) fun q m => ?_
  simp only [mem_survey, namesSource_put hr hd, FileTree.isDirectory_iff,
    FileTree.get?_put_file_eq_directory hd]

end SourceRecovery.Sources
