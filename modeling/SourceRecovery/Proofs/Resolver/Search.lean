import Mathlib.Data.List.Sort
import SourceRecovery.Proofs.Resolver.Directories
import SourceRecovery.Proofs.Text.Order

/-!
# Searching for references

A name resolves to the first file that is there, so that more directories at the end do not change
what has resolved before. What does not resolve is reported, in the order in which it was asked
for, or as an error that depends on the names only and not on their order.
-/

namespace SourceRecovery.Resolver

open SourceRecovery.Path

variable {r r' : Resolver} {t : FileTree} {cwd : List String} {d name file : String}
  {names names' missing : List String}

/-! ### The first file -/

/-- The file that a directory supplies for a name: the library, and without one the program. -/
inductive Supplies (t : FileTree) (cwd : List String) (d name : String) : String → Prop
  | library (h : t.isFile cwd (join d (name ++ ".dll")) = true) :
      Supplies t cwd d name (join d (name ++ ".dll"))
  | program (hlibrary : t.isFile cwd (join d (name ++ ".dll")) = false)
      (h : t.isFile cwd (join d (name ++ ".exe")) = true) :
      Supplies t cwd d name (join d (name ++ ".exe"))

/-- A directory has none of the files that a name may be in. -/
def Lacks (t : FileTree) (cwd : List String) (d name : String) : Prop :=
  ∀ e ∈ extensions, t.isFile cwd (join d (name ++ e)) = false

instance : Decidable (Lacks t cwd d name) :=
  inferInstanceAs (Decidable (∀ e ∈ extensions, t.isFile cwd (join d (name ++ e)) = false))

/-- The files that a name may be in within one directory. -/
def candidatesIn (d name : String) : List String := extensions.map fun e => join d (name ++ e)

lemma candidatesIn_eq (d name : String) :
    candidatesIn d name = [join d (name ++ ".dll"), join d (name ++ ".exe")] := rfl

lemma find?_eq_some_iff :
    (candidatesIn d name).find? (t.isFile cwd) = some file ↔ Supplies t cwd d name file := by
  rw [candidatesIn_eq]
  constructor
  · intro h
    cases hlibrary : t.isFile cwd (join d (name ++ ".dll")) with
    | true =>
      rw [List.find?_cons_of_pos hlibrary] at h
      cases h
      exact .library hlibrary
    | false =>
      rw [List.find?_cons_of_neg (by simp [hlibrary])] at h
      obtain rfl := List.mem_singleton.mp (List.mem_of_find?_eq_some h)
      exact .program hlibrary (List.find?_some h)
  · rintro (hlibrary | ⟨hlibrary, hprogram⟩)
    · rw [List.find?_cons_of_pos hlibrary]
    · rw [List.find?_cons_of_neg (by simp [hlibrary]), List.find?_cons_of_pos hprogram]

lemma find?_eq_none_iff :
    (candidatesIn d name).find? (t.isFile cwd) = none ↔ Lacks t cwd d name := by
  simp [candidatesIn, Lacks, List.find?_eq_none]

lemma resolve_eq_findSome? (r : Resolver) (t : FileTree) (cwd : List String) (name : String) :
    r.resolve t cwd name =
      r.directories.findSome? fun d => (candidatesIn d name).find? (t.isFile cwd) :=
  List.find?_flatMap

/-- A name resolves to what the first directory supplies that does not lack it. -/
lemma resolve_eq_some_iff : r.resolve t cwd name = some file ↔
    ∃ front d back, r.directories = front ++ d :: back ∧ (∀ d' ∈ front, Lacks t cwd d' name) ∧
      Supplies t cwd d name file := by
  rw [resolve_eq_findSome?, List.findSome?_eq_some_iff]
  simp only [find?_eq_some_iff, find?_eq_none_iff]
  constructor
  · rintro ⟨front, d, back, hdirs, hfile, hfront⟩
    exact ⟨front, d, back, hdirs, hfront, hfile⟩
  · rintro ⟨front, d, back, hdirs, hfront, hfile⟩
    exact ⟨front, d, back, hdirs, hfile, hfront⟩

lemma resolve_eq_none_iff :
    r.resolve t cwd name = none ↔ ∀ d ∈ r.directories, Lacks t cwd d name := by
  rw [resolve_eq_findSome?, List.findSome?_eq_none_iff]
  simp only [find?_eq_none_iff]

/-! ### More directories -/

/-- What has resolved does so in the same way if more directories are searched afterwards. -/
lemma resolve_of_isPrefix (h : r.directories <+: r'.directories)
    (hfile : r.resolve t cwd name = some file) : r'.resolve t cwd name = some file := by
  obtain ⟨front, d, back, hdirs, hfront, hsupplies⟩ := resolve_eq_some_iff.mp hfile
  obtain ⟨more, hmore⟩ := h
  refine resolve_eq_some_iff.mpr ⟨front, d, back ++ more, ?_, hfront, hsupplies⟩
  rw [← hmore, hdirs, List.append_assoc, List.cons_append]

/-- A name that is reported: it is not one of the framework's, and no directory has it. -/
def IsMissing (r : Resolver) (t : FileTree) (cwd : List String) (name : String) : Prop :=
  isFramework name = false ∧ ∀ d ∈ r.directories, Lacks t cwd d name

instance : Decidable (r.IsMissing t cwd name) :=
  inferInstanceAs (Decidable (_ ∧ ∀ d ∈ r.directories, Lacks t cwd d name))

lemma IsMissing.of_isPrefix (h : r.directories <+: r'.directories)
    (hmissing : r'.IsMissing t cwd name) : r.IsMissing t cwd name :=
  ⟨hmissing.1, fun d hd => hmissing.2 d (h.subset hd)⟩

lemma unresolved_eq (r : Resolver) (t : FileTree) (cwd names : List String) :
    r.unresolved t cwd names = names.filter fun name => r.IsMissing t cwd name := by
  refine List.filter_congr fun name _ => ?_
  rw [Bool.eq_iff_iff, decide_eq_true_iff, Bool.and_eq_true, Bool.not_eq_true',
    Option.isNone_iff_eq_none, resolve_eq_none_iff, IsMissing]

lemma mem_unresolved :
    name ∈ r.unresolved t cwd names ↔ name ∈ names ∧ r.IsMissing t cwd name := by
  rw [unresolved_eq, List.mem_filter, decide_eq_true_iff]

lemma unresolved_sublist (h : r.directories <+: r'.directories) :
    (r'.unresolved t cwd names).Sublist (r.unresolved t cwd names) := by
  rw [unresolved_eq, unresolved_eq]
  refine List.monotone_filter_right names fun name hname => ?_
  exact decide_eq_true (IsMissing.of_isPrefix h (of_decide_eq_true hname))

/-! ### Reports -/

lemma check_eq_error_iff : r.check t cwd names = .error missing ↔
    r.strict = true ∧ r.unresolved t cwd names ≠ [] ∧
      missing = ascending (r.unresolved t cwd names) := by
  unfold check
  by_cases hall : r.unresolved t cwd names = [] <;> cases hstrict : r.strict <;>
    simp [hall, eq_comm]

lemma check_eq_ok_iff : r.check t cwd names = .ok missing ↔
    (r.strict = true → r.unresolved t cwd names = []) ∧
      missing = r.unresolved t cwd names := by
  unfold check
  by_cases hall : r.unresolved t cwd names = [] <;> cases hstrict : r.strict <;>
    simp [hall, eq_comm]

/-- Names one after another in the order of texts, none of them twice. -/
def IsAscending (names : List String) : Prop := names.Pairwise fun a b => Text.precedes a b = true

lemma isAscending_eraseReps (h : names.Pairwise fun a b => Text.precedes b a = false) :
    IsAscending names.eraseReps := by
  cases names with
  | nil => exact .nil
  | cons first names =>
    induction names generalizing first with
    | nil =>
      rw [eraseReps_singleton]
      exact List.pairwise_singleton _ _
    | cons next names ih =>
      obtain ⟨hfirst, hrest⟩ := List.pairwise_cons.mp h
      rw [eraseReps_cons_cons]
      split_ifs with hsame
      · exact ih next hrest
      · refine List.pairwise_cons.mpr ⟨fun name hname => ?_, ih next hrest⟩
        rw [mem_eraseReps] at hname
        have hnext : Text.precedes first next = true :=
          Text.precedes_of_ne hsame (hfirst next (.head _))
        -- Were the first name to come again, it would have to come before the next one.
        refine Text.precedes_of_ne ?_ (hfirst name hname)
        rintro rfl
        rcases List.mem_cons.mp hname with rfl | hlater
        · exact hsame rfl
        · rw [(List.pairwise_cons.mp hrest).1 _ hlater] at hnext
          cases hnext

lemma isAscending_ascending (names : List String) : IsAscending (ascending names) :=
  isAscending_eraseReps (Text.pairwise_mergeSort id names)

/-- Names in ascending order are known by their members. -/
lemma IsAscending.eq (h : IsAscending names) (h' : IsAscending names')
    (hmem : ∀ name, name ∈ names ↔ name ∈ names') : names = names' := by
  have : Std.Irrefl fun a b : String => Text.precedes a b = true :=
    ⟨fun a => by simp [Text.not_precedes_self]⟩
  have : Std.Antisymm fun a b : String => Text.precedes a b = true :=
    ⟨fun a b hab hba => by simp [Text.not_precedes_of_precedes hab] at hba⟩
  exact List.Pairwise.eq_of_mem_iff h h' hmem

/-! ### All together -/

/-- What a resolver finds: the first file that a directory supplies, unless all lack it. -/
structure FindsFirst (r : Resolver) (t : FileTree) (cwd : List String) : Prop where
  found : ∀ name file, r.resolve t cwd name = some file ↔
    ∃ front d back, r.directories = front ++ d :: back ∧ (∀ d' ∈ front, Lacks t cwd d' name) ∧
      Supplies t cwd d name file
  notFound : ∀ name,
    r.resolve t cwd name = none ↔ ∀ d ∈ r.directories, Lacks t cwd d name

/-- A resolver finds what another one finds, so that it reports nothing else. -/
structure Improves (r' r : Resolver) (t : FileTree) (cwd : List String) : Prop where
  same : ∀ name file, r.resolve t cwd name = some file → r'.resolve t cwd name = some file
  fewer : ∀ names, (r'.unresolved t cwd names).Sublist (r.unresolved t cwd names)
  passes : ∀ names missing, r.check t cwd names = .ok missing →
    ∃ missing', r'.check t cwd names = .ok missing' ∧ missing'.Sublist missing

/-- How a resolver reports the names that are missing. -/
structure ReportsMissing (r : Resolver) (t : FileTree) (cwd : List String) : Prop where
  raises : ∀ names, (∃ missing, r.check t cwd names = .error missing) ↔
    r.strict = true ∧ ∃ name ∈ names, r.IsMissing t cwd name
  ascending : ∀ names missing, r.check t cwd names = .error missing → IsAscending missing
  members : ∀ names missing, r.check t cwd names = .error missing →
    ∀ name, name ∈ missing ↔ name ∈ names ∧ r.IsMissing t cwd name
  /-- The error does not depend on the order of the names or on how often each comes. -/
  unordered : ∀ names names', (∀ name, name ∈ names ↔ name ∈ names') →
    ∀ missing, r.check t cwd names = .error missing ↔ r.check t cwd names' = .error missing
  /-- Without an error, the order and the repetitions are those of the names. -/
  inOrder : ∀ names missing, r.check t cwd names = .ok missing →
    missing = names.filter fun name => r.IsMissing t cwd name

lemma improves_of_isPrefix (h : r.directories <+: r'.directories) (hstrict : r'.strict = r.strict)
    (t : FileTree) (cwd : List String) : r'.Improves r t cwd := by
  refine ⟨fun name file => resolve_of_isPrefix h, fun names => unresolved_sublist h,
    fun names missing hcheck => ?_⟩
  obtain ⟨hall, rfl⟩ := check_eq_ok_iff.mp hcheck
  refine ⟨_, check_eq_ok_iff.mpr ⟨fun hs => ?_, rfl⟩, unresolved_sublist h⟩
  have hfewer : (r'.unresolved t cwd names).Sublist [] :=
    hall (hstrict ▸ hs) ▸ unresolved_sublist h
  exact List.sublist_nil.mp hfewer

lemma unresolved_ne_nil_iff :
    r.unresolved t cwd names ≠ [] ↔ ∃ name ∈ names, r.IsMissing t cwd name := by
  rw [ne_eq, List.eq_nil_iff_forall_not_mem, not_forall_not]
  simp only [mem_unresolved]

/-- Names with the same members are reported by the same error. -/
lemma check_error_of_mem_iff (hmem : ∀ name, name ∈ names ↔ name ∈ names')
    (h : r.check t cwd names = .error missing) : r.check t cwd names' = .error missing := by
  obtain ⟨hstrict, hne, rfl⟩ := check_eq_error_iff.mp h
  rw [unresolved_ne_nil_iff] at hne
  simp only [hmem] at hne
  refine check_eq_error_iff.mpr ⟨hstrict, unresolved_ne_nil_iff.mpr hne, ?_⟩
  refine (isAscending_ascending _).eq (isAscending_ascending _) fun name => ?_
  rw [mem_ascending, mem_ascending, mem_unresolved, mem_unresolved, hmem]

lemma reportsMissing (r : Resolver) (t : FileTree) (cwd : List String) :
    r.ReportsMissing t cwd := by
  constructor
  case raises =>
    intro names
    simp only [check_eq_error_iff, unresolved_ne_nil_iff]
    constructor
    · rintro ⟨missing, hstrict, hmissing, -⟩
      exact ⟨hstrict, hmissing⟩
    · rintro ⟨hstrict, hmissing⟩
      exact ⟨_, hstrict, hmissing, rfl⟩
  case ascending =>
    intro names missing h
    obtain ⟨-, -, rfl⟩ := check_eq_error_iff.mp h
    exact isAscending_ascending _
  case members =>
    intro names missing h name
    obtain ⟨-, -, rfl⟩ := check_eq_error_iff.mp h
    rw [mem_ascending, mem_unresolved]
  case unordered =>
    intro names names' hmem missing
    exact ⟨check_error_of_mem_iff hmem, check_error_of_mem_iff fun name => (hmem name).symm⟩
  case inOrder =>
    intro names missing h
    rw [(check_eq_ok_iff.mp h).2, unresolved_eq]

/-- A resolver finds the first file for each name and reports what has none; whatever happens to
it afterwards, it finds the same files and perhaps more. -/
theorem findsFirst_and_reportsMissing (r : Resolver) (t : FileTree) (cwd : List String) :
    r.FindsFirst t cwd ∧ r.ReportsMissing t cwd ∧
      ∀ place acts, (Setup.run ⟨place, r⟩ acts).resolver.Improves r t cwd :=
  ⟨⟨fun _ _ => resolve_eq_some_iff, fun _ => resolve_eq_none_iff⟩, reportsMissing r t cwd,
    fun place acts =>
      improves_of_isPrefix (isPrefix_run ⟨place, r⟩ acts) (strict_run ⟨place, r⟩ acts) t cwd⟩

end SourceRecovery.Resolver
