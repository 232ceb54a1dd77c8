import Mathlib.Algebra.Order.BigOperators.Group.List
import Mathlib.Algebra.Order.Group.Nat
import Mathlib.Data.List.Nodup
import SourceRecovery.Files.Walk
import SourceRecovery.Proofs.Files.Absolute

/-!
# What a walk meets

A walk meets every name below a directory that leads to no directory, once, whether it leads to a
file or nowhere. A path to the directory is continued by the names that lead on from there.
-/

namespace SourceRecovery

open SourceRecovery.Path

lemma Path.isFileName_iff {name : String} :
    isFileName name = true ↔ IsName name ∧ IsPlain name := by
  have haccept : (accept name).isOk = true ↔ IsAdmissible name := by
    rw [← accept_eq_ok_iff]
    cases accept name <;> simp [Except.isOk, Except.toBool]
  simp only [isFileName, Bool.and_eq_true, decide_eq_true_eq, Bool.not_eq_true', haccept,
    List.contains_eq_mem, decide_eq_false_iff_not]
  constructor
  · rintro ⟨⟨⟨⟨hne, hdot⟩, hdots⟩, hslash⟩, he, hcut⟩
    exact ⟨⟨hne, hdot, hdots, hslash⟩, he, hcut, hne⟩
  · rintro ⟨hname, hplain⟩
    exact ⟨⟨⟨⟨hname.ne_empty, hname.ne_dot⟩, hname.ne_dots⟩, hname.no_slash⟩, hplain.isAdmissible⟩

/-- A list has no repetitions once they are taken out. -/
lemma nodup_eraseDups {α : Type} [DecidableEq α] (as : List α) : as.eraseDups.Nodup := by
  induction hn : as.length using Nat.strongRecOn generalizing as with
  | _ n ih =>
    cases as with
    | nil => simp
    | cons a as =>
      rw [List.eraseDups_cons, List.nodup_cons]
      refine ⟨by simp [List.mem_eraseDups], ih _ ?_ _ rfl⟩
      rw [← hn]
      exact Nat.lt_succ_of_le (List.length_filter_le _ _)

namespace FileTree

variable {t : FileTree} {links : List (List String)} {place cs dirs q : List String}
  {base name p : String} {cwd : List String} {n : ℕ}

/-! ### Listing a directory -/

lemma mem_listed (hq : q ≠ []) :
    q ∈ t.listed links ↔ (t.get? q).isSome = true ∨ q ∈ links := by
  obtain ⟨c, r, rfl⟩ := List.exists_cons_of_ne_nil hq
  simp only [listed, List.mem_append, List.mem_map, get?, List.lookup_isSome_iff, beq_iff_eq]
  exact or_congr_left (exists_congr fun _ => and_congr_right fun _ => eq_comm)

lemma mem_names :
    name ∈ t.names links place ↔ isFileName name = true ∧ place ++ [name] ∈ t.listed links := by
  simp only [names, List.mem_eraseDups, List.mem_filterMap, Option.filter_eq_some_iff,
    Bool.and_eq_true, decide_eq_true_eq]
  constructor
  · rintro ⟨q, hq, hlast, rfl, hname⟩
    rw [List.dropLast_append_getLast? name hlast]
    exact ⟨hname, hq⟩
  · rintro ⟨hname, hq⟩
    exact ⟨_, hq, List.getLast?_concat, List.dropLast_concat, hname⟩

/-! ### Walking on -/

/-- From a place, names lead on through directories up to a last one. -/
structure Leads (t : FileTree) (place dirs : List String) (base : String) : Prop where
  named : ∀ c ∈ dirs ++ [base], isFileName c = true
  through : ∀ front, front <+: dirs → t.get? (place ++ front) = some .directory

lemma leads_nil :
    t.Leads place [] base ↔ isFileName base = true ∧ t.get? place = some .directory := by
  constructor
  · rintro ⟨hnamed, hthrough⟩
    exact ⟨hnamed base (by simp), by simpa using hthrough [] List.nil_prefix⟩
  · rintro ⟨hbase, hplace⟩
    refine ⟨by simpa using hbase, fun front hfront => ?_⟩
    obtain rfl := List.prefix_nil.mp hfront
    simpa using hplace

lemma leads_cons : t.Leads place (name :: dirs) base ↔
    isFileName name = true ∧ t.get? place = some .directory ∧
      t.Leads (place ++ [name]) dirs base := by
  constructor
  · rintro ⟨hnamed, hthrough⟩
    obtain ⟨hname, hnamed⟩ := List.forall_mem_cons.mp hnamed
    refine ⟨hname, by simpa using hthrough [] List.nil_prefix, hnamed, fun front hfront => ?_⟩
    simpa using hthrough (name :: front) (List.cons_prefix_cons.mpr ⟨rfl, hfront⟩)
  · rintro ⟨hname, hplace, hnamed, hthrough⟩
    refine ⟨List.forall_mem_cons.mpr ⟨hname, hnamed⟩, fun front hfront => ?_⟩
    cases front with
    | nil => simpa using hplace
    | cons c front =>
      obtain ⟨rfl, -⟩ := List.cons_prefix_cons.mp hfront
      simpa using hthrough front (List.cons_prefix_cons.mp hfront).2

/-- The names that lead on start at a directory. -/
lemma Leads.directory (h : t.Leads place dirs base) : t.get? place = some .directory := by
  simpa using h.through [] List.nil_prefix

/-- Trees with the same directories are led through in the same way. -/
lemma leads_congr {t' : FileTree}
    (h : ∀ q, t'.get? q = some .directory ↔ t.get? q = some .directory) :
    t'.Leads place dirs base ↔ t.Leads place dirs base :=
  ⟨fun hl => ⟨hl.named, fun front hfront => (h _).mp (hl.through front hfront)⟩,
    fun hl => ⟨hl.named, fun front hfront => (h _).mpr (hl.through front hfront)⟩⟩

/-- One more step of a walk. -/
lemma mem_walk_succ : cs ∈ t.walk links (n + 1) place ↔ ∃ name ∈ t.names links place,
    t.get? (place ++ [name]) = some .directory ∧
        (∃ rest ∈ t.walk links n (place ++ [name]), cs = name :: rest) ∨
      t.get? (place ++ [name]) ≠ some .directory ∧ cs = [name] := by
  simp only [walk, List.mem_flatMap]
  refine exists_congr fun name => and_congr_right fun _ => ?_
  by_cases hdir : t.get? (place ++ [name]) = some .directory
  · simp [hdir, eq_comm]
  · simp [hdir]

/-- From a directory, a walk meets what names lead to that is no directory and is listed. -/
lemma mem_walk (hplace : t.get? place = some .directory) : cs ∈ t.walk links n place ↔
    cs.length ≤ n ∧ ∃ dirs base, cs = dirs ++ [base] ∧ t.Leads place dirs base ∧
      t.get? (place ++ cs) ≠ some .directory ∧ place ++ cs ∈ t.listed links := by
  induction n generalizing place cs with
  | zero =>
    simp only [walk, List.not_mem_nil, Nat.le_zero, List.length_eq_zero_iff, false_iff, not_and]
    rintro rfl ⟨dirs, base, h, -⟩
    simp at h
  | succ n ih =>
    rw [mem_walk_succ]
    constructor
    · rintro ⟨name, hname, ⟨hdir, rest, hrest, rfl⟩ | ⟨hdir, rfl⟩⟩
      · obtain ⟨hlength, dirs, base, rfl, hleads, hnot, hlisted⟩ := (ih hdir).mp hrest
        refine ⟨Nat.succ_le_succ hlength, name :: dirs, base, rfl,
          leads_cons.mpr ⟨(mem_names.mp hname).1, hplace, hleads⟩, ?_, ?_⟩
        · simpa using hnot
        · simpa using hlisted
      · obtain ⟨hfile, hlisted⟩ := mem_names.mp hname
        exact ⟨by simp, [], name, rfl, leads_nil.mpr ⟨hfile, hplace⟩, hdir, hlisted⟩
    · rintro ⟨hlength, dirs, base, rfl, hleads, hnot, hlisted⟩
      cases dirs with
      | nil =>
        exact ⟨base, mem_names.mpr ⟨(leads_nil.mp hleads).1, hlisted⟩, .inr ⟨hnot, rfl⟩⟩
      | cons name dirs =>
        obtain ⟨hfile, -, hrest⟩ := leads_cons.mp hleads
        have hdir := hrest.directory
        refine ⟨name, mem_names.mpr ⟨hfile, (mem_listed (by simp)).mpr (.inl (by simp [hdir]))⟩,
          .inl ⟨hdir, dirs ++ [base], (ih hdir).mpr ⟨?_, dirs, base, rfl, hrest, ?_, ?_⟩, rfl⟩⟩
        · simpa using hlength
        · simpa using hnot
        · simpa using hlisted

lemma length_le_depth (h : place ++ cs ∈ t.listed links) : cs.length ≤ t.depth links := by
  have hle := List.le_sum_of_mem (List.mem_map_of_mem (f := List.length) h)
  rw [List.length_append] at hle
  exact le_trans (Nat.le_add_left _ _) hle

/-- A walk that is long enough meets all names below a directory that lead to a file or nowhere. -/
lemma mem_walk_depth (hplace : t.get? place = some .directory) :
    cs ∈ t.walk links (t.depth links) place ↔ ∃ dirs base, cs = dirs ++ [base] ∧
      t.Leads place dirs base ∧ ((∃ f, t.get? (place ++ cs) = some (.file f)) ∨
        t.get? (place ++ cs) = none ∧ place ++ cs ∈ links) := by
  rw [mem_walk hplace]
  constructor
  · rintro ⟨-, dirs, base, rfl, hleads, hnot, hlisted⟩
    refine ⟨dirs, base, rfl, hleads, ?_⟩
    cases hnode : t.get? (place ++ (dirs ++ [base])) with
    | none => exact .inr ⟨rfl, ((mem_listed (by simp)).mp hlisted).resolve_left (by simp [hnode])⟩
    | some node =>
      cases node with
      | file f => exact .inl ⟨f, rfl⟩
      | directory => exact absurd hnode hnot
  · rintro ⟨dirs, base, rfl, hleads, hcases⟩
    have hlisted : place ++ (dirs ++ [base]) ∈ t.listed links := by
      rw [mem_listed (by simp)]
      rcases hcases with ⟨f, hf⟩ | ⟨-, hlink⟩
      · exact .inl (by simp [hf])
      · exact .inr hlink
    refine ⟨length_le_depth hlisted, dirs, base, rfl, hleads, ?_, hlisted⟩
    rcases hcases with ⟨f, hf⟩ | ⟨hnone, -⟩
    · simp [hf]
    · simp [hnone]

lemma head?_of_mem_walk_step {node : Option Node} {rest : List (List String)}
    (h : cs ∈ match node with
      | some .directory => rest.map (name :: ·)
      | _ => [[name]]) : cs.head? = some name := by
  split at h
  · obtain ⟨r, -, rfl⟩ := List.mem_map.mp h
    rfl
  · rw [List.mem_singleton.mp h]
    rfl

/-- A walk meets nothing twice. -/
lemma nodup_walk : (t.walk links n place).Nodup := by
  induction n generalizing place with
  | zero => exact .nil
  | succ n ih =>
    refine List.nodup_flatMap.mpr ⟨fun name _ => ?_, (nodup_eraseDups _).imp fun {c d} hne => ?_⟩
    · split
      · exact ih.map List.cons_injective
      · exact List.nodup_singleton _
    · intro cs hc hd
      have hheads := (head?_of_mem_walk_step hc).symm.trans (head?_of_mem_walk_step hd)
      exact hne (Option.some.inj hheads)

/-! ### Continuing a path -/

/-- Below a directory, a name leads to what has that name there. -/
lemma find_join (hd : t.isDirectory cwd p = true) (h : isFileName name = true) :
    t.find cwd (join p name) =
      (t.get? (destination cwd p ++ [name])).elim (.error .notFound) .ok := by
  obtain ⟨hname, hplain⟩ := isFileName_iff.mp h
  obtain ⟨hp, hdirs⟩ := isDirectory_iff.mp hd
  obtain ⟨s, hs⟩ : ∃ s, t.locate cwd (join p name) = .ok s := by
    refine exists_locate (hp.join hplain) fun q hq => hdirs q ?_
    rwa [places_join hname, List.dropLast_concat] at hq
  obtain ⟨-, -, -, hnode, hslash⟩ := locate_eq_ok hs
  rw [endsInSlash_of_name (by rw [name_join hname]; exact hname.ne_empty)] at hslash
  rw [destination_join hname] at hnode
  simp only [find, hs, hnode, hslash, bind, Except.bind]
  cases t.get? (destination cwd p ++ [name]) with
  | none => rfl
  | some node => cases node <;> rfl

lemma isDirectory_join (hd : t.isDirectory cwd p = true) (h : isFileName name = true)
    (hnode : t.get? (destination cwd p ++ [name]) = some .directory) :
    t.isDirectory cwd (join p name) = true := by
  simp only [isDirectory, find_join hd h, hnode, Option.elim_some]

/-- The first of several names can be joined to a path in front of the others. -/
lemma join_intercalate (h : IsName name) (hcs : ∀ c ∈ cs, IsName c) (hne : cs ≠ []) :
    join p ("/".intercalate (name :: cs)) = join (join p name) ("/".intercalate cs) := by
  obtain ⟨c, rest, rfl⟩ := List.exists_cons_of_ne_nil hne
  have hname : Path.name (join p name) = name := name_join h
  have hslash : endsInSlash (join p name) = false :=
    endsInSlash_of_name (by rw [hname]; exact h.ne_empty)
  have hsome : (join p name).isEmpty = false := by
    rw [Bool.eq_false_iff]
    intro hempty
    rw [String.isEmpty_iff.mp hempty] at hname
    exact h.ne_empty hname.symm
  have hright : join (join p name) ("/".intercalate (c :: rest)) =
      join p name ++ "/" ++ "/".intercalate (c :: rest) := by
    rw [join.eq_def (join p name), isAbsolute_intercalate hcs, hslash, hsome]
    rfl
  have hleft := isAbsolute_intercalate (List.forall_mem_cons.mpr ⟨h, hcs⟩)
  rw [hright, join, hleft, join, isAbsolute_of_no_slash h.no_slash, String.intercalate_cons_cons]
  split_ifs <;> simp only [String.append_assoc]

/-- Below a directory, a path of names leads to what the names lead to there. -/
lemma find_join_intercalate (hd : t.isDirectory cwd p = true)
    (h : t.Leads (destination cwd p) dirs base) :
    t.find cwd (join p ("/".intercalate (dirs ++ [base]))) =
      (t.get? (destination cwd p ++ (dirs ++ [base]))).elim (.error .notFound) .ok := by
  induction dirs generalizing p with
  | nil =>
    rw [List.nil_append, String.intercalate_singleton]
    exact find_join hd (leads_nil.mp h).1
  | cons name dirs ih =>
    obtain ⟨hfile, -, hrest⟩ := leads_cons.mp h
    have hname := (isFileName_iff.mp hfile).1
    have hplace : destination cwd (join p name) = destination cwd p ++ [name] :=
      destination_join hname
    have hnames : ∀ c ∈ dirs ++ [base], IsName c :=
      fun c hc => (isFileName_iff.mp (hrest.named c hc)).1
    have hstep := ih (isDirectory_join hd hfile hrest.directory) (hplace ▸ hrest)
    rw [List.cons_append, join_intercalate hname hnames (by simp), hstep, hplace]
    simp

end FileTree

end SourceRecovery
