import SourceRecovery.Proofs.Sources

/-!
# Discovering source files

The paths that are found are those of the source files below the directory that a path leads to, at
any depth, and those of links there that lead nowhere. Each is told once in the order of texts, and
each that leads to a file is told with its moment. A path that leads to no directory gives none, and
only a path that the system cannot be given stops the search.
-/

namespace SourceRecovery.Sources

open SourceRecovery.Path

variable {t : FileTree} {links : List (List String)} {cwd place : List String} {p q : String}
  {w : World}

/-- A path that is found leads to something if it names a file. -/
lemma pathExists_of_mem_below (hd : t.isDirectory cwd p = true)
    (hq : q ∈ below t links (destination cwd p)) :
    (stamped? t cwd p q).map Prod.fst = Option.guard (t.pathExists cwd <| join p ·) q := by
  rcases (mem_below (FileTree.get?_destination hd)).mp hq with ⟨f, hf⟩ | hlink
  · simp [hf.stamped?_eq hd, FileTree.pathExists, hf.find_eq hd, Option.guard]
  · simp [hlink.stamped?_eq hd, FileTree.pathExists, hlink.find_eq hd, Option.guard]

/-- Of the paths that are found, those have a moment that lead to something. -/
lemma map_survey (links : List (List String)) (hd : t.isDirectory cwd p = true) :
    (survey t cwd p).map Prod.fst =
      (below t links (destination cwd p)).filter (t.pathExists cwd <| join p ·) := by
  rw [survey_eq links hd, List.map_filterMap, ← List.filterMap_eq_filter]
  exact List.filterMap_congr fun q hq => pathExists_of_mem_below hd hq

/-- Paths, and the moments told of some of them, are a discovery of the source files from a path:
the paths are those of files and of links that lead nowhere, and the links have no moment. -/
structure IsDiscovery (w : World) (p : String) (paths : List String)
    (found : List (String × Int)) : Prop where
  ascending : paths.Pairwise fun a b => Text.precedes a b = true
  mem_iff : ∀ q, q ∈ paths ↔ w.tree.isDirectory w.directory p = true ∧
    ((∃ f, NamesSource w.tree (destination w.directory p) q f) ∨
      NamesLink w.tree w.links (destination w.directory p) q)
  keys : found.map Prod.fst = paths.filter (w.tree.pathExists w.directory <| join p ·)
  keys_of_no_link : (∀ q ∈ paths, ¬NamesLink w.tree w.links (destination w.directory p) q) →
    found.map Prod.fst = paths
  lookup_iff : ∀ q m, found.lookup q = some m ↔
    q ∈ paths ∧ ∃ f, NamesSource w.tree (destination w.directory p) q f ∧ m = f.modified
  missing : w.tree.isDirectory w.directory p = false → paths = [] ∧ found = []

lemma isDiscovery_survey (w : World) (p : String) : IsDiscovery w p
    (if w.tree.isDirectory w.directory p then below w.tree w.links (destination w.directory p)
      else []) (survey w.tree w.directory p) := by
  by_cases hd : w.tree.isDirectory w.directory p = true
  · have hplace := FileTree.get?_destination hd
    rw [if_pos hd]
    refine ⟨pairwise_below hplace, fun q => ?_, map_survey _ hd, fun hlinks => ?_, fun q m => ?_,
      fun hmissing => absurd hd (by simp [hmissing])⟩
    · rw [mem_below hplace, and_iff_right hd]
    · rw [map_survey w.links hd, List.filter_eq_self]
      intro q hq
      obtain ⟨f, hf⟩ := ((mem_below hplace).mp hq).resolve_right (hlinks q hq)
      simp [FileTree.pathExists, hf.find_eq hd]
    · rw [(isOrdered_survey _ _ _).lookup_eq_some_iff, mem_survey, and_iff_right hd]
      exact (and_iff_right_of_imp fun ⟨f, hf, _⟩ => (mem_below hplace).mpr (.inl ⟨f, hf⟩)).symm
  · simp only [survey, if_neg hd]
    exact ⟨.nil, by simp [hd], rfl, fun _ => rfl, by simp, fun _ => ⟨rfl, rfl⟩⟩

/-- Searching for source files from a path that the system can be given discovers exactly those
below the directory that it leads to, sorted, with the moments at which they were written. A path
that the system cannot be given stops the search. -/
theorem discovers_sources (w : World) (p : String) :
    (IsAdmissible p → ∃ paths found, (find p).run w = .ok paths w ∧
      (snapshot p).run w = .ok found w ∧ IsDiscovery w p paths found) ∧
    (¬ IsAdmissible p → ∃ e, (find p).run w = .error e w ∧ (snapshot p).run w = .error e w) :=
  ⟨fun hp => ⟨_, _, run_find hp w, run_snapshot hp w, isDiscovery_survey w p⟩,
    fun hp => exists_snapshot_error hp w⟩

/-- A directory with a source file in it and one below, whose paths are not in the order in which
the tree is walked, and a directory that is named like a source file. -/
def interleaved : World :=
  .sample [(["a"], .directory), (["a", "b.cs"], .file ⟨[], false, 7⟩),
    (["a.cs"], .file ⟨[], false, 5⟩), (["c.cs"], .directory)] []

theorem discovers_sources_sample : IsAdmissible "." ∧ ∃ paths found,
    (find ".").run interleaved = .ok paths interleaved ∧
    (snapshot ".").run interleaved = .ok found interleaved ∧
    paths.Pairwise (fun a b => Text.precedes a b = true) ∧
    "a.cs" ∈ paths ∧ found.lookup "a/b.cs" = some 7 ∧
    ∃ e, (find "a\x00b").run interleaved = .error e interleaved := by
  have hdot : IsAdmissible "." := ⟨by decide, by decide⟩
  obtain ⟨paths, found, hfind, hsnapshot, h⟩ := (discovers_sources interleaved ".").1 hdot
  have hdir : interleaved.tree.isDirectory interleaved.directory "." = true := by decide
  have hroot : interleaved.tree.get? ["w"] = some .directory := by decide
  have hfirst : NamesSource interleaved.tree (destination interleaved.directory ".") "a.cs"
      ⟨[], false, 5⟩ :=
    ⟨[], "a.cs", ⟨FileTree.leads_nil.mpr ⟨by decide, hroot⟩, by decide, by decide⟩, by decide⟩
  have hsecond : NamesSource interleaved.tree (destination interleaved.directory ".") "a/b.cs"
      ⟨[], false, 7⟩ :=
    ⟨["a"], "b.cs", ⟨FileTree.leads_cons.mpr ⟨by decide, hroot,
      FileTree.leads_nil.mpr ⟨by decide, by decide⟩⟩, by decide, by decide⟩, by decide⟩
  obtain ⟨e, he, -⟩ := (discovers_sources interleaved "a\x00b").2 fun hp => hp.uncut (by decide)
  refine ⟨hdot, paths, found, hfind, hsnapshot, h.ascending, ?_, ?_, e, he⟩
  · exact (h.mem_iff _).mpr ⟨hdir, .inl ⟨_, hfirst⟩⟩
  · exact (h.lookup_iff _ _).mpr ⟨(h.mem_iff _).mpr ⟨hdir, .inl ⟨_, hsecond⟩⟩, _, hsecond, rfl⟩

/-- A directory with a link in it that leads nowhere. -/
def linked : World := { World.sample [] [] with links := [["w", "x.cs"]] }

/-- A path that no file can have leads to no directory, and does not give an empty list either. A
link that leads nowhere is found, and has no moment. -/
theorem find_cut_path_sample :
    (interleaved.tree.isDirectory interleaved.directory "a\x00b" = false ∧
      (find "a\x00b").result? interleaved ≠ some [] ∧
      (snapshot "a\x00b").result? interleaved ≠ some []) ∧
    (find ".").result? linked = some ["x.cs"] ∧ (snapshot ".").result? linked = some [] := by
  refine ⟨⟨by decide, ?_, ?_⟩, by decide +kernel, by decide +kernel⟩
  all_goals exact Option.some_ne_none _ |>.symm

end SourceRecovery.Sources
