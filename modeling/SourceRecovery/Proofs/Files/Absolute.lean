import SourceRecovery.Proofs.Files.Operations

/-!
# Absolute paths

The absolute form of a path leads to the same place, whatever it is seen from, and passes through
the directories that hold this place only. So it can be followed wherever the path itself can, as
long as the working directory is where it is said to be.
-/

namespace SourceRecovery

namespace Path

variable {p c : String} {cwd base cs r : List String}

/-! ### Components -/

/-- Names with slashes between them are the components of what they make up. -/
lemma components_intercalate (h : ∀ c ∈ cs, c ≠ "" ∧ '/' ∉ c.toList) :
    components ("/".intercalate cs) = cs := by
  induction cs with
  | nil => simp
  | cons c cs ih =>
    obtain ⟨hne, hslash⟩ := h c (.head _)
    cases cs with
    | nil => rw [String.intercalate_singleton, components_name hslash hne]
    | cons d ds =>
      rw [String.intercalate_cons_cons, components_append_slash, components_name hslash hne,
        ih fun c hc => h c (.tail _ hc)]
      rfl

lemma mem_intercalate {ch : Char} (h : ch ∈ ("/".intercalate cs).toList) :
    ch = '/' ∨ ∃ c ∈ cs, ch ∈ c.toList := by
  induction cs with
  | nil => simp at h
  | cons c cs ih =>
    cases cs with
    | nil => exact .inr ⟨c, .head _, by simpa using h⟩
    | cons d ds =>
      rw [String.intercalate_cons_cons, String.toList_append, String.toList_append,
        List.mem_append, List.mem_append] at h
      rcases h with (h | h) | h
      · exact .inr ⟨c, .head _, h⟩
      · exact .inl (by simpa using h)
      · exact (ih h).imp_right fun ⟨c', hc', hch⟩ => ⟨c', .tail _ hc', hch⟩

/-- A component is a part of the path without a slash. -/
lemma mem_components (h : c ∈ components p) : c ≠ "" ∧ '/' ∉ c.toList ∧ c.toList ⊆ p.toList := by
  induction hn : p.length using Nat.strongRecOn generalizing p with
  | _ n ih =>
    by_cases hname : (Files.lastStep p).2 = ""
    · simp [Files.components_eq_nil_of_lastStep hname] at h
    · rw [Files.components_eq_lastStep hname, List.mem_append, List.mem_singleton] at h
      rcases h with h | rfl
      · obtain ⟨hne, hslash, hsub⟩ := ih _ (hn ▸ Files.length_lastStep_lt hname) h rfl
        exact ⟨hne, hslash, List.Subset.trans hsub (Files.lastStep_isPrefix p).subset⟩
      · exact ⟨hname, Files.slash_notMem_lastStep p, Files.lastStep_subset p⟩

/-- What is left of components are the base's and those that are names. -/
lemma mem_settle (h : c ∈ settle base cs) : c ∈ base ∨ c ∈ cs ∧ c ≠ "." ∧ c ≠ ".." := by
  induction cs generalizing base with
  | nil => exact .inl h
  | cons d cs ih =>
    rcases ih h with hbase | ⟨hc, hnames⟩
    · unfold step at hbase
      split_ifs at hbase with hdot hdots
      · exact .inl hbase
      · exact .inl (List.dropLast_subset _ hbase)
      · rcases List.mem_append.mp hbase with hbase | hd
        · exact .inl hbase
        · rw [List.mem_singleton.mp hd]
          exact .inr ⟨.head _, hdot, hdots⟩
    · exact .inr ⟨.tail _ hc, hnames⟩

/-- What is in front of where components settle is in front of the base, or passed through. -/
lemma mem_scanl_of_isPrefix (h : r <+: settle base cs) : r <+: base ∨ r ∈ cs.scanl step base := by
  induction cs generalizing base with
  | nil => exact .inl h
  | cons d cs ih =>
    rw [List.scanl_cons, List.mem_cons]
    rcases ih h with hbase | hr
    · unfold step at hbase
      split_ifs at hbase with hdot hdots
      · exact .inl hbase
      · exact .inl (hbase.trans (List.dropLast_prefix _))
      · rcases List.prefix_concat_iff.mp hbase with rfl | hbase
        · refine .inr (.inr ?_)
          have hstep : step base d = base ++ [d] := by simp [step, hdot, hdots]
          rw [← hstep]
          cases cs <;> simp
        · exact .inl hbase
    · exact .inr (.inr hr)

/-- Names are settled one below the other. -/
lemma isPrefix_of_mem_scanl (h : ∀ c ∈ cs, IsName c) (hr : r ∈ cs.scanl step base) :
    r <+: base ++ cs := by
  induction cs generalizing base with
  | nil =>
    rw [List.mem_singleton.mp hr]
    exact List.prefix_append _ _
  | cons c cs ih =>
    rw [List.scanl_cons, List.mem_cons, (h c (.head _)).step] at hr
    rcases hr with rfl | hr
    · exact List.prefix_append _ _
    · simpa using ih (fun c hc => h c (.tail _ hc)) hr

lemma settle_names (h : ∀ c ∈ cs, IsName c) : settle base cs = base ++ cs := by
  induction cs generalizing base with
  | nil => simp [settle]
  | cons c cs ih =>
    rw [settle, List.foldl_cons, (h c (.head _)).step]
    have hrest : settle (base ++ [c]) cs = base ++ [c] ++ cs := ih fun c hc => h c (.tail _ hc)
    simpa [settle] using hrest

/-! ### Absolute forms -/

/-- From a working directory of names, a path leads to a place of names. -/
lemma isName_of_mem_destination (hcwd : ∀ c ∈ cwd, IsName c) (hc : c ∈ destination cwd p) :
    IsName c := by
  rcases mem_settle hc with hbase | ⟨hmem, hdot, hdots⟩
  · unfold origin at hbase
    split_ifs at hbase
    · simp at hbase
    · exact hcwd c hbase
  · obtain ⟨hne, hslash, -⟩ := mem_components hmem
    exact ⟨hne, hdot, hdots, hslash⟩

/-- The slashes in front of the absolute form of a path. -/
def root (p : String) : String := if isAbsolute p then leadingSlashes p else "/"

lemma root_mem (p : String) : root p ∈ ["/", "//"] := by
  have hslashes : leadingSlashes p = "/" ∨ leadingSlashes p = "//" := by
    unfold leadingSlashes
    split <;> simp
  unfold root
  split_ifs
  · simpa using hslashes
  · simp

lemma absolute_eq_root (cwd : List String) (p : String) :
    absolute cwd p = root p ++ "/".intercalate (destination cwd p) := by
  unfold absolute root
  split_ifs with ha
  · simp only [normal, ha, if_true, destination, origin]
  · simp [ofComponents, destination, origin, ha]

lemma absolute_eq (cwd : List String) (p : String) : ∃ slashes ∈ ["/", "//"],
    absolute cwd p = slashes ++ "/".intercalate (destination cwd p) :=
  ⟨root p, root_mem p, absolute_eq_root cwd p⟩

lemma isAbsolute_absolute (cwd : List String) (p : String) :
    isAbsolute (absolute cwd p) = true := by
  obtain ⟨slashes, hs, heq⟩ := absolute_eq cwd p
  rw [heq]
  simp only [List.mem_cons, List.not_mem_nil, or_false] at hs
  rcases hs with rfl | rfl <;> simp [isAbsolute]

/-- Slashes in front add no component. -/
lemma components_slashes_append {slashes : String} (hs : slashes ∈ ["/", "//"]) (x : String) :
    components (slashes ++ x) = components x := by
  have hroot (y : String) : components ("/" ++ y) = components y := by
    simpa using components_append_slash "" y
  simp only [List.mem_cons, List.not_mem_nil, or_false] at hs
  rcases hs with rfl | rfl
  · exact hroot x
  · rw [show "//" = "/" ++ "/" from rfl, String.append_assoc, hroot, hroot]

/-- The components of the absolute form of a path are the place that the path leads to. -/
lemma components_absolute (hcwd : ∀ c ∈ cwd, IsName c) (p : String) :
    components (absolute cwd p) = destination cwd p := by
  rw [absolute_eq_root, components_slashes_append (root_mem p)]
  refine components_intercalate fun c hc => ?_
  have hname := isName_of_mem_destination hcwd hc
  exact ⟨hname.ne_empty, hname.no_slash⟩

lemma origin_absolute (cwd : List String) (p : String) (from_ : List String) :
    origin from_ (absolute cwd p) = [] := by
  simp [origin, isAbsolute_absolute]

/-- The absolute form of a path leads to the same place, whatever it is seen from. -/
lemma destination_absolute (hcwd : ∀ c ∈ cwd, IsName c) (p : String) (from_ : List String) :
    destination from_ (absolute cwd p) = destination cwd p := by
  rw [destination, origin_absolute, components_absolute hcwd,
    settle_names fun c hc => isName_of_mem_destination hcwd hc, List.nil_append]

/-- Names with slashes between them do not start with one. -/
lemma isAbsolute_intercalate (h : ∀ c ∈ cs, IsName c) :
    isAbsolute ("/".intercalate cs) = false := by
  cases cs with
  | nil => rfl
  | cons c cs =>
    have hc := h c (.head _)
    have hrest : ∃ rest, ("/".intercalate (c :: cs)).toList = c.toList ++ rest := by
      cases cs with
      | nil => exact ⟨[], by simp⟩
      | cons d ds => exact ⟨_, by rw [String.intercalate_cons_cons, String.append_assoc,
          String.toList_append]⟩
    obtain ⟨rest, hrest⟩ := hrest
    have hne : c.toList ≠ [] := by simpa using hc.ne_empty
    obtain ⟨first, more, hchars⟩ := List.exists_cons_of_ne_nil hne
    have hfirst : first ≠ '/' := by
      rintro rfl
      exact hc.no_slash (by simp [hchars])
    simp [isAbsolute, hrest, hchars, hfirst]

/-- Slashes in front of what does not start with one are all that lead. -/
lemma root_append {slashes x : String} (hs : slashes ∈ ["/", "//"]) (hx : isAbsolute x = false) :
    root (slashes ++ x) = slashes := by
  simp only [List.mem_cons, List.not_mem_nil, or_false] at hs
  cases hchars : x.toList with
  | nil =>
    obtain rfl : x = "" := by simpa using hchars
    rcases hs with rfl | rfl <;> rfl
  | cons c cs =>
    have hc : c ≠ '/' := by simpa [isAbsolute, hchars] using hx
    rcases hs with rfl | rfl <;> simp [root, isAbsolute, leadingSlashes, hchars, hc]

lemma root_absolute (hcwd : ∀ c ∈ cwd, IsName c) (p : String) :
    root (absolute cwd p) = root p := by
  rw [absolute_eq_root]
  exact root_append (root_mem p)
    (isAbsolute_intercalate fun c hc => isName_of_mem_destination hcwd hc)

/-- An absolute form is its own absolute form, whatever it is seen from. -/
lemma absolute_absolute (hcwd : ∀ c ∈ cwd, IsName c) (p : String) (from_ : List String) :
    absolute from_ (absolute cwd p) = absolute cwd p := by
  rw [absolute_eq_root from_, root_absolute hcwd, destination_absolute hcwd, ← absolute_eq_root]

/-- Paths have the same absolute form if they lead to the same place after the same slashes. -/
lemma absolute_eq_absolute_iff {q : String} {cwd' : List String} (hcwd : ∀ c ∈ cwd, IsName c)
    (hcwd' : ∀ c ∈ cwd', IsName c) : absolute cwd p = absolute cwd' q ↔
      root p = root q ∧ destination cwd p = destination cwd' q := by
  constructor
  · intro h
    constructor
    · rw [← root_absolute hcwd p, h, root_absolute hcwd']
    · rw [← components_absolute hcwd p, h, components_absolute hcwd']
  · rintro ⟨hroot, hplace⟩
    rw [absolute_eq_root, absolute_eq_root, hroot, hplace]

example : ∀ p ∈ ["lib", "lib/", "./lib//.", "lib/x/..", "/srv/lib", "///srv/../srv/lib"],
    absolute ["srv"] p = "/srv/lib" := by
  decide

/-- What a path is joined to comes first, after a single slash if it is a working directory. -/
lemma exists_join_ofComponents (hcwd : ∀ c ∈ cwd, IsName c) (hp : isAbsolute p = false) :
    ∃ rest, join (ofComponents cwd) p = "/" ++ rest ∧ isAbsolute rest = false := by
  have hfront := isAbsolute_intercalate hcwd
  by_cases hempty : "/".intercalate cwd = ""
  · refine ⟨p, ?_, hp⟩
    rw [ofComponents, hempty]
    simp [join, hp, endsInSlash]
  · -- A name is there to start with, so that whatever follows does not matter.
    have hlonger (rest : String) : isAbsolute ("/".intercalate cwd ++ rest) = false := by
      have hne : ("/".intercalate cwd).toList ≠ [] := fun h => hempty (by rwa [← String.toList_inj])
      obtain ⟨c, cs, hchars⟩ := List.exists_cons_of_ne_nil hne
      simpa only [isAbsolute, String.toList_append, hchars, List.cons_append, List.head?_cons]
        using hfront
    have hjoin : join (ofComponents cwd) p = "/" ++ ("/".intercalate cwd ++ p) ∨
        join (ofComponents cwd) p = "/" ++ ("/".intercalate cwd ++ ("/" ++ p)) := by
      rw [join, hp, ofComponents, if_neg (by simp)]
      by_cases hslash : (("/" ++ "/".intercalate cwd).isEmpty ||
          endsInSlash ("/" ++ "/".intercalate cwd)) = true
      · exact .inl (by rw [if_pos hslash, String.append_assoc])
      · exact .inr (by rw [if_neg hslash, String.append_assoc, String.append_assoc])
    rcases hjoin with hjoin | hjoin
    · exact ⟨_, hjoin, hlonger p⟩
    · exact ⟨_, hjoin, hlonger _⟩

/-- The absolute form of a path is the normal form of the path joined to the working directory. -/
lemma absolute_eq_normal (hcwd : ∀ c ∈ cwd, IsName c) (p : String) :
    absolute cwd p = normal (join (ofComponents cwd) p) := by
  cases hp : isAbsolute p with
  | true => simp [absolute, join, hp]
  | false =>
    obtain ⟨rest, hjoin, hrest⟩ := exists_join_ofComponents hcwd hp
    have habsolute : isAbsolute ("/" ++ rest) = true := by simp [isAbsolute]
    have hslash : leadingSlashes ("/" ++ rest) = "/" := by
      have hroot : root ("/" ++ rest) = "/" := root_append (by simp) hrest
      rwa [root, if_pos habsolute] at hroot
    have hcomponents : components ("/" ++ rest) = cwd ++ components p := by
      rw [← hjoin, components_join hp, ofComponents, components_slashes_append (by simp),
        components_intercalate fun c hc => ⟨(hcwd c hc).ne_empty, (hcwd c hc).no_slash⟩]
    have hsettle : settle [] (cwd ++ components p) = settle cwd (components p) := by
      have hfront : settle [] cwd = [] ++ cwd := settle_names hcwd
      rw [settle, List.foldl_append, ← settle, ← settle, hfront, List.nil_append]
    rw [hjoin, normal, if_pos habsolute, hslash, hcomponents, hsettle, absolute, hp]
    rfl

/-- The absolute form passes through the directories that hold this place only. -/
lemma isPrefix_of_mem_places_absolute {from_ : List String} (hcwd : ∀ c ∈ cwd, IsName c)
    (h : r ∈ places from_ (absolute cwd p)) : r <+: destination cwd p := by
  rw [places, origin_absolute, components_absolute hcwd] at h
  simpa using isPrefix_of_mem_scanl (fun c hc => isName_of_mem_destination hcwd hc) h

/-- The absolute form of a path has slashes, and the characters of the path and of the working
directory. -/
lemma mem_absolute {ch : Char} (h : ch ∈ (absolute cwd p).toList) :
    ch = '/' ∨ ch ∈ p.toList ∨ ∃ c ∈ cwd, ch ∈ c.toList := by
  obtain ⟨slashes, hs, heq⟩ := absolute_eq cwd p
  rw [heq, String.toList_append, List.mem_append] at h
  rcases h with h | h
  · simp only [List.mem_cons, List.not_mem_nil, or_false] at hs
    rcases hs with rfl | rfl <;> exact .inl (by simpa using h)
  · refine (mem_intercalate h).imp_right ?_
    rintro ⟨c, hc, hch⟩
    rcases mem_settle hc with hbase | ⟨hmem, -⟩
    · unfold origin at hbase
      split_ifs at hbase
      · simp at hbase
      · exact .inr ⟨c, hbase, hch⟩
    · exact .inl ((mem_components hmem).2.2 hch)

/-- The absolute form of a path is one that the system can be given as well. -/
lemma IsPlain.absolute (hp : IsPlain p) (hcwd : ∀ c ∈ cwd, IsPlain c) :
    IsPlain (absolute cwd p) where
  encodable := by
    simp only [Text.isEncodable, List.all_eq_true]
    intro ch hch
    rcases mem_absolute hch with rfl | h | ⟨c, hc, h⟩
    · decide
    · exact List.all_eq_true.mp hp.encodable ch h
    · exact List.all_eq_true.mp (hcwd c hc).encodable ch h
  uncut hch := by
    rcases mem_absolute hch with h | h | ⟨c, hc, h⟩
    · simp at h
    · exact hp.uncut h
    · exact (hcwd c hc).uncut h
  ne_empty he := by
    have ha := isAbsolute_absolute cwd p
    simp [he, isAbsolute] at ha

end Path

namespace FileTree

open SourceRecovery.Path

variable {t : FileTree} {cwd : List String} {p : String}

/-- A working directory is in place: it is made of names, and it and all that hold it are
directories. -/
structure IsPlaced (t : FileTree) (cwd : List String) : Prop where
  names : ∀ c ∈ cwd, IsName c ∧ IsPlain c
  directories : ∀ r, r <+: cwd → t.get? r = some .directory

lemma KeepsKinds.isPlaced {t' : FileTree} (h : t.KeepsKinds t') (ht : t.IsPlaced cwd) :
    t'.IsPlaced cwd where
  names := ht.names
  directories r hr := h.directory r (ht.directories r hr)

/-- What leads to a directory does so in its absolute form as well, whatever it is seen from. -/
lemma isDirectory_absolute (ht : t.IsPlaced cwd) (hd : t.isDirectory cwd p = true)
    (from_ : List String) : t.isDirectory from_ (absolute cwd p) = true := by
  obtain ⟨hplain, hdirs⟩ := isDirectory_iff.mp hd
  have hnames : ∀ c ∈ cwd, IsName c := fun c hc => (ht.names c hc).1
  refine isDirectory_iff.mpr ⟨hplain.absolute fun c hc => (ht.names c hc).2, fun q hq => ?_⟩
  rcases mem_scanl_of_isPrefix (isPrefix_of_mem_places_absolute hnames hq) with hbase | hmem
  · unfold origin at hbase
    split_ifs at hbase
    · rw [List.prefix_nil.mp hbase]
      rfl
    · exact ht.directories q hbase
  · exact hdirs q hmem

/-- The place that a path to a directory leads to is in place as a working directory. -/
lemma isPlaced_destination (ht : t.IsPlaced cwd) (hd : t.isDirectory cwd p = true) :
    t.IsPlaced (destination cwd p) where
  names c hc := by
    refine ⟨isName_of_mem_destination (fun c hc => (ht.names c hc).1) hc, ?_⟩
    rcases mem_settle hc with hbase | ⟨hmem, -⟩
    · unfold origin at hbase
      split_ifs at hbase
      · simp at hbase
      · exact (ht.names c hbase).2
    · obtain ⟨hne, -, hsub⟩ := mem_components hmem
      exact (isDirectory_iff.mp hd).1.of_subset hsub hne
  directories r hr := by
    rcases mem_scanl_of_isPrefix hr with hbase | hmem
    · unfold origin at hbase
      split_ifs at hbase
      · rw [List.prefix_nil.mp hbase]
        rfl
      · exact ht.directories r hbase
    · exact (isDirectory_iff.mp hd).2 r hmem

/-- A file in a directory is found there by its name. -/
lemma isFile_join {name : String} {f : File} (hd : t.isDirectory cwd p = true) (hname : IsName name)
    (hplain : IsPlain name) (hf : t.get? (destination cwd p ++ [name]) = some (.file f)) :
    t.isFile cwd (join p name) = true := by
  obtain ⟨hp, hdirs⟩ := isDirectory_iff.mp hd
  refine isFile_iff.mpr ⟨f, find_eq_file.mpr ⟨hp.join hplain, ?_, ?_, ?_⟩⟩
  · rw [places_join hname, List.dropLast_concat]
    exact hdirs
  · exact endsInSlash_of_name (by rw [name_join hname]; exact hname.ne_empty)
  · rw [destination_join hname, hf]

end FileTree

/-- Entering a directory leaves the working directory in place. -/
lemma Files.isPlaced_enter {p : String} {w v : World} (hw : w.tree.IsPlaced w.directory)
    (h : (enter p).run w = .ok () v) : v.tree.IsPlaced v.directory := by
  obtain ⟨_, _, hget, h⟩ := Action.bind_eq_ok.mp h
  cases hget
  obtain ⟨place, u, hplace, h⟩ := Action.bind_eq_ok.mp h
  obtain ⟨hplace, heq⟩ := Action.ofExcept_eq_ok.mp hplace
  cases h
  subst heq
  obtain ⟨s, hs, hplace⟩ := exists_of_bind_eq_ok hplace
  obtain ⟨hplain, hdirs, hat, hnode, -⟩ := FileTree.locate_eq_ok hs
  split at hplace
  · cases hplace
  · cases hplace
  · rename_i hn
    cases hplace
    rw [hn] at hnode
    have hd := FileTree.isDirectory_iff.mpr
      ⟨hplain, FileTree.forall_places_iff.mpr ⟨hdirs, hnode.symm⟩⟩
    rw [hat]
    exact FileTree.isPlaced_destination hw hd

end SourceRecovery
