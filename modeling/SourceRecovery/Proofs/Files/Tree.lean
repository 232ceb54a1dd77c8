import SourceRecovery.Proofs.Files.Path

/-!
# Looking into file trees

The nodes below a place are those that looking up finds there. A path leads on as long as every
place that it passes through is a directory, so that all questions about a path come down to the
nodes at its places.
-/

namespace SourceRecovery

/-- A path that the system can be given. -/
structure Path.IsPlain (p : String) : Prop where
  encodable : Text.isEncodable p = true
  uncut : '\x00' ∉ p.toList
  ne_empty : p ≠ ""

/-- A text that the system can be given, even if it names nothing. -/
structure Path.IsAdmissible (p : String) : Prop where
  encodable : Text.isEncodable p = true
  uncut : '\x00' ∉ p.toList

lemma Path.IsPlain.isAdmissible {p : String} (h : IsPlain p) : IsAdmissible p :=
  ⟨h.encodable, h.uncut⟩

lemma Path.accept_eq_ok_iff {p : String} : accept p = .ok () ↔ IsAdmissible p := by
  unfold accept
  constructor
  · intro h
    split_ifs at h with he hcut
    exact ⟨by simpa using he, by simpa using hcut⟩
  · rintro ⟨he, hcut⟩
    simp [he, hcut]

/-- A path that the system does not take is refused before anything is looked up. -/
lemma Path.isSystem_of_accept {p : String} {problem : FileProblem}
    (h : accept p = .error problem) : problem.isSystem = false := by
  unfold accept at h
  split_ifs at h <;> cases h <;> rfl

/-- A text without other characters than those of a path that the system can be given is one too,
unless it is empty. -/
lemma Path.IsPlain.of_subset {p q : String} (h : IsPlain p) (hq : q.toList ⊆ p.toList)
    (hne : q ≠ "") : IsPlain q where
  encodable := by
    have hp := h.encodable
    simp only [Text.isEncodable, List.all_eq_true] at hp ⊢
    exact fun c hc => hp c (hq hc)
  uncut hc := h.uncut (hq hc)
  ne_empty := hne

/-- A text with an ending can be given to the system as the ending can. -/
lemma Path.isPlain_append {p ending : String} (he : Text.isEncodable p = true)
    (hcut : '\x00' ∉ p.toList) (h : IsPlain ending) : IsPlain (p ++ ending) where
  encodable := by
    have hending := h.encodable
    simp only [Text.isEncodable, List.all_eq_true, String.toList_append, List.mem_append] at *
    exact fun c hc => hc.elim (he c) (hending c)
  uncut hc := by
    rw [String.toList_append, List.mem_append] at hc
    exact hc.elim hcut h.uncut
  ne_empty := by simp [h.ne_empty]

/-- A path below one that the system can be given is one too. -/
lemma Path.IsPlain.join {p q : String} (hp : IsPlain p) (hq : IsPlain q) :
    IsPlain (join p q) where
  encodable := by
    have hp' := hp.encodable
    have hq' := hq.encodable
    simp only [Text.isEncodable, List.all_eq_true] at hp' hq' ⊢
    intro c hc
    rcases mem_join hc with h | rfl | h
    · exact hp' c h
    · decide
    · exact hq' c h
  uncut hc := by
    rcases mem_join hc with h | h | h
    · exact hp.uncut h
    · simp at h
    · exact hq.uncut h
  ne_empty := by
    unfold Path.join
    split_ifs
    · exact hq.ne_empty
    · simp [hp.ne_empty]
    · simp

/-- A path whose last step is a dot can be given to the system as what is in front can. -/
lemma Path.IsPlain.of_lastStep {p : String} (h : IsPlain (Files.lastStep p).1)
    (hdot : (Files.lastStep p).2 = ".") : IsPlain p where
  encodable := by
    have hhead := h.encodable
    simp only [Text.isEncodable, List.all_eq_true] at hhead ⊢
    intro c hc
    rcases Files.mem_of_lastStep hc with hc | rfl | hc
    · exact hhead c hc
    · decide
    · obtain rfl : c = '.' := by simpa [hdot] using hc
      decide
  uncut hc := by
    rcases Files.mem_of_lastStep hc with hc | hc | hc
    · exact h.uncut hc
    · simp at hc
    · simp [hdot] at hc
  ne_empty := by
    rintro rfl
    simp [Files.lastStep, name, nameChars] at hdot

/-- Two steps that succeed in sequence succeed one after the other. -/
lemma exists_of_bind_eq_ok {ε α β : Type} {x : Except ε α} {f : α → Except ε β} {b : β}
    (h : x >>= f = .ok b) : ∃ a, x = .ok a ∧ f a = .ok b := by
  cases x with
  | error e => cases h
  | ok a => exact ⟨a, rfl, h⟩

/-- A file can be written at a path: the system can be given the path, it can be followed, does not
end in a slash and leads to no directory. -/
structure FileTree.IsWritable (t : FileTree) (cwd : List String) (p : String) : Prop where
  plain : Path.IsPlain p
  front : ∀ q ∈ (Path.places cwd p).dropLast, t.get? q = some .directory
  no_slash : Path.endsInSlash p = false
  no_directory : t.get? (Path.destination cwd p) ≠ some .directory

/-- What is in front of a directory is a directory, as in every tree of a system. -/
def FileTree.IsRooted (t : FileTree) : Prop :=
  ∀ q, t.get? q = some .directory → t.get? q.dropLast = some .directory

namespace FileTree

variable {t : FileTree} {cwd : List String} {p : String} {s : Spot}

open SourceRecovery.Path

/-! ### Nodes below a place -/

/-- Of the entries of a key, the first one is kept, which is the one that is looked up. -/
lemma mem_firsts {es : List (List String × Node)} {q : List String} {n : Node} :
    (q, n) ∈ firsts es ↔ es.lookup q = some n := by
  induction es with
  | nil => simp [firsts]
  | cons e es ih =>
    obtain ⟨r, m⟩ := e
    simp only [firsts, List.mem_cons, List.mem_filter, ih, List.lookup_cons]
    by_cases h : q = r
    · subst h
      simp [eq_comm]
    · have hb : (q == r) = false := by simpa using h
      simp [hb, h]

/-- The nodes below a place, by the components that lead on from there. -/
lemma mem_below {place cs : List String} {n : Node} :
    (cs, n) ∈ t.below place ↔ cs ≠ [] ∧ t.get? (place ++ cs) = some n := by
  have hget (hcs : cs ≠ []) : t.get? (place ++ cs) = t.entries.lookup (place ++ cs) := by
    cases h : place ++ cs with
    | nil => simp [hcs] at h
    | cons c r => rfl
  simp only [below, List.mem_filterMap, Prod.exists, Option.ite_none_right_eq_some,
    Bool.and_eq_true, decide_eq_true_eq, List.isPrefixOf_iff_prefix, Option.some.injEq,
    Prod.mk.injEq, mem_firsts]
  constructor
  · rintro ⟨q, m, hm, ⟨⟨r, rfl⟩, hne⟩, hr, rfl⟩
    rw [List.drop_left] at hr
    subst hr
    have hcs : r ≠ [] := by simpa using hne
    exact ⟨hcs, by rw [hget hcs, hm]⟩
  · rintro ⟨hcs, hn⟩
    rw [hget hcs] at hn
    exact ⟨place ++ cs, n, hn, ⟨⟨cs, rfl⟩, by simpa using hcs⟩, by simp, rfl⟩

/-! ### Following paths -/

/-- Components are followed to the place where they settle if every place before it is a
directory. -/
lemma follow_eq_ok {base cs place : List String} :
    t.follow base cs = .ok place ↔
      place = settle base cs ∧
        ∀ q ∈ (cs.scanl step base).dropLast, t.get? q = some .directory := by
  induction cs generalizing base with
  | nil => simp [follow, settle, eq_comm]
  | cons c cs ih =>
    have hne : cs.scanl step (step base c) ≠ [] := List.scanl_ne_nil
    rw [List.scanl_cons, List.dropLast_cons_of_ne_nil hne]
    simp only [List.mem_cons, forall_eq_or_imp]
    cases h : t.get? base with
    | none => simp [follow, h]
    | some n =>
      cases n with
      | file f => simp [follow, h]
      | directory => simp [follow, h, ih, settle]

lemma locate_of_isAdmissible (hp : IsAdmissible p) : t.locate cwd p = t.reach cwd p := by
  rw [locate, accept_eq_ok_iff.mpr hp]
  rfl

/-- Where a path leads that can be followed. -/
lemma locate_eq_ok (h : t.locate cwd p = .ok s) :
    IsPlain p ∧ (∀ q ∈ (places cwd p).dropLast, t.get? q = some .directory) ∧
      s.place = destination cwd p ∧ s.node = t.get? (destination cwd p) ∧
      s.slash = endsInSlash p := by
  unfold locate at h
  obtain ⟨⟨⟩, haccept, hreach⟩ := exists_of_bind_eq_ok h
  have hp := accept_eq_ok_iff.mp haccept
  unfold reach at hreach
  split_ifs at hreach with hempty
  obtain ⟨place, hfollow, hspot⟩ := exists_of_bind_eq_ok hreach
  obtain ⟨rfl, hdirs⟩ := follow_eq_ok.mp hfollow
  cases hspot
  exact ⟨⟨hp.encodable, hp.uncut, by simpa using hempty⟩, hdirs, rfl, rfl, rfl⟩

/-- A path can be followed if every place in front of the one it leads to is a directory. -/
lemma exists_locate (hp : IsPlain p)
    (h : ∀ q ∈ (places cwd p).dropLast, t.get? q = some .directory) :
    ∃ s, t.locate cwd p = .ok s := by
  have hfollow := follow_eq_ok.mpr ⟨rfl, h⟩
  rw [locate_of_isAdmissible hp.isAdmissible]
  simp [reach, hp.ne_empty, hfollow]

lemma follow_eq_error {base cs : List String} {problem : FileProblem}
    (h : t.follow base cs = .error problem) : problem = .notFound ∨ problem = .notDirectory := by
  induction cs generalizing base with
  | nil => simp [follow] at h
  | cons c cs ih =>
    unfold follow at h
    split at h
    · cases h
      exact .inl rfl
    · cases h
      exact .inr rfl
    · exact ih h

/-- Following a path that can be given to the system fails only where it leads nowhere. -/
lemma locate_eq_error {problem : FileProblem} (hp : IsAdmissible p)
    (h : t.locate cwd p = .error problem) : problem = .notFound ∨ problem = .notDirectory := by
  rw [locate_of_isAdmissible hp] at h
  unfold reach at h
  split_ifs at h
  · cases h
    exact .inl rfl
  · cases hf : t.follow (origin cwd p) (components p) with
    | ok place => simp [hf, bind, Except.bind, pure, Except.pure] at h
    | error problem' =>
      simp only [hf, bind, Except.bind, Except.error.injEq] at h
      exact h ▸ follow_eq_error hf

/-- Following a path is refused by the system itself, unless it cannot be given the path. -/
lemma isSystem_of_locate_iff {problem : FileProblem} (h : t.locate cwd p = .error problem) :
    problem.isSystem = true ↔ IsAdmissible p := by
  constructor
  · intro hsystem
    rw [← accept_eq_ok_iff]
    cases haccept : accept p with
    | ok => rfl
    | error problem' =>
      rw [locate, haccept] at h
      cases h
      rw [isSystem_of_accept haccept] at hsystem
      cases hsystem
  · intro hp
    rcases locate_eq_error hp h with rfl | rfl <;> rfl

/-- A path that does not start at a directory cannot be followed. -/
lemma exists_locate_error (h : t.get? (origin cwd p) ≠ some .directory) :
    ∃ problem, t.locate cwd p = .error problem := by
  cases hs : t.locate cwd p with
  | error problem => exact ⟨problem, rfl⟩
  | ok s =>
    obtain ⟨hplain, hdirs, -⟩ := locate_eq_ok hs
    cases ha : isAbsolute p with
    | true => simp [origin, ha] at h
    | false =>
      have hne := components_ne_nil hplain.ne_empty ha
      exact absurd (hdirs _ (origin_mem_dropLast cwd hne)) h

/-- Places that are directories in front of the last one, and the last one, are all of them. -/
lemma forall_places_iff :
    (∀ q ∈ places cwd p, t.get? q = some .directory) ↔
      (∀ q ∈ (places cwd p).dropLast, t.get? q = some .directory) ∧
        t.get? (destination cwd p) = some .directory := by
  conv_lhs => rw [← dropLast_places_append]
  simp only [List.mem_append, List.mem_singleton, or_imp, forall_and, forall_eq]

lemma find_eq_directory :
    t.find cwd p = .ok .directory ↔ ∃ s, t.locate cwd p = .ok s ∧ s.node = some .directory := by
  unfold find
  cases h : t.locate cwd p with
  | error problem => simp [bind, Except.bind]
  | ok s =>
    simp only [bind, Except.bind, Except.ok.injEq, exists_eq_left']
    cases hn : s.node with
    | none => simp
    | some n =>
      cases n with
      | file f => split_ifs <;> simp
      | directory => simp

/-- A path leads to a directory if all the places that it passes through are directories. -/
lemma isDirectory_iff :
    t.isDirectory cwd p = true ↔
      IsPlain p ∧ ∀ q ∈ places cwd p, t.get? q = some .directory := by
  have hfind : t.isDirectory cwd p = true ↔ t.find cwd p = .ok .directory := by
    unfold isDirectory
    split
    · rename_i h
      simp [h]
    · rename_i h
      simpa using h
  rw [hfind, find_eq_directory, forall_places_iff]
  constructor
  · rintro ⟨s, hs, hn⟩
    obtain ⟨hplain, hdirs, -, hnode, -⟩ := locate_eq_ok hs
    exact ⟨hplain, hdirs, by rw [← hnode, hn]⟩
  · rintro ⟨hplain, hdirs, hn⟩
    obtain ⟨s, hs⟩ := exists_locate hplain hdirs
    exact ⟨s, hs, by rw [(locate_eq_ok hs).2.2.2.1, hn]⟩

lemma get?_destination (h : t.isDirectory cwd p = true) :
    t.get? (destination cwd p) = some .directory :=
  (isDirectory_iff.mp h).2 _ (destination_mem_places cwd p)

lemma pathExists_of_isDirectory (h : t.isDirectory cwd p = true) : t.pathExists cwd p = true := by
  unfold isDirectory at h
  unfold pathExists
  split at h
  · simp [*]
  · cases h

lemma isDirectory_lastStep (h : t.isDirectory cwd p = true) (hhead : (Files.lastStep p).1 ≠ "")
    (hname : (Files.lastStep p).2 ≠ "") : t.isDirectory cwd (Files.lastStep p).1 = true := by
  obtain ⟨hplain, hdirs⟩ := isDirectory_iff.mp h
  rw [Files.places_eq_lastStep cwd hhead hname] at hdirs
  exact isDirectory_iff.mpr ⟨hplain.of_subset (Files.lastStep_isPrefix p).subset hhead,
    fun q hq => hdirs q (List.mem_append_left _ hq)⟩

/-- A path leads to a file if its places in front are directories and it does not end in a slash. -/
lemma find_eq_file {f : File} :
    t.find cwd p = .ok (.file f) ↔
      IsPlain p ∧ (∀ q ∈ (places cwd p).dropLast, t.get? q = some .directory) ∧
        endsInSlash p = false ∧ t.get? (destination cwd p) = some (.file f) := by
  unfold find
  constructor
  · intro h
    obtain ⟨s, hs, hfound⟩ := exists_of_bind_eq_ok h
    obtain ⟨hplain, hdirs, -, hnode, hslash⟩ := locate_eq_ok hs
    split at hfound
    · cases hfound
    · split_ifs at hfound with hend
      cases hfound
      rename_i g hg
      exact ⟨hplain, hdirs, by rw [← hslash, Bool.eq_false_iff.mpr hend], by rw [← hnode, hg]⟩
    · cases hfound
  · rintro ⟨hplain, hdirs, hslash, hf⟩
    obtain ⟨s, hs⟩ := exists_locate hplain hdirs
    obtain ⟨-, -, -, hnode, hend⟩ := locate_eq_ok hs
    rw [hf] at hnode
    rw [hslash] at hend
    simp [hs, bind, Except.bind, hnode, hend]

lemma isFile_iff : t.isFile cwd p = true ↔ ∃ f, t.find cwd p = .ok (.file f) := by
  unfold isFile
  split
  · rename_i f h
    simp [h]
  · rename_i h
    simpa using h

lemma follow_congr {t' : FileTree} {base cs : List String}
    (h : ∀ q ∈ cs.scanl step base, t'.get? q = t.get? q) :
    t'.follow base cs = t.follow base cs := by
  induction cs generalizing base with
  | nil => rfl
  | cons c cs ih =>
    rw [List.scanl_cons] at h
    have hrest := ih fun q hq => h q (List.mem_cons_of_mem _ hq)
    simp only [follow, h base List.mem_cons_self, hrest]

/-- Trees that agree at the places of a path agree on where it leads. -/
lemma locate_congr {t' : FileTree} (h : ∀ q ∈ places cwd p, t'.get? q = t.get? q) :
    t'.locate cwd p = t.locate cwd p := by
  have hend : t'.get? (settle (origin cwd p) (components p)) =
      t.get? (settle (origin cwd p) (components p)) := h _ (destination_mem_places _ _)
  have hfollow : t'.follow (origin cwd p) (components p) =
      t.follow (origin cwd p) (components p) := follow_congr h
  simp only [locate, reach, hfollow]
  cases hplace : t.follow (origin cwd p) (components p) with
  | error problem => rfl
  | ok place =>
    obtain ⟨rfl, -⟩ := follow_eq_ok.mp hplace
    simp only [bind, Except.bind, hend]

lemma find_congr {t' : FileTree} (h : ∀ q ∈ places cwd p, t'.get? q = t.get? q) :
    t'.find cwd p = t.find cwd p := by
  rw [find, find, locate_congr h]

/-- Where there is nothing at its end, a path leads nowhere. -/
lemma pathExists_of_none (h : t.get? (destination cwd p) = none) : t.pathExists cwd p = false := by
  have hfind (n : Node) : t.find cwd p ≠ .ok n := by
    intro hn
    obtain ⟨s, hs, hfound⟩ := exists_of_bind_eq_ok hn
    obtain ⟨-, -, -, hnode, -⟩ := locate_eq_ok hs
    simp [hnode, h] at hfound
  unfold pathExists
  split
  · exact absurd ‹_› (hfind _)
  · rfl

/-! ### Reading and changing -/

lemma read_eq_ok_iff {data : Bytes} :
    t.read cwd p = .ok data ↔ ∃ f, t.find cwd p = .ok (.file f) ∧ f.data = data := by
  constructor
  · intro h
    obtain ⟨n, hfind, hread⟩ := exists_of_bind_eq_ok h
    cases n with
    | directory => cases hread
    | file f =>
      cases hread
      exact ⟨f, hfind, rfl⟩
  · rintro ⟨f, hfind, rfl⟩
    rw [read, hfind]
    rfl

lemma read_eq_ok {data : Bytes} (h : t.read cwd p = .ok data) :
    IsPlain p ∧ (∀ q ∈ (places cwd p).dropLast, t.get? q = some .directory) ∧
      ∃ f, t.get? (destination cwd p) = some (.file f) ∧ f.data = data := by
  obtain ⟨f, hfind, hdata⟩ := read_eq_ok_iff.mp h
  obtain ⟨hplain, hdirs, -, hf⟩ := find_eq_file.mp hfind
  exact ⟨hplain, hdirs, f, hf, hdata⟩

/-- What is read is a file. -/
lemma isFile_of_read {data : Bytes} (h : t.read cwd p = .ok data) : t.isFile cwd p = true := by
  obtain ⟨f, hfind, -⟩ := read_eq_ok_iff.mp h
  exact isFile_iff.mpr ⟨f, hfind⟩

/-- What is no file cannot be read. -/
lemma exists_read_error (h : t.isFile cwd p = false) :
    ∃ problem, t.read cwd p = .error problem := by
  cases hr : t.read cwd p with
  | ok data => cases h.symm.trans (isFile_of_read hr)
  | error problem => exact ⟨problem, rfl⟩

/-- Reading a path is refused by the system itself, unless it cannot be given the path. -/
lemma isSystem_of_read_iff {problem : FileProblem} (h : t.read cwd p = .error problem) :
    problem.isSystem = true ↔ IsAdmissible p := by
  unfold read find at h
  cases hs : t.locate cwd p with
  | error cause =>
    simp only [hs, bind, Except.bind, Except.error.injEq] at h
    rw [← h, isSystem_of_locate_iff hs]
  | ok s =>
    refine iff_of_true ?_ (locate_eq_ok hs).1.isAdmissible
    simp only [hs, bind, Except.bind] at h
    cases hn : s.node with
    | none =>
      simp only [hn, Except.error.injEq] at h
      exact h ▸ rfl
    | some n =>
      cases n with
      | directory =>
        simp only [hn, Except.error.injEq] at h
        exact h ▸ rfl
      | file f =>
        cases hslash : s.slash with
        | true =>
          simp only [hn, hslash, if_true, Except.error.injEq] at h
          exact h ▸ rfl
        | false => simp [hn, hslash] at h

/-- Writing puts a file where the path leads, which is to no directory. -/
lemma write_eq_ok {t' : FileTree} {now : Int} {data : Bytes} (h : t.write cwd now p data = .ok t') :
    t.get? (destination cwd p) ≠ some .directory ∧
      ∃ x, t' = t.put (destination cwd p) (.file ⟨data, x, now⟩) := by
  obtain ⟨s, hs, hput⟩ := exists_of_bind_eq_ok h
  obtain ⟨-, -, hplace, hnode, -⟩ := locate_eq_ok hs
  rw [← hnode, ← hplace]
  split_ifs at hput
  cases hn : s.node with
  | none =>
    rw [hn] at hput
    cases hput
    exact ⟨by simp, _, rfl⟩
  | some n =>
    rw [hn] at hput
    cases n with
    | directory => cases hput
    | file f =>
      cases hput
      exact ⟨by simp, _, rfl⟩

/-- What is written to can be followed, and does not end in a slash. -/
lemma follows_of_write {t' : FileTree} {now : Int} {data : Bytes}
    (h : t.write cwd now p data = .ok t') :
    IsPlain p ∧ (∀ q ∈ (places cwd p).dropLast, t.get? q = some .directory) ∧
      endsInSlash p = false := by
  obtain ⟨s, hs, hput⟩ := exists_of_bind_eq_ok h
  obtain ⟨hplain, hdirs, -, -, hslash⟩ := locate_eq_ok hs
  refine ⟨hplain, hdirs, ?_⟩
  by_contra hend
  rw [← hslash, Bool.not_eq_false] at hend
  simp [hend] at hput

/-- Writing succeeds where the path can be followed and leads to no directory. -/
lemma exists_write (hp : IsPlain p)
    (hdirs : ∀ q ∈ (places cwd p).dropLast, t.get? q = some .directory)
    (hslash : endsInSlash p = false) (hd : t.get? (destination cwd p) ≠ some .directory)
    (now : Int) (data : Bytes) : ∃ t', t.write cwd now p data = .ok t' := by
  obtain ⟨s, hs⟩ := exists_locate hp hdirs
  obtain ⟨-, -, -, hnode, hend⟩ := locate_eq_ok hs
  rw [hslash] at hend
  rw [← hnode] at hd
  cases hn : s.node with
  | none => simp [write, hs, bind, Except.bind, hend, hn]
  | some n =>
    cases n with
    | directory => exact absurd hn hd
    | file f => simp [write, hs, bind, Except.bind, hend, hn]

lemma isWritable_iff (now : Int) (data : Bytes) :
    t.IsWritable cwd p ↔ ∃ t', t.write cwd now p data = .ok t' := by
  constructor
  · rintro ⟨hplain, hdirs, hslash, hd⟩
    exact exists_write hplain hdirs hslash hd now data
  · rintro ⟨t', h⟩
    obtain ⟨hplain, hdirs, hslash⟩ := follows_of_write h
    exact ⟨hplain, hdirs, hslash, (write_eq_ok h).1⟩

/-- A file that is put where a path leads is found there. -/
lemma find_put (hp : IsPlain p) (hdirs : ∀ q ∈ (places cwd p).dropLast, t.get? q = some .directory)
    (hslash : endsInSlash p = false) (hd : t.get? (destination cwd p) ≠ some .directory)
    (f : File) : (t.put (destination cwd p) (.file f)).find cwd p = .ok (.file f) := by
  refine find_eq_file.mpr ⟨hp, fun q hq => ?_, hslash, get?_put_self t _ ?_⟩
  · have hne : q ≠ destination cwd p := by
      rintro rfl
      exact hd (hdirs _ hq)
    rw [get?_put_of_ne t _ hne]
    exact hdirs q hq
  · intro he
    simp [he] at hd

/-- Writing to a file that is there replaces its content. -/
lemma write_of_find {f : File} (h : t.find cwd p = .ok (.file f)) (now : Int) (data : Bytes) :
    t.write cwd now p data =
      .ok (t.put (destination cwd p) (.file ⟨data, f.executable, now⟩)) := by
  obtain ⟨hplain, hdirs, hslash, hf⟩ := find_eq_file.mp h
  obtain ⟨s, hs⟩ := exists_locate hplain hdirs
  obtain ⟨-, -, hplace, hnode, hend⟩ := locate_eq_ok hs
  rw [hf] at hnode
  rw [hslash] at hend
  simp [write, hs, bind, Except.bind, hnode, hend, hplace]

/-- A file that a path leads to can be removed. -/
lemma remove_of_find {f : File} (h : t.find cwd p = .ok (.file f)) :
    t.remove cwd p = .ok (t.erase (destination cwd p)) := by
  obtain ⟨hplain, hdirs, hslash, hf⟩ := find_eq_file.mp h
  obtain ⟨s, hs⟩ := exists_locate hplain hdirs
  obtain ⟨-, -, hplace, hnode, hend⟩ := locate_eq_ok hs
  rw [hf] at hnode
  rw [hslash] at hend
  simp [remove, hs, bind, Except.bind, hnode, hend, hplace]

/-- Once a file that a path leads to is removed, the way is still there, and nothing at its end. -/
lemma get?_erase_of_find {f : File} (h : t.find cwd p = .ok (.file f)) :
    (∀ q ∈ (places cwd p).dropLast,
      (t.erase (destination cwd p)).get? q = some .directory) ∧
    (t.erase (destination cwd p)).get? (destination cwd p) = none := by
  obtain ⟨-, hdirs, -, hf⟩ := find_eq_file.mp h
  refine ⟨fun q hq => ?_, get?_erase_self t fun he => ?_⟩
  · have hne : q ≠ destination cwd p := by
      rintro rfl
      cases hf.symm.trans (hdirs _ hq)
    rw [get?_erase_of_ne t hne, hdirs q hq]
  · simp [he] at hf

/-- Whether a path that has a last name ends in a name of its own. -/
lemma locate_named (h : t.locate cwd p = .ok s) (hn : name p ≠ "") :
    s.named = (name p ≠ "." && name p ≠ "..") := by
  have hlast : (components p).getLast? = some (name p) := by
    rw [components_eq_parent p, components_name (slash_notMem_name p) hn]
    simp
  rw [locate_of_isAdmissible (locate_eq_ok h).1.isAdmissible, reach] at h
  split_ifs at h
  obtain ⟨place, -, hspot⟩ := exists_of_bind_eq_ok h
  cases hspot
  simp [hlast]

/-- Renaming goes only to names of their own. -/
lemma rename_eq_ok {t' : FileTree} {target : String} (h : t.rename cwd p target = .ok t')
    (hn : name target ≠ "") : name target ≠ "." ∧ name target ≠ ".." := by
  obtain ⟨old, -, hrest⟩ := exists_of_bind_eq_ok h
  obtain ⟨new, hnew, hmoved⟩ := exists_of_bind_eq_ok hrest
  have hnamed : new.named = true := by
    by_contra hb
    rw [Bool.not_eq_true] at hb
    simp [hb] at hmoved
  rw [locate_named hnew hn] at hnamed
  simpa using hnamed

/-- Renaming goes only to paths that lead to no directory. -/
lemma not_isDirectory_of_rename {t' : FileTree} {target : String}
    (h : t.rename cwd p target = .ok t') :
    IsPlain target ∧ t.isDirectory cwd target = false := by
  obtain ⟨old, -, hrest⟩ := exists_of_bind_eq_ok h
  obtain ⟨new, hnew, hmoved⟩ := exists_of_bind_eq_ok hrest
  obtain ⟨hplain, -, -, hnode, -⟩ := locate_eq_ok hnew
  refine ⟨hplain, ?_⟩
  by_contra hd
  rw [Bool.not_eq_false, isDirectory_iff, forall_places_iff] at hd
  rw [hd.2.2] at hnode
  cases hold : old.node with
  | none =>
    simp only [hold] at hmoved
    split_ifs at hmoved
  | some n =>
    cases n with
    | file f =>
      simp only [hold, hnode] at hmoved
      split_ifs at hmoved
    | directory =>
      simp only [hold] at hmoved
      split_ifs at hmoved

/-- A file is given a new path that leads to no directory, replacing what is there. -/
lemma rename_of_find {f : File} {target : String} (h : t.find cwd p = .ok (.file f))
    (hp : IsName (name p)) (htarget : IsPlain target)
    (hdirs : ∀ q ∈ (places cwd target).dropLast, t.get? q = some .directory)
    (hslash : endsInSlash target = false) (hn : IsName (name target))
    (hd : t.get? (destination cwd target) ≠ some .directory) :
    t.rename cwd p target =
      .ok ((t.erase (destination cwd p)).put (destination cwd target) (.file f)) := by
  obtain ⟨hplain, hdirs', hslash', hf⟩ := find_eq_file.mp h
  obtain ⟨old, hold⟩ := exists_locate hplain hdirs'
  obtain ⟨new, hnew⟩ := exists_locate htarget hdirs
  obtain ⟨-, -, hplace, hnode, hend⟩ := locate_eq_ok hold
  obtain ⟨-, -, hplace', hnode', hend'⟩ := locate_eq_ok hnew
  have hnamed : old.named = true := by simp [locate_named hold hp.ne_empty, hp.ne_dot, hp.ne_dots]
  have hnamed' : new.named = true := by simp [locate_named hnew hn.ne_empty, hn.ne_dot, hn.ne_dots]
  rw [hf] at hnode
  rw [hslash'] at hend
  rw [hslash] at hend'
  rw [← hnode'] at hd
  rw [← hplace, ← hplace']
  cases hnode'' : new.node with
  | none =>
    simp [rename, hold, hnew, bind, Except.bind, hnamed, hnamed', hnode, hend, hend', hnode'']
  | some n =>
    cases n with
    | directory => exact absurd hnode'' hd
    | file g =>
      simp [rename, hold, hnew, bind, Except.bind, hnamed, hnamed', hnode, hend, hend', hnode'']

/-- What was put is gone with the node that was there before. -/
lemma erase_put (t : FileTree) (q : List String) (n : Node) : (t.put q n).erase q = t.erase q := by
  simp [put, erase]

lemma lookup_filter_key {P : List String → Bool} (q : List String)
    (es : List (List String × Node)) :
    (es.filter fun e => P e.1).lookup q = if P q then es.lookup q else none := by
  induction es with
  | nil => simp
  | cons e es ih =>
    obtain ⟨r, n⟩ := e
    by_cases hr : q = r
    · subst hr
      cases hP : P q <;> simp [hP, ih]
    · have hb : (q == r) = false := by simpa using hr
      cases hP : P r <;> simp [hP, ih, List.lookup_cons, hb]

/-- What is below a place is gone, and nothing else. -/
lemma get?_eraseBelow (t : FileTree) (place q : List String) :
    (t.eraseBelow place).get? q = if place <+: q ∧ q ≠ place then none else t.get? q := by
  cases q with
  | nil => simp
  | cons c cs =>
    simp only [get?, eraseBelow]
    rw [lookup_filter_key (P := fun q => q = place || !place.isPrefixOf q)]
    by_cases hq : place <+: c :: cs ∧ c :: cs ≠ place
    · simp [hq, List.isPrefixOf_iff_prefix.mpr hq.1]
    · have hkept : (decide (c :: cs = place) || !place.isPrefixOf (c :: cs)) = true := by
        rw [Bool.or_eq_true, decide_eq_true_eq, Bool.not_eq_true', ← Bool.not_eq_true,
          List.isPrefixOf_iff_prefix]
        tauto
      rw [if_pos hkept, if_neg hq]

/-- Removing a directory whose path ends in a name of its own removes it with all that it holds. -/
lemma removeAll_of_isDirectory (h : t.isDirectory cwd p = true) (hn : IsName (name p)) :
    t.removeAll cwd p =
      .ok ((t.eraseBelow (destination cwd p)).erase (destination cwd p), none) := by
  obtain ⟨hplain, hdirs⟩ := isDirectory_iff.mp h
  obtain ⟨hfront, hlast⟩ := forall_places_iff.mp hdirs
  obtain ⟨s, hs⟩ := exists_locate hplain hfront
  obtain ⟨-, -, hplace, hnode, -⟩ := locate_eq_ok hs
  have hnamed : s.named = true := by simp [locate_named hs hn.ne_empty, hn.ne_dot, hn.ne_dots]
  rw [hlast] at hnode
  simp [removeAll, hs, bind, Except.bind, hnode, hnamed, hplace]

/-- A directory is made where a path leads to nothing yet. -/
lemma makeDirectory_eq_ok {t' : FileTree} (h : t.makeDirectory cwd p = .ok t') :
    IsPlain p ∧ (∀ q ∈ (places cwd p).dropLast, t.get? q = some .directory) ∧
      t.get? (destination cwd p) = none ∧ t' = t.put (destination cwd p) .directory := by
  obtain ⟨s, hs, hput⟩ := exists_of_bind_eq_ok h
  obtain ⟨hplain, hdirs, hplace, hnode, -⟩ := locate_eq_ok hs
  cases hn : s.node with
  | some n => simp [hn] at hput
  | none =>
    rw [hn] at hput
    cases hput
    exact ⟨hplain, hdirs, by rw [← hnode, hn], by rw [hplace]⟩

/-- Where there is nothing yet, a directory can be made. -/
lemma makeDirectory_of_none (hp : IsPlain p)
    (hdirs : ∀ q ∈ (places cwd p).dropLast, t.get? q = some .directory)
    (hnone : t.get? (destination cwd p) = none) :
    t.makeDirectory cwd p = .ok (t.put (destination cwd p) .directory) := by
  obtain ⟨s, hs⟩ := exists_locate hp hdirs
  obtain ⟨-, -, hplace, hnode, -⟩ := locate_eq_ok hs
  rw [hnone] at hnode
  simp [makeDirectory, hs, bind, Except.bind, hnode, hplace]

/-- Writing where there is nothing yet makes a file that cannot be run. -/
lemma write_of_none (hp : IsPlain p)
    (hdirs : ∀ q ∈ (places cwd p).dropLast, t.get? q = some .directory)
    (hslash : endsInSlash p = false) (hnone : t.get? (destination cwd p) = none) (now : Int)
    (data : Bytes) :
    t.write cwd now p data = .ok (t.put (destination cwd p) (.file ⟨data, false, now⟩)) := by
  obtain ⟨s, hs⟩ := exists_locate hp hdirs
  obtain ⟨-, -, hplace, hnode, hend⟩ := locate_eq_ok hs
  rw [hnone] at hnode
  rw [hslash] at hend
  simp [write, hs, bind, Except.bind, hend, hnode, hplace]

lemma locate_ne_alreadyExists : t.locate cwd p ≠ .error .alreadyExists := by
  intro h
  have hp := (isSystem_of_locate_iff h).mp rfl
  rcases locate_eq_error hp h with hproblem | hproblem <;> cases hproblem

/-- Putting a file where there is no directory changes no directories. -/
lemma get?_put_file_eq_directory {q r : List String} (h : t.get? q ≠ some .directory) (f : File) :
    (t.put q (.file f)).get? r = some .directory ↔ t.get? r = some .directory := by
  by_cases hr : r = q
  · subst hr
    have hne : r ≠ [] := by
      rintro rfl
      simp at h
    simp [get?_put_self t _ hne, h]
  · rw [get?_put_of_ne t _ hr]

/-! ### Comparing trees -/

/-- A tree has grown to another one by directories at some places. -/
def GrowsAlong (ps : List (List String)) (t t' : FileTree) : Prop :=
  ∀ q, t'.get? q = t.get? q ∨ t.get? q = none ∧ t'.get? q = some .directory ∧ q ∈ ps

/-- Directories stay directories and files stay files, whatever is in them. -/
structure KeepsKinds (t t' : FileTree) : Prop where
  directory : ∀ q, t.get? q = some .directory → t'.get? q = some .directory
  file : ∀ q f, t.get? q = some (.file f) → ∃ g, t'.get? q = some (.file g)

namespace GrowsAlong

variable {ps : List (List String)} {t' t'' : FileTree}

lemma refl (ps : List (List String)) (t : FileTree) : GrowsAlong ps t t := fun _ => .inl rfl

lemma trans (h : GrowsAlong ps t t') (h' : GrowsAlong ps t' t'') : GrowsAlong ps t t'' := by
  intro q
  rcases h q, h' q with ⟨heq | ⟨hnone, hdir, hq⟩, heq' | ⟨hnone', hdir', hq'⟩⟩
  · exact .inl (heq'.trans heq)
  · exact .inr ⟨heq ▸ hnone', hdir', hq'⟩
  · exact .inr ⟨hnone, heq'.trans hdir, hq⟩
  · simp [hdir] at hnone'

lemma mono {qs : List (List String)} (h : GrowsAlong ps t t') (hs : ps ⊆ qs) :
    GrowsAlong qs t t' := by
  intro q
  rcases h q with heq | ⟨hnone, hdir, hq⟩
  · exact .inl heq
  · exact .inr ⟨hnone, hdir, hs hq⟩

lemma put_directory {q : List String} (hq : q ∈ ps) (hnone : t.get? q = none) :
    GrowsAlong ps t (t.put q .directory) := by
  intro r
  by_cases hr : r = q
  · subst hr
    have hne : r ≠ [] := by
      rintro rfl
      simp at hnone
    exact .inr ⟨hnone, get?_put_self t _ hne, hq⟩
  · exact .inl (get?_put_of_ne t _ hr)

lemma keepsKinds (h : GrowsAlong ps t t') : KeepsKinds t t' where
  directory q hq := by
    rcases h q with heq | ⟨hnone, -, -⟩
    · rw [heq, hq]
    · simp [hq] at hnone
  file q f hq := by
    rcases h q with heq | ⟨hnone, -, -⟩
    · exact ⟨f, by rw [heq, hq]⟩
    · simp [hq] at hnone

end GrowsAlong

namespace KeepsKinds

variable {t' t'' : FileTree}

lemma refl (t : FileTree) : KeepsKinds t t := ⟨fun _ h => h, fun _ f h => ⟨f, h⟩⟩

lemma trans (h : KeepsKinds t t') (h' : KeepsKinds t' t'') : KeepsKinds t t'' where
  directory q hq := h'.directory q (h.directory q hq)
  file q f hq := by
    obtain ⟨g, hg⟩ := h.file q f hq
    exact h'.file q g hg

lemma put_file {q : List String} {f : File} (h : t.get? q ≠ some .directory) :
    KeepsKinds t (t.put q (.file f)) where
  directory r hr := by
    have hne : r ≠ q := by
      rintro rfl
      exact h hr
    rw [get?_put_of_ne t _ hne, hr]
  file r g hr := by
    by_cases hne : r = q
    · subst hne
      have hr' : r ≠ [] := by
        rintro rfl
        simp at hr
      exact ⟨f, get?_put_self t _ hr'⟩
    · exact ⟨g, by rw [get?_put_of_ne t _ hne, hr]⟩

lemma isDirectory (h : KeepsKinds t t') (hd : t.isDirectory cwd p = true) :
    t'.isDirectory cwd p = true := by
  obtain ⟨hplain, hdirs⟩ := isDirectory_iff.mp hd
  exact isDirectory_iff.mpr ⟨hplain, fun q hq => h.directory q (hdirs q hq)⟩

lemma isFile (h : KeepsKinds t t') (hf : t.isFile cwd p = true) : t'.isFile cwd p = true := by
  obtain ⟨f, hf⟩ := isFile_iff.mp hf
  obtain ⟨hplain, hdirs, hslash, hget⟩ := find_eq_file.mp hf
  obtain ⟨g, hg⟩ := h.file _ f hget
  exact isFile_iff.mpr
    ⟨g, find_eq_file.mpr ⟨hplain, fun q hq => h.directory q (hdirs q hq), hslash, hg⟩⟩

end KeepsKinds

/-! ### Rooted trees -/

lemma IsRooted.of_entries
    (h : ∀ e ∈ t.entries, e.2 = .directory → t.get? e.1.dropLast = some .directory) :
    t.IsRooted := by
  intro q hq
  cases q with
  | nil => rfl
  | cons c cs =>
    obtain ⟨front, back, hentries, -⟩ := List.lookup_eq_some_iff.mp hq
    exact h (c :: cs, .directory) (by simp [hentries]) rfl

/-- In a rooted tree a step from a directory that leads to the one in front of it or stays there
leads to a directory. -/
lemma IsRooted.step (ht : t.IsRooted) {q : List String} (hq : t.get? q = some .directory)
    {c : String} (hc : c = "." ∨ c = "..") : t.get? (Path.step q c) = some .directory := by
  rcases hc with rfl | rfl
  · exact hq
  · exact ht q hq

end FileTree

end SourceRecovery
