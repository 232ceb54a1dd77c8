import SourceRecovery.Proofs.Server.Gathering

/-!
# Downloads beside a file

A download gathers its bytes under a name beside the path that they are for, and gives them that
path when all have come. Where it stops on the way, nothing but the name beside is changed. What
has come is not compared with what was announced, so that the end of a body that is cut short is
taken for the end of the file.
-/

namespace SourceRecovery.Server

open SourceRecovery.Action SourceRecovery.Path

variable {url path : String} {total : Int} {r : Response} {w v : World} {t : FileTree}
  {cwd : List String} {g : File} {texts : List String}

/-! ### The name beside a path -/

/-- The name that bytes are gathered under lies beside the path, in the same directory. -/
lemma name_part (path : String) : name (path ++ ".part") = name path ++ ".part" :=
  name_append (by decide)

lemma isName_part (path : String) : IsName (name (path ++ ".part")) :=
  isName_name_append (by decide) (by decide)

lemma destination_part (cwd : List String) (path : String) :
    destination cwd (path ++ ".part") =
      destination cwd (parent path) ++ [name path ++ ".part"] := by
  rw [destination_eq_parent cwd (isName_part path).ne_empty, (isName_part path).step,
    parent_append (by decide), name_part]

lemma dropLast_places_part (cwd : List String) (path : String) :
    (places cwd (path ++ ".part")).dropLast = places cwd (parent path) :=
  dropLast_places_append_ending cwd path (by decide) (by decide)

lemma destination_part_ne (cwd : List String) (h : name path ≠ "") :
    destination cwd (path ++ ".part") ≠ destination cwd path := by
  rw [destination_part, destination_eq_parent cwd h, step]
  split_ifs with hdot hdots
  · simp
  · intro he
    have := congrArg List.length he
    simp at this
    omega
  · intro he
    simpa using congrArg String.length (List.cons.inj (List.append_cancel_left he)).1

lemma isPlain_part (h : IsPlain path) : IsPlain (path ++ ".part") :=
  isPlain_append h.encodable h.uncut ⟨by decide, by decide, by decide⟩

lemma isPlain_of_part (h : IsPlain (path ++ ".part")) (hne : path ≠ "") : IsPlain path :=
  h.of_subset (by simp) hne

/-- A path does not pass through the name beside it, where that can be written. -/
lemma ne_part_of_mem_places (h : t.IsWritable cwd (path ++ ".part")) {q : List String}
    (hq : q ∈ places cwd path) : q ≠ destination cwd (path ++ ".part") := by
  have hfront := h.front
  rw [dropLast_places_part] at hfront
  have hne {q : List String} (hq : q ∈ places cwd (parent path)) :
      q ≠ destination cwd (path ++ ".part") := by
    rintro rfl
    exact h.no_directory (hfront _ hq)
  by_cases hname : name path = ""
  · exact hne (places_of_name_eq_empty cwd hname ▸ hq)
  · rw [places_eq_parent cwd hname, ← destination_eq_parent cwd hname, List.mem_append,
      List.mem_singleton] at hq
    rcases hq with hq | rfl
    · exact hne hq
    · exact (destination_part_ne cwd hname).symm

/-- Whatever is put beside a path, it leads where it did. -/
lemma find_put_part (h : t.IsWritable cwd (path ++ ".part")) (g : File) :
    (t.put (destination cwd (path ++ ".part")) (.file g)).find cwd path = t.find cwd path :=
  FileTree.find_congr fun _ hq => FileTree.get?_put_of_ne t _ (ne_part_of_mem_places h hq)

/-! ### Giving a path to what lies beside it -/

/-- What is gathered beside a path can be given that path: it can be written there, and the path is
not empty, leads to no directory and does not end in `..`. -/
structure Storable (w : World) (path : String) : Prop where
  beside : w.tree.IsWritable w.directory (path ++ ".part")
  ne_empty : path ≠ ""
  free : w.tree.isDirectory w.directory path = false
  named : name path ≠ ".."

/-- A path that is no directory, with a file beside it, leads to a name that a file can have. -/
lemma isWritable_of_part (h : t.IsWritable cwd (path ++ ".part")) (hne : path ≠ "")
    (hfree : t.isDirectory cwd path = false) :
    t.IsWritable cwd path ∧ name path ≠ "" ∧ name path ≠ "." := by
  have hplain := isPlain_of_part h.plain hne
  have hfront := h.front
  rw [dropLast_places_part] at hfront
  have hnone : ¬ ∀ q ∈ places cwd path, t.get? q = some .directory := by
    intro hdirs
    simp [FileTree.isDirectory_iff.mpr ⟨hplain, hdirs⟩] at hfree
  have hname : name path ≠ "" := by
    intro hname
    rw [places_of_name_eq_empty cwd hname] at hnone
    exact hnone hfront
  have hdirs : ∀ q ∈ (places cwd path).dropLast, t.get? q = some .directory := by
    rw [dropLast_places_eq_parent cwd hname]
    exact hfront
  have hd : t.get? (destination cwd path) ≠ some .directory :=
    fun hd => hnone (FileTree.forall_places_iff.mpr ⟨hdirs, hd⟩)
  refine ⟨⟨hplain, hdirs, endsInSlash_of_name hname, hd⟩, hname, fun hdot => hd ?_⟩
  -- A dot at the end leads to the directory in front of it.
  rw [destination_eq_parent cwd hname, hdot]
  exact hfront _ (destination_mem_places _ _)

/-- In a rooted tree, a path to no directory does not end in `..`. -/
lemma name_ne_dots (ht : t.IsRooted) (h : t.IsWritable cwd (path ++ ".part")) (hne : path ≠ "")
    (hfree : t.isDirectory cwd path = false) : name path ≠ ".." := by
  obtain ⟨hpath, hname, -⟩ := isWritable_of_part h hne hfree
  have hfront := h.front
  rw [dropLast_places_part] at hfront
  intro hdots
  refine hpath.no_directory ?_
  rw [destination_eq_parent cwd hname, hdots]
  exact ht.step (hfront _ (destination_mem_places _ _)) (.inr rfl)

/-- What lies beside a path is given that path. -/
lemma rename_part (hw : t.IsWritable cwd (path ++ ".part")) (hne : path ≠ "")
    (hfree : t.isDirectory cwd path = false) (hnamed : name path ≠ "..") (g : File) :
    (t.put (destination cwd (path ++ ".part")) (.file g)).rename cwd (path ++ ".part") path =
      .ok ((t.erase (destination cwd (path ++ ".part"))).put (destination cwd path) (.file g)) := by
  obtain ⟨hpath, hname, hdot⟩ := isWritable_of_part hw hne hfree
  have hpart := FileTree.find_put hw.plain hw.front hw.no_slash hw.no_directory g
  have hkept {q : List String} (hq : q ∈ places cwd path) :=
    FileTree.get?_put_of_ne t (.file g) (ne_part_of_mem_places hw hq)
  rw [FileTree.rename_of_find hpart (isName_part path) hpath.plain
    (fun q hq => by rw [hkept (List.dropLast_subset _ hq), hpath.front q hq]) hpath.no_slash
    ⟨hname, hdot, hnamed, slash_notMem_name path⟩
    (by rw [hkept (destination_mem_places _ _)]; exact hpath.no_directory), FileTree.erase_put]

/-! ### What a download does -/

/-- The length that an answer announces; no length or an empty one counts as zero. -/
def announcedLength (r : Response) : Except NumeralError Int :=
  match r.length with
  | none => .ok 0
  | some "" => .ok 0
  | some s => Numeral.read s

lemma announced_eq (r : Response) : announced r = ofExcept Fault.numeral (announcedLength r) := by
  obtain ⟨body, _ | s⟩ := r
  · rfl
  · by_cases hs : s = ""
    · subst hs
      rfl
    · simp [announced, announcedLength]

/-- A download delivers an answer: the address answers and announces a length that is a number,
what comes can be stored at the path, and progress can be shown at every mark. -/
structure Deliverable (w : World) (url path : String) (r : Response) (total : Int) : Prop where
  answered : w.response url = .ok r
  announced : announcedLength r = .ok total
  storable : Storable w path
  shown : ∀ n, IsMark r.body.length n → Showable total n

/-- An answer was delivered to a path: the file there has its body and none is left beside it, no
other path is changed, and what was written to the console is the announcement, the progress at
each count, and the size in the end. -/
structure Delivered (w : World) (url path : String) (r : Response) (total : Int) (v : World) :
    Prop where
  world : ∃ tree console, v = { w with
    tree, console, journal := w.journal ++ [.requested url] }
  content : ∃ f, v.tree.find v.directory path = .ok (.file f) ∧ f.data = r.body
  unstaged : v.tree.pathExists v.directory (path ++ ".part") = false
  frame : ∀ q, q ≠ destination w.directory path → q ≠ destination w.directory (path ++ ".part") →
    v.tree.get? q = w.tree.get? q
  progress : ∃ texts size,
    (counters r.body.length).mapM (progress? (.ofFlag w.console.colored) total) = some texts ∧
      Figures.size? r.body.length = some size ∧
      v.console = Console.logged
        (Console.closed (shown (Console.logged w.console .step s!"Downloading {url}") total texts))
        .info s!"Downloaded {size} to {path}"

/-- A path is spared: it leads where it did, and nothing is changed but what lies beside it. -/
structure Spared (w : World) (path : String) (v : World) : Prop where
  directory : v.directory = w.directory
  found : v.tree.find v.directory path = w.tree.find w.directory path
  frame : ∀ q, q ≠ destination w.directory (path ++ ".part") → v.tree.get? q = w.tree.get? q

/-- A path is spared by what is written beside it. -/
lemma spared_put_part (h : w.tree.IsWritable w.directory (path ++ ".part"))
    (hd : v.directory = w.directory)
    (ht : v.tree = w.tree.put (destination w.directory (path ++ ".part")) (.file g)) :
    Spared w path v where
  directory := hd
  found := by rw [hd, ht, find_put_part h]
  frame q hq := by rw [ht, FileTree.get?_put_of_ne _ _ hq]

/-- Gather a body beside a file and give it the file's name when all of it is there. -/
def gather (path : String) (r : Response) (total : Int) : Action Unit := do
  Files.write (path ++ ".part") []
  writeChunks (path ++ ".part") total (r.body.length + 1) 0 r.body
  Files.rename (path ++ ".part") path
  Console.finishProgress ""
  Console.info s!"Downloaded {← sizeText r.body.length} to {path}"

/-- The world once an address has been announced and asked for. -/
abbrev requested (w : World) (url : String) : World :=
  { w with console := Console.logged w.console .step s!"Downloading {url}"
           journal := w.journal ++ [.requested url] }

/-- What can be stored does not depend on what was announced or asked for. -/
lemma storable_requested_iff : Storable (requested w url) path ↔ Storable w path :=
  ⟨fun h => ⟨h.1, h.2, h.3, h.4⟩, fun h => ⟨h.1, h.2, h.3, h.4⟩⟩

/-- An address that can be asked and is in the network answers. -/
lemma response_eq_ok (hasked : w.addressProblem url = none) (h : w.network.lookup url = some r) :
    w.response url = .ok r := by
  rw [World.response, hasked]
  dsimp only
  rw [h]

lemma run_request_of_ok (h : w.response url = .ok r) :
    (World.request url).run w = .ok r { w with journal := w.journal ++ [.requested url] } :=
  (run_bind_of_ok rfl).trans (ofExcept_eq_ok.mpr ⟨h, rfl⟩)

lemma run_request_of_error {e : Fault} (h : w.response url = .error e) :
    (World.request url).run w = .error e { w with journal := w.journal ++ [.requested url] } := by
  refine (run_bind_of_ok rfl).trans (show (ofExcept id (w.response url)).run _ = _ from ?_)
  rw [h]
  rfl

/-- A download stops without an answer and with one whose length is no number; else it gathers the
body. -/
lemma run_download (url path : String) (w : World) : (download url path).run w =
    match w.response url with
    | .error e => .error e (requested w url)
    | .ok r => match announcedLength r with
      | .error cause => .error (.numeral cause) (requested w url)
      | .ok total => (gather path r total).run (requested w url) := by
  have hstep : (Console.step s!"Downloading {url}").run w = .ok () { w with
      console := Console.logged w.console .step s!"Downloading {url}" } := Console.run_log _ _ _
  simp only [download, run_bind_of_ok hstep]
  cases hresponse : w.response url with
  | error e => exact run_bind_of_error (run_request_of_error hresponse)
  | ok r =>
    have hrequest : (World.request url).run { w with
        console := Console.logged w.console .step s!"Downloading {url}" } =
          .ok r (requested w url) := run_request_of_ok hresponse
    refine (run_bind_of_ok hrequest).trans ?_
    rw [announced_eq]
    dsimp only
    cases announcedLength r with
    | error cause => exact run_bind_of_error (run_ofExcept_error _ _)
    | ok total => exact run_bind_of_ok (run_ofExcept_ok _ _)

/-- There are texts for the progress of a body if it can be shown at every mark. -/
lemma exists_texts (h : ∀ n, IsMark r.body.length n → Showable total n) (p : Palette) :
    ∃ texts, (counters r.body.length).mapM (progress? p total) = some texts := by
  simp only [← mem_counters, ← isSome_progress?_iff (p := p)] at h
  generalize counters r.body.length = ns at h ⊢
  induction ns with
  | nil => exact ⟨[], rfl⟩
  | cons n ns ih =>
    obtain ⟨text, htext⟩ := Option.isSome_iff_exists.mp (h n List.mem_cons_self)
    obtain ⟨texts, htexts⟩ := ih fun m hm => h m (List.mem_cons_of_mem _ hm)
    exact ⟨text :: texts, by simp [htext, htexts]⟩

/-- The size of a body whose progress can be shown can be told in the end. -/
lemma size_isSome (h : ∀ n, IsMark r.body.length n → Showable total n) :
    (Figures.size? r.body.length).isSome := by
  by_cases hb : r.body = []
  · rw [hb]
    decide +kernel
  · exact (h _ ⟨List.length_pos_iff.mpr hb, Nat.le_refl _, .inl rfl⟩).doneText

/-- The file beside a path starts without content. -/
lemma exists_write_part (h : w.tree.IsWritable w.directory (path ++ ".part")) :
    ∃ g, g.data = [] ∧ (Files.write (path ++ ".part") []).run w = .ok () { w with
      tree := w.tree.put (destination w.directory (path ++ ".part")) (.file g) } := by
  obtain ⟨v, hv⟩ := (Files.isWritable_iff_write []).mp h
  obtain ⟨-, x, rfl⟩ := Files.write_eq_ok hv
  exact ⟨_, rfl, hv⟩

/-- A body whose progress can be shown is written beside a path to its end. -/
lemma exists_gathered (h : w.tree.IsWritable w.directory (path ++ ".part"))
    (hshown : ∀ n, IsMark r.body.length n → Showable total n) :
    ∃ f g texts, g.data = r.body ∧
      (counters r.body.length).mapM (progress? (.ofFlag w.console.colored) total) = some texts ∧
      (Files.write (path ++ ".part") []).run w = .ok () { w with
        tree := w.tree.put (destination w.directory (path ++ ".part")) (.file f) } ∧
      (writeChunks (path ++ ".part") total (r.body.length + 1) 0 r.body).run { w with
          tree := w.tree.put (destination w.directory (path ++ ".part")) (.file f) } =
        .ok () { w with
          tree := w.tree.put (destination w.directory (path ++ ".part")) (.file g)
          console := shown w.console total texts } := by
  obtain ⟨texts, htexts⟩ := exists_texts hshown (.ofFlag w.console.colored)
  obtain ⟨f, hempty, hf⟩ := exists_write_part h
  obtain ⟨g, hdata, hchunks⟩ := writeChunks_eq_ok (f := f) (w := { w with
    tree := w.tree.put (destination w.directory (path ++ ".part")) (.file f) })
    (FileTree.find_put h.plain h.front h.no_slash h.no_directory) rfl
    (Nat.lt_succ_self r.body.length) ((countersFrom_zero _).symm ▸ htexts)
  exact ⟨f, g, texts, by rw [hdata, hempty, List.nil_append], htexts, hf, hchunks⟩

/-- A body whose progress can be shown is gathered and given its path. -/
lemma gather_eq_ok (hs : Storable w path)
    (hshown : ∀ n, IsMark r.body.length n → Showable total n) :
    ∃ g texts size, g.data = r.body ∧
      (counters r.body.length).mapM (progress? (.ofFlag w.console.colored) total) = some texts ∧
      Figures.size? r.body.length = some size ∧
      (gather path r total).run w = .ok () { w with
        tree := (w.tree.erase (destination w.directory (path ++ ".part"))).put
          (destination w.directory path) (.file g)
        console := Console.logged (Console.closed (shown w.console total texts)) .info
          s!"Downloaded {size} to {path}" } := by
  obtain ⟨f, g, texts, hdata, htexts, hf, hchunks⟩ := exists_gathered hs.beside hshown
  obtain ⟨size, hsize⟩ := Option.isSome_iff_exists.mp (size_isSome hshown)
  have hrename : (Files.rename (path ++ ".part") path).run { w with
      tree := w.tree.put (destination w.directory (path ++ ".part")) (.file g)
      console := shown w.console total texts } = .ok () { w with
        tree := (w.tree.erase (destination w.directory (path ++ ".part"))).put
          (destination w.directory path) (.file g)
        console := shown w.console total texts } :=
    Files.change_eq_ok.mpr
      ⟨_, rename_part hs.beside hs.ne_empty hs.free hs.named g, rfl⟩
  refine ⟨g, texts, size, hdata, htexts, hsize, ?_⟩
  exact (run_bind_of_ok hf).trans <| (run_bind_of_ok hchunks).trans <|
    (run_bind_of_ok hrename).trans <| (run_bind_of_ok (Console.run_finishProgress_empty _)).trans <|
      (run_bind_of_ok (run_sizeText_of_some hsize)).trans (Console.run_log _ _ _)

/-- A body that cannot be stored, or whose progress cannot be shown, spares the path. Progress is
drawn before that if the name beside the path can be written and a first chunk can be shown. -/
lemma gather_eq_error
    (h : ¬ (Storable w path ∧ ∀ n, IsMark r.body.length n → Showable total n)) :
    ∃ e v texts, (gather path r total).run w = .error e v ∧ Spared w path v ∧
      v.console = shown w.console total texts ∧
      (texts ≠ [] ↔ w.tree.IsWritable w.directory (path ++ ".part") ∧ r.body ≠ [] ∧
        Showable total (r.body.take Archive.chunk).length) := by
  by_cases hbeside : w.tree.IsWritable w.directory (path ++ ".part")
  swap
  · cases hwrite : (Files.write (path ++ ".part") []).run w with
    | ok a v => exact absurd ((Files.isWritable_iff_write _).mpr ⟨v, hwrite⟩) hbeside
    | error e v =>
      obtain rfl := Files.write_eq_error hwrite
      exact ⟨e, v, [], run_bind_of_error hwrite, ⟨rfl, rfl, fun _ _ => rfl⟩,
        (shown_nil _ _).symm, iff_of_false (· rfl) fun hw => hbeside hw.1⟩
  by_cases hshown : ∀ n, IsMark r.body.length n → Showable total n
  · -- All has come, but the path cannot be given to it.
    have hstorable : ¬ Storable w path := fun hs => h ⟨hs, hshown⟩
    obtain ⟨f, g, texts, -, htexts, hf, hchunks⟩ := exists_gathered hbeside hshown
    cases hrename : (w.tree.put (destination w.directory (path ++ ".part")) (.file g)).rename
        w.directory (path ++ ".part") path with
    | ok t =>
      obtain ⟨hplain, hfree⟩ := FileTree.not_isDirectory_of_rename hrename
      rw [FileTree.isDirectory, find_put_part hbeside] at hfree
      refine absurd ⟨hbeside, hplain.ne_empty, hfree, fun hdots => ?_⟩ hstorable
      exact absurd hdots (FileTree.rename_eq_ok hrename (by rw [hdots]; decide)).2
    | error problem =>
      have hstopped : (Files.rename (path ++ ".part") path).run { w with
          tree := w.tree.put (destination w.directory (path ++ ".part")) (.file g)
          console := shown w.console total texts } = .error _ _ :=
        Files.change_eq_error.mpr ⟨problem, hrename, rfl, rfl⟩
      refine ⟨_, _, texts, (run_bind_of_ok hf).trans ((run_bind_of_ok hchunks).trans
        (run_bind_of_error hstopped)), spared_put_part hbeside rfl rfl, rfl, ?_⟩
      rw [ne_eq, eq_nil_iff_of_counters htexts]
      exact ⟨fun hb => ⟨hbeside, hb, hshown _ (isMark_first hb)⟩, fun hfirst => hfirst.2.1⟩
  · push Not at hshown
    obtain ⟨n, hn, hnone⟩ := hshown
    have hb : r.body ≠ [] := by
      obtain ⟨hpos, hle, -⟩ := hn
      exact List.length_pos_iff.mp (by omega)
    obtain ⟨f, -, hf⟩ := exists_write_part hbeside
    obtain ⟨g, texts, htexts, hchunks⟩ := writeChunks_eq_error (f := f) (w := { w with
      tree := w.tree.put (destination w.directory (path ++ ".part")) (.file f) })
      (FileTree.find_put hbeside.plain hbeside.front hbeside.no_slash hbeside.no_directory) rfl
      (Nat.lt_succ_self r.body.length)
      ((countersFrom_zero _).symm ▸ mem_counters.mpr hn) hnone
    rw [Nat.zero_add] at htexts
    refine ⟨_, _, texts, (run_bind_of_ok hf).trans (run_bind_of_error hchunks),
      spared_put_part hbeside rfl rfl, rfl, ?_⟩
    rw [ne_eq, htexts, not_not]
    exact ⟨fun hs => ⟨hbeside, hb, hs⟩, fun hfirst => hfirst.2.2⟩

/-- What can be delivered is. -/
lemma download_eq_ok (h : Deliverable w url path r total) :
    ∃ v, (download url path).run w = .ok () v ∧ Delivered w url path r total v := by
  have hs : Storable (requested w url) path := storable_requested_iff.mpr h.storable
  obtain ⟨g, texts, size, hdata, htexts, hsize, hrun⟩ := gather_eq_ok hs h.shown
  have hdownload := run_download url path w
  simp only [h.answered, h.announced] at hdownload
  refine ⟨_, hdownload.trans hrun, ⟨_, _, rfl⟩, ⟨g, ?_, hdata⟩, ?_, fun q hq hq' => ?_,
    texts, size, htexts, hsize, rfl⟩
  · obtain ⟨hpath, -, -⟩ := isWritable_of_part hs.beside hs.ne_empty hs.free
    have hkept {q : List String} (hq : q ∈ places w.directory path) :=
      FileTree.get?_erase_of_ne w.tree (ne_part_of_mem_places hs.beside hq)
    exact FileTree.find_put hpath.plain
      (fun q hq => by rw [hkept (List.dropLast_subset _ hq)]; exact hpath.front q hq)
      hpath.no_slash (by rw [hkept (destination_mem_places _ _)]; exact hpath.no_directory) g
  · have hne := ne_part_of_mem_places hs.beside (destination_mem_places w.directory path)
    refine FileTree.pathExists_of_none ?_
    rw [FileTree.get?_put_of_ne _ _ hne.symm, FileTree.get?_erase_self]
    intro he
    exact hs.beside.no_directory (by simp [he])
  · rw [FileTree.get?_put_of_ne _ _ hq, FileTree.get?_erase_of_ne _ hq']

/-- What cannot be delivered spares the path. -/
lemma download_eq_error (h : ∀ r total, ¬ Deliverable w url path r total) :
    ∃ e v, (download url path).run w = .error e v ∧ Spared w path v := by
  rw [run_download]
  cases hresponse : w.response url with
  | error e => exact ⟨_, _, rfl, rfl, rfl, fun _ _ => rfl⟩
  | ok r =>
    cases htotal : announcedLength r with
    | error cause => simpa only [htotal] using ⟨_, _, rfl, rfl, rfl, fun _ _ => rfl⟩
    | ok total =>
      simp only [htotal]
      obtain ⟨e, v, -, hv, ⟨hd, hf, hframe⟩, -⟩ := gather_eq_error (w := requested w url)
        (fun ⟨hs, hshown⟩ => h r total ⟨hresponse, htotal, storable_requested_iff.mp hs, hshown⟩)
      exact ⟨e, v, hv, hd, hf, hframe⟩

/-! ### Bodies of their announced length -/

/-- A part of a total, or any number of bytes where there is no total, can be shown if both sizes
can be written. -/
lemma showable_iff {n m : ℕ} (h : m = 0 ∨ n ≤ m) :
    Showable m n ↔ n < Figures.sizeLimit ∧ m < Figures.sizeLimit := by
  constructor
  · rintro ⟨hdone, htotal, -⟩
    exact ⟨(Figures.isSome_size?_iff n).mp hdone, (Figures.isSome_size?_iff m).mp htotal⟩
  · rintro ⟨hn, hm⟩
    refine ⟨(Figures.isSome_size?_iff n).mpr hn, (Figures.isSome_size?_iff m).mpr hm, ?_⟩
    rcases h with rfl | hle
    · exact .inl (by simp)
    · exact .inr (Figures.Bar.isSome_of?_of_le (by exact_mod_cast hle))

/-- A body is not delivered whose size cannot be told. -/
lemma not_deliverable_of_size (h : Figures.sizeLimit ≤ r.body.length) :
    ¬ Deliverable w url path r total := by
  rintro ⟨-, -, -, hshown⟩
  have hpos : 0 < Figures.sizeLimit := Nat.mul_pos Binary64.ceiling_pos (by decide)
  have hmark : IsMark r.body.length r.body.length := ⟨by omega, Nat.le_refl _, .inl rfl⟩
  have hsize := (Figures.isSome_size?_iff _).mp (hshown _ hmark).doneText
  omega

/-- In a tree as a system has it, an answer whose body is of its announced length, or that announces
none, is delivered to every path that is not empty and leads to no directory, if the name beside it
can be written and the size of the body can be told. However a download stops, the path is
spared. -/
theorem download_delivers_or_spares (w : World) (url path : String) :
    (w.tree.IsRooted → ∀ r total, w.response url = .ok r → announcedLength r = .ok total →
      total = 0 ∨ total = r.body.length → r.body.length < Figures.sizeLimit →
      (∃ v, (Files.write (path ++ ".part") []).run w = .ok () v) →
      w.tree.isDirectory w.directory path = false → path ≠ "" →
        ∃ v, (download url path).run w = .ok () v ∧ Delivered w url path r total v) ∧
      ∀ e v, (download url path).run w = .error e v → Spared w path v := by
  constructor
  · intro ht r total hr hannounced htotal hsize hwrite hfree hne
    have hbeside := (Files.isWritable_iff_write []).mpr hwrite
    refine download_eq_ok ⟨hr, hannounced,
      ⟨hbeside, hne, hfree, name_ne_dots ht hbeside hne hfree⟩, fun n hn => ?_⟩
    obtain ⟨m, rfl, hm⟩ : ∃ m : ℕ, total = m ∧ (m = 0 ∨ m = r.body.length) := by
      rcases htotal with rfl | rfl
      · exact ⟨0, rfl, .inl rfl⟩
      · exact ⟨_, rfl, .inr rfl⟩
    obtain ⟨-, hle, -⟩ := hn
    exact (showable_iff (by omega)).mpr ⟨by omega, by omega⟩
  · intro e v hv
    by_cases h : ∃ r total, Deliverable w url path r total
    · obtain ⟨r, total, hd⟩ := h
      obtain ⟨u, hu, -⟩ := download_eq_ok hd
      cases hv.symm.trans hu
    · obtain ⟨e', v', hv', hspared⟩ := download_eq_error fun r total hd => h ⟨r, total, hd⟩
      cases hv.symm.trans hv'
      exact hspared

/-- A file that was left beside a path, and an answer of two bytes. -/
def stagedSample : World :=
  { World.sample [(["a.part"], .file ⟨[9], false, 0⟩)] [] with
    network := [("http://h/a", ⟨[1, 2], some "2"⟩)] }

/-- Two bytes are delivered whatever was left beside the path; without an answer it is spared. -/
theorem download_delivers_or_spares_sample :
    (∃ v, (download "http://h/a" "a").run stagedSample = .ok () v ∧
      Delivered stagedSample "http://h/a" "a" ⟨[1, 2], some "2"⟩ 2 v) ∧
    ∃ e v, (download "http://h/b" "a").run stagedSample = .error e v ∧
      Spared stagedSample "a" v := by
  have ht : stagedSample.tree.IsRooted := FileTree.IsRooted.of_entries (by decide +kernel)
  constructor
  · exact (download_delivers_or_spares stagedSample "http://h/a" "a").1 ht ⟨[1, 2], some "2"⟩ 2
      (by decide +kernel) (by decide +kernel) (.inr rfl)
      ((Figures.isSome_size?_iff 2).mp (by decide +kernel)) ⟨_, rfl⟩ (by decide +kernel) (by decide)
  · obtain ⟨e, v, hv⟩ := exists_of_result?_eq_none
      (show (download "http://h/b" "a").result? stagedSample = none by decide +kernel)
    exact ⟨e, v, hv, (download_delivers_or_spares stagedSample "http://h/b" "a").2 e v hv⟩

/-- A body that is too long for its size to be told. -/
def endlessSample : World :=
  { World.sample [] [] with
    network := [("http://h/a", ⟨List.replicate Figures.sizeLimit 0, none⟩)] }

/-- A download stops although the name beside its path can be written and the path is no directory,
where the path is empty, and where the size of the body cannot be told. -/
theorem download_stops_sample :
    ((∃ v, (Files.write ("" ++ ".part") []).run stagedSample = .ok () v) ∧
      stagedSample.tree.isDirectory stagedSample.directory "" = false ∧
      ∃ e v, (download "http://h/a" "").run stagedSample = .error e v) ∧
    (∃ v, (Files.write ("a" ++ ".part") []).run endlessSample = .ok () v) ∧
      endlessSample.tree.isDirectory endlessSample.directory "a" = false ∧
      ∃ e v, (download "http://h/a" "a").run endlessSample = .error e v := by
  refine ⟨⟨exists_of_result? (by decide +kernel), by decide +kernel,
    exists_of_result?_eq_none (by decide +kernel)⟩, ?_, ?_, ?_⟩
  · have hwrite : (World.sample [] []).tree.IsWritable ["w"] ("a" ++ ".part") :=
      (Files.isWritable_iff_write (w := World.sample [] []) []).mpr
        (exists_of_result? (by decide +kernel))
    exact (Files.isWritable_iff_write (w := endlessSample) []).mp hwrite
  · have hfree : (World.sample [] []).tree.isDirectory ["w"] "a" = false := by decide +kernel
    exact hfree
  · have hnot (r : Response) (total : ℤ) :
        ¬ Deliverable endlessSample "http://h/a" "a" r total := by
      intro h
      obtain rfl : ⟨List.replicate Figures.sizeLimit 0, none⟩ = r := by
        have hasked : endlessSample.addressProblem "http://h/a" = none := by decide +kernel
        exact Except.ok.inj ((response_eq_ok hasked rfl).symm.trans h.answered)
      refine absurd h (not_deliverable_of_size ?_)
      simp only [List.length_replicate, le_refl]
    obtain ⟨e, v, hv, -⟩ := download_eq_error hnot
    exact ⟨e, v, hv⟩

/-! ### Bodies that are cut short -/

/-- A download rejects what is cut short: with an answer whose body is shorter than announced it
stops, and the path leads where it did. -/
def RejectsTruncated (w : World) (url path : String) : Prop :=
  ∀ r total, w.response url = .ok r → announcedLength r = .ok total →
    r.body.length < total → ∃ e v, (download url path).run w = .error e v ∧
      v.tree.find v.directory path = w.tree.find w.directory path

/-- A body that is cut short is rejected only where its whole would be, too: where it cannot be
stored at the path, or something has come and the announced length is too great to be told. -/
theorem rejectsTruncated_iff : RejectsTruncated w url path ↔
    ∀ r total, w.response url = .ok r → announcedLength r = .ok total →
      r.body.length < total → Storable w path →
        r.body ≠ [] ∧ Figures.sizeLimit ≤ total := by
  constructor
  · intro h r total hr hannounced hshort hs
    obtain ⟨e, v, hv, -⟩ := h r total hr hannounced hshort
    obtain ⟨m, rfl⟩ : ∃ m : ℕ, total = m := ⟨total.toNat, by omega⟩
    by_contra hshowable
    have hdelivered : Deliverable w url path r m := by
      refine ⟨hr, hannounced, hs, fun n ⟨hpos, hle, _⟩ => ?_⟩
      have hb : r.body ≠ [] := List.length_pos_iff.mp (by omega)
      have hm : ¬ (Figures.sizeLimit : ℤ) ≤ m := fun hm => hshowable ⟨hb, hm⟩
      exact (showable_iff (by omega)).mpr ⟨by omega, by omega⟩
    obtain ⟨u, hu, -⟩ := download_eq_ok hdelivered
    cases hv.symm.trans hu
  · intro h r total hr hannounced hshort
    have hnot (r' : Response) (total' : ℤ) : ¬ Deliverable w url path r' total' := by
      rintro ⟨hr', hannounced', hs, hshown⟩
      cases hr.symm.trans hr'
      cases hannounced.symm.trans hannounced'
      obtain ⟨hb, hlimit⟩ := h r total hr hannounced hshort hs
      have htold := (hshown _ ⟨List.length_pos_iff.mpr hb, Nat.le_refl _, .inl rfl⟩).totalText
      obtain ⟨m, rfl⟩ : ∃ m : ℕ, total = m := ⟨total.toNat, by omega⟩
      have := (Figures.isSome_size?_iff m).mp htold
      omega
    obtain ⟨e, v, hv, hspared⟩ := download_eq_error hnot
    exact ⟨e, v, hv, hspared.found⟩

/-- An address that announces two bytes and answers one. -/
def truncatedSample : World :=
  { World.sample [] [] with network := [("http://h/a.zip", ⟨[1], some "2"⟩)] }

/-- One byte of two becomes the archive. -/
theorem not_rejectsTruncated_sample :
    ¬ RejectsTruncated truncatedSample "http://h/a.zip" "a.zip" := by
  intro h
  obtain ⟨e, v, hv, -⟩ := h ⟨[1], some "2"⟩ 2 (by decide +kernel) (by decide +kernel) (by decide)
  have hdone : (download "http://h/a.zip" "a.zip").result? truncatedSample = some () := by
    decide +kernel
  simp [result?, hv] at hdone

end SourceRecovery.Server
