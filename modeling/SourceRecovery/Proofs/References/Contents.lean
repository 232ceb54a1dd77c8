import Mathlib.Data.List.Forall2
import SourceRecovery.Proofs.References

/-!
# What is collected from the resources of an image

The libraries among the resources are opened one after the other, up to the first that the reader
rejects, and nothing else is. If none is rejected, each declares a name, and the collection has the
names with their endings in the order in which they come first, each with the bytes that come last.
All of this is done before a file is written.
-/

namespace SourceRecovery.References

open SourceRecovery.Action

variable {reader : ImageReader} {platform : Platform} {i : Identity} {r : Resource} {e : ImageError}
  {lib : String × Bytes} {libs named entries : List (String × Bytes)} {opened : List Bytes}

/-! ### The libraries among the resources -/

/-- Whether a resource is a library of a platform: it is embedded, has data, and its name ends as
the libraries of the platform do. -/
def isLibrary (platform : Platform) (r : Resource) : Bool :=
  r.embedded && r.data.isSome &&
    (suffixes platform).any fun suffix => suffix.toList.isSuffixOf r.name.toList

/-- The resources of an image that are libraries of its platform. -/
def embeddedLibraries (i : Identity) : List Resource :=
  i.view.resources.filter (isLibrary i.platform)

/-- A resource is a library of a platform with an ending and some bytes. -/
structure Carries (platform : Platform) (r : Resource) (lib : String × Bytes) : Prop where
  embedded : r.embedded = true
  data : r.data = some lib.2
  mem : lib.1 ∈ suffixes platform
  ends : lib.1.toList <:+ r.name.toList

lemma isLibrary_iff : isLibrary platform r = true ↔ ∃ lib, Carries platform r lib := by
  simp only [isLibrary, Bool.and_eq_true, Option.isSome_iff_exists, List.any_eq_true,
    List.isSuffixOf_iff_suffix]
  constructor
  · rintro ⟨⟨hembedded, data, hdata⟩, suffix, hmem, hends⟩
    exact ⟨(suffix, data), hembedded, hdata, hmem, hends⟩
  · rintro ⟨lib, hembedded, hdata, hmem, hends⟩
    exact ⟨⟨hembedded, lib.2, hdata⟩, lib.1, hmem, hends⟩

/-- No ending of a platform ends another one. -/
lemma suffixes_apart (platform : Platform) : ∀ s ∈ suffixes platform, ∀ t ∈ suffixes platform,
    s.toList <:+ t.toList → s = t := by
  cases platform <;> decide

lemma eq_of_ends {s t : String} {cs : List Char} (hs : s ∈ suffixes platform)
    (ht : t ∈ suffixes platform) (h : s.toList <:+ cs) (h' : t.toList <:+ cs) : s = t := by
  rcases List.suffix_or_suffix_of_suffix h h' with hst | hts
  · exact suffixes_apart platform s hs t ht hst
  · exact (suffixes_apart platform t ht s hs hts).symm

lemma suffix?_eq_some_iff {name suffix : String} : suffix? platform name = some suffix ↔
    suffix ∈ suffixes platform ∧ suffix.toList <:+ name.toList := by
  have hfound {s : String} (h : suffix? platform name = some s) :
      s ∈ suffixes platform ∧ s.toList <:+ name.toList := by
    rw [suffix?] at h
    exact ⟨List.mem_of_find?_eq_some h, List.isSuffixOf_iff_suffix.mp (List.find?_some h :)⟩
  refine ⟨hfound, ?_⟩
  rintro ⟨hmem, hends⟩
  cases hs : suffix? platform name with
  | none => exact absurd (List.isSuffixOf_iff_suffix.mpr hends) (List.find?_eq_none.mp hs _ hmem)
  | some s => rw [eq_of_ends (hfound hs).1 hmem (hfound hs).2 hends]

/-- The library that a resource is. -/
def library? (platform : Platform) (r : Resource) : Option (String × Bytes) := do
  let data ← if r.embedded then r.data else none
  return (← suffix? platform r.name, data)

lemma library?_eq_some_iff : library? platform r = some lib ↔ Carries platform r lib := by
  obtain ⟨suffix, data⟩ := lib
  cases hembedded : r.embedded with
  | false =>
    simp only [library?, hembedded]
    exact ⟨nofun, fun h => by simp [h.embedded] at hembedded⟩
  | true =>
    simp only [library?, hembedded, if_true, Option.bind_eq_bind, Option.bind_eq_some_iff,
      suffix?_eq_some_iff, Option.pure_def, Option.some.injEq, Prod.mk.injEq]
    constructor
    · rintro ⟨data, hdata, suffix, ⟨hmem, hends⟩, rfl, rfl⟩
      exact ⟨hembedded, hdata, hmem, hends⟩
    · rintro ⟨-, hdata, hmem, hends⟩
      exact ⟨data, hdata, suffix, ⟨hmem, hends⟩, rfl, rfl⟩

lemma Carries.unique {lib' : String × Bytes} (h : Carries platform r lib)
    (h' : Carries platform r lib') : lib = lib' :=
  Option.some_inj.mp ((library?_eq_some_iff.mpr h).symm.trans (library?_eq_some_iff.mpr h'))

/-- What the libraries of an image are, in their order. -/
lemma forall₂_libraries (platform : Platform) (rs : List Resource) :
    List.Forall₂ (Carries platform) (rs.filter (isLibrary platform)) (libraries platform rs) := by
  change List.Forall₂ _ _ (rs.filterMap (library? platform))
  induction rs with
  | nil => exact .nil
  | cons r rs ih =>
    cases hlib : library? platform r with
    | none =>
      have hnot : ¬ isLibrary platform r = true := by
        rw [isLibrary_iff]
        rintro ⟨lib, h⟩
        rw [library?_eq_some_iff.mpr h] at hlib
        cases hlib
      rwa [List.filterMap_cons_none hlib, List.filter_cons_of_neg hnot]
    | some lib =>
      have hcarries := library?_eq_some_iff.mp hlib
      rw [List.filterMap_cons_some hlib,
        List.filter_cons_of_pos (isLibrary_iff.mpr ⟨lib, hcarries⟩)]
      exact .cons hcarries ih

/-! ### Opening -/

/-- Open a library, which may have effects of its own, and insert it under the name that it
declares. -/
def place {m : Type → Type} [Monad m] (opening : Bytes → m ImageView)
    (entries : List (String × Bytes)) (lib : String × Bytes) : m (List (String × Bytes)) := do
  let view ← opening lib.2
  return insert entries (view.moduleName ++ lib.1) lib.2

/-- Collecting the libraries of an image where opening may have effects of its own. -/
def collectWith {m : Type → Type} [Monad m] (opening : Bytes → m ImageView) (i : Identity) :
    m (List (String × Bytes)) :=
  (libraries i.platform i.view.resources).foldlM (place opening) []

/-- A reader alone has no other effects than to reject. -/
lemma collectWith_reader (reader : ImageReader) (i : Identity) :
    collectWith (m := Except ImageError) reader i = collect reader i := rfl

/-- A reader that takes notes of the bytes that it opens. -/
def noting (reader : ImageReader) (data : Bytes) :
    ExceptT ImageError (StateM (List Bytes)) ImageView :=
  ExceptT.mk fun opened => (reader data, opened ++ [data])

/-- What comes of inserting libraries, some entries being there, and the notes taken so far. -/
def noted (reader : ImageReader) (libs entries : List (String × Bytes)) (opened : List Bytes) :
    Except ImageError (List (String × Bytes)) × List Bytes :=
  (libs.foldlM (place (noting reader)) entries).run.run opened

/-- Collecting the libraries of an image opens just these bytes, one after the other. -/
def Opens (reader : ImageReader) (i : Identity) (opened : List Bytes) : Prop :=
  (collectWith (noting reader) i).run.run [] = (collect reader i, opened)

lemma noted_cons (lib : String × Bytes) (libs entries : List (String × Bytes))
    (opened : List Bytes) : noted reader (lib :: libs) entries opened = match reader lib.2 with
      | .ok view =>
        noted reader libs (insert entries (view.moduleName ++ lib.1) lib.2) (opened ++ [lib.2])
      | .error e => (.error e, opened ++ [lib.2]) := by
  simp only [noted, List.foldlM_cons, place, noting, ExceptT.run, ExceptT.mk, bind, ExceptT.bind,
    ExceptT.bindCont, StateT.run, StateT.bind]
  cases reader lib.2 with
  | ok view => rfl
  | error e => rfl

/-- Taking notes does not change what is collected. -/
lemma fst_noted (reader : ImageReader) (libs entries : List (String × Bytes))
    (opened : List Bytes) :
    (noted reader libs entries opened).1 =
      libs.foldlM (place (m := Except ImageError) reader) entries := by
  induction libs generalizing entries opened with
  | nil => rfl
  | cons lib libs ih =>
    rw [noted_cons, List.foldlM_cons, place]
    cases reader lib.2 with
    | ok view => exact ih _ _
    | error e => rfl

/-- What is collected, and what is opened for it, can be read off the notes. -/
lemma collect_of_noted {result : Except ImageError (List (String × Bytes))}
    (h : noted reader (libraries i.platform i.view.resources) [] [] = (result, opened)) :
    collect reader i = result ∧ Opens reader i opened := by
  have hfst := fst_noted reader (libraries i.platform i.view.resources) [] []
  rw [h] at hfst
  have hcollect : collect reader i = result := hfst.symm
  refine ⟨hcollect, ?_⟩
  rw [Opens, hcollect]
  exact h

/-! ### Libraries that are read or rejected -/

/-- A reader rejects the data of a resource. -/
def Rejects (reader : ImageReader) (r : Resource) (e : ImageError) : Prop :=
  ∃ data, r.data = some data ∧ reader data = .error e

/-- A resource is a library of a platform whose bytes declare a name. -/
structure Provides (reader : ImageReader) (platform : Platform) (r : Resource)
    (name suffix : String) (data : Bytes) : Prop where
  carries : Carries platform r (suffix, data)
  declared : ∃ view, reader data = .ok view ∧ view.moduleName = name

/-- The entry that a library comes to: its bytes under the name that they declare, with its
ending. -/
def Becomes (reader : ImageReader) (platform : Platform) (r : Resource) (entry : String × Bytes) :
    Prop :=
  ∃ name suffix, Provides reader platform r name suffix entry.2 ∧ entry.1 = name ++ suffix

/-- A library comes to one entry. -/
lemma Becomes.unique (reader : ImageReader) (platform : Platform) :
    Relator.RightUnique (Becomes reader platform) := by
  intro r entry entry' h h'
  obtain ⟨name, suffix, ⟨hcarries, view, hview, rfl⟩, hkey⟩ := h
  obtain ⟨name', suffix', ⟨hcarries', view', hview', rfl⟩, hkey'⟩ := h'
  obtain ⟨rfl, hdata⟩ := Prod.mk.inj (hcarries.unique hcarries')
  rw [← hdata, hview] at hview'
  obtain rfl := Except.ok.inj hview'
  exact Prod.ext (hkey.trans hkey'.symm) hdata

/-- Insert entries one after the other. -/
def insertAll (entries named : List (String × Bytes)) : List (String × Bytes) :=
  named.foldl (fun entries e => insert entries e.1 e.2) entries

lemma Carries.exists_view (h : Carries platform r lib) (hr : ∀ e, ¬ Rejects reader r e) :
    ∃ view, reader lib.2 = .ok view := by
  cases hread : reader lib.2 with
  | ok view => exact ⟨view, rfl⟩
  | error e => exact absurd ⟨lib.2, h.data, hread⟩ (hr e)

/-- Libraries none of which is rejected are all opened, and inserted under their names. -/
lemma noted_of_read {rs : List Resource} (h : List.Forall₂ (Carries platform) rs libs)
    (hrs : ∀ r ∈ rs, ∀ e, ¬ Rejects reader r e) :
    ∃ named, List.Forall₂ (Becomes reader platform) rs named ∧ ∀ entries opened,
      noted reader libs entries opened =
        (.ok (insertAll entries named), opened ++ rs.filterMap Resource.data) := by
  induction h with
  | nil =>
    refine ⟨[], .nil, fun entries opened => ?_⟩
    rw [List.filterMap_nil, List.append_nil]
    rfl
  | @cons r lib rs libs hlib _ ih =>
    obtain ⟨hr, hrs⟩ := List.forall_mem_cons.mp hrs
    obtain ⟨named, hnamed, hnoted⟩ := ih hrs
    obtain ⟨view, hview⟩ := hlib.exists_view hr
    refine ⟨(view.moduleName ++ lib.1, lib.2) :: named,
      .cons ⟨view.moduleName, lib.1, ⟨hlib, view, hview, rfl⟩, rfl⟩ hnamed,
      fun entries opened => ?_⟩
    rw [noted_cons, hview]
    dsimp only
    rw [hnoted, List.filterMap_cons_some hlib.data, List.append_assoc, List.singleton_append]
    rfl

/-- The first library that is rejected is the last to be opened. -/
lemma noted_of_rejects {front back : List Resource}
    (h : List.Forall₂ (Carries platform) (front ++ r :: back) libs)
    (hfront : ∀ q ∈ front, ∀ e, ¬ Rejects reader q e) (hr : Rejects reader r e)
    (entries : List (String × Bytes)) (opened : List Bytes) :
    noted reader libs entries opened =
      (.error e, opened ++ (front ++ [r]).filterMap Resource.data) := by
  -- What is in front is read, one library after the other, with its bytes noted.
  induction front generalizing libs entries opened with
  | nil =>
    obtain ⟨data, hdata, he⟩ := hr
    rw [List.nil_append] at h
    cases h with
    | @cons _ lib _ libs hlib _ =>
      have hbytes : lib.2 = data := Option.some_inj.mp (hlib.data.symm.trans hdata)
      rw [noted_cons, hbytes, he, List.nil_append, List.filterMap_cons_some hdata]
      rfl
  | cons q front ih =>
    obtain ⟨hq, hfront⟩ := List.forall_mem_cons.mp hfront
    rw [List.cons_append] at h
    cases h with
    | @cons _ lib _ libs hlib hlibs =>
      obtain ⟨view, hview⟩ := hlib.exists_view hq
      rw [noted_cons, hview]
      dsimp only
      rw [ih hlibs hfront, List.cons_append, List.filterMap_cons_some hlib.data,
        List.append_assoc, List.singleton_append]

/-! ### Entries -/

lemma insertAll_concat (entries named : List (String × Bytes)) (e : String × Bytes) :
    insertAll entries (named ++ [e]) = insert (insertAll entries named) e.1 e.2 := by
  simp [insertAll]

/-- The names of a collection are in the order in which they come first. -/
lemma keys_insertAll (named : List (String × Bytes)) :
    (insertAll [] named).map Prod.fst = (named.map Prod.fst).eraseDups := by
  induction named using List.reverseRecOn with
  | nil => rfl
  | append_singleton named e ih =>
    rw [insertAll_concat, keys_insert, ih, List.map_append, List.eraseDups_append]
    simp only [List.mem_eraseDups]
    by_cases hmem : e.1 ∈ named.map Prod.fst
    · simp [hmem, List.removeAll]
    · simp [hmem, List.removeAll, List.eraseDups_cons]

lemma lookup_cons_ite (e : String × Bytes) (entries : List (String × Bytes)) (key : String) :
    (e :: entries).lookup key = if key = e.1 then some e.2 else entries.lookup key := by
  rw [List.lookup_cons]
  by_cases hkey : key = e.1
  · simp [hkey]
  · simp [hkey, beq_eq_false_iff_ne.mpr hkey]

/-- Replacing the entries with a name does not matter to other names. -/
lemma lookup_replace (entries : List (String × Bytes)) (name key : String) (data : Bytes) :
    (entries.map fun (n, d) => if n = name then (n, data) else (n, d)).lookup key =
      if key = name then (entries.lookup key).map fun _ => data else entries.lookup key := by
  induction entries with
  | nil => simp
  | cons e entries ih =>
    rw [List.map_cons, lookup_cons_ite, lookup_cons_ite, ih]
    by_cases hn : e.1 = name
    · by_cases hkey : key = name <;> simp [hn, hkey]
    · by_cases hkey : key = e.1 <;> simp [hn, hkey]

/-- What was inserted is looked up under its name, and all else as before. -/
lemma lookup_insert (entries : List (String × Bytes)) (name key : String) (data : Bytes) :
    (insert entries name data).lookup key =
      if key = name then some data else entries.lookup key := by
  have hany : entries.any (·.1 = name) = (entries.lookup name).isSome := by
    rw [Bool.eq_iff_iff, List.lookup_isSome_iff]
    simp only [List.any_eq_true, decide_eq_true_eq, beq_iff_eq, eq_comm (a := name)]
  rw [insert, hany]
  cases hlookup : entries.lookup name with
  | none =>
    rw [Option.isSome_none, if_neg (by simp), List.lookup_append, lookup_cons_ite]
    split_ifs with hkey
    · rw [hkey, hlookup, Option.none_or]
    · rw [List.lookup_nil, Option.or_none]
  | some d =>
    rw [Option.isSome_some, if_pos rfl, lookup_replace]
    split_ifs with hkey
    · rw [hkey, hlookup, Option.map_some]
    · rfl

/-- The last entry with a name counts. -/
lemma lookup_insertAll (named : List (String × Bytes)) (key : String) :
    (insertAll [] named).lookup key = named.reverse.lookup key := by
  induction named using List.reverseRecOn with
  | nil => rfl
  | append_singleton named e ih =>
    rw [insertAll_concat, lookup_insert, ih, List.reverse_append, List.reverse_singleton,
      List.singleton_append, lookup_cons_ite]

/-! ### Keys -/

/-- Two names with endings of a platform are the same key only if they are the same name with the
same ending. -/
lemma key_inj {name name' suffix suffix' : String} (hs : suffix ∈ suffixes platform)
    (hs' : suffix' ∈ suffixes platform) :
    name ++ suffix = name' ++ suffix' ↔ name = name' ∧ suffix = suffix' := by
  constructor
  · intro h
    have hends : suffix.toList <:+ (name' ++ suffix').toList := by
      rw [← h, String.toList_append]
      exact List.suffix_append _ _
    have hends' : suffix'.toList <:+ (name' ++ suffix').toList := by
      rw [String.toList_append]
      exact List.suffix_append _ _
    obtain rfl := eq_of_ends hs hs' hends hends'
    refine ⟨?_, rfl⟩
    rw [← String.toList_inj, String.toList_append, String.toList_append] at h
    exact String.toList_inj.mp (List.append_cancel_right h)
  · rintro ⟨rfl, rfl⟩
    rfl

/-! ### Writing out -/

/-- If collecting fails, writing out fails with at most the directory made. -/
lemma extract_of_collect_error (h : collect reader i = .error e) (directory : String) (w : World) :
    ∃ fault v, (extract reader i directory).run w = .error fault v ∧ w.GrowsAlong directory v ∧
      (fault = .image e ∨ (Files.makeDirectories directory true).run w = .error fault v) := by
  have hgrows := Files.growsAlong_makeDirectoriesTo true (directory.length + 1) directory
  cases hmake : (Files.makeDirectories directory true).run w with
  | error fault v =>
    exact ⟨fault, v, run_bind_of_error hmake, hgrows.of_error hmake, .inr rfl⟩
  | ok a v =>
    refine ⟨.image e, v, ?_, hgrows.of_ok hmake, .inl rfl⟩
    rw [extract, run_bind_of_ok hmake, h]
    rfl

/-! ### What is collected -/

/-- The embedded libraries of an image are collected exactly. Up to the first that the reader
rejects they are opened, in their order, and nothing else is; with that one collecting fails, and
writing out ends with no file touched, and at most the directory made. If none is rejected, all are
opened, and the entries have the keys in the order in which they come first, each with the bytes of
the last library that has it. Libraries share a key if and only if they declare the same name and
have the same ending. -/
theorem collect_exact (reader : ImageReader) (i : Identity) :
    (∀ front r back e, embeddedLibraries i = front ++ r :: back →
      (∀ q ∈ front, ∀ e', ¬ Rejects reader q e') → Rejects reader r e →
        collect reader i = .error e ∧ Opens reader i ((front ++ [r]).filterMap Resource.data) ∧
          ∀ directory w, ∃ fault v, (extract reader i directory).run w = .error fault v ∧
            w.GrowsAlong directory v ∧ (fault = .image e ∨
              (Files.makeDirectories directory true).run w = .error fault v)) ∧
    ((∀ r ∈ embeddedLibraries i, ∀ e, ¬ Rejects reader r e) → ∃ named entries,
      List.Forall₂ (Becomes reader i.platform) (embeddedLibraries i) named ∧
        collect reader i = .ok entries ∧
        Opens reader i ((embeddedLibraries i).filterMap Resource.data) ∧
        entries.map Prod.fst = (named.map Prod.fst).eraseDups ∧
        ∀ key, entries.lookup key = named.reverse.lookup key) ∧
    ∀ r r' name name' suffix suffix' data data',
      Provides reader i.platform r name suffix data →
      Provides reader i.platform r' name' suffix' data' →
        (name ++ suffix = name' ++ suffix' ↔ name = name' ∧ suffix = suffix') := by
  have hlibraries := forall₂_libraries i.platform i.view.resources
  refine ⟨fun front r back e hembedded hfront hr => ?_, fun hnone => ?_, ?_⟩
  · rw [← embeddedLibraries, hembedded] at hlibraries
    obtain ⟨hcollect, hopens⟩ :=
      collect_of_noted (noted_of_rejects hlibraries hfront hr [] [])
    exact ⟨hcollect, hopens, extract_of_collect_error hcollect⟩
  · obtain ⟨named, hnamed, hnoted⟩ := noted_of_read hlibraries hnone
    obtain ⟨hcollect, hopens⟩ := collect_of_noted (hnoted [] [])
    exact ⟨named, _, hnamed, hcollect, hopens, keys_insertAll named, lookup_insertAll named⟩
  · intro r r' name name' suffix suffix' data data' h h'
    exact key_inj h.carries.mem h'.carries.mem

/-- An image with three libraries and a resource that is none. -/
def mixedIdentity : Identity := { hostIdentity .linux ".so" with
  view := hostView .linux [⟨"a.so", true, some [1]⟩, ⟨"b.so", true, some [2]⟩,
    ⟨"c.txt", true, some [3]⟩, ⟨"d.dll", true, some [4]⟩] }

lemma embeddedLibraries_mixedIdentity : embeddedLibraries mixedIdentity =
    [⟨"a.so", true, some [1]⟩, ⟨"b.so", true, some [2]⟩, ⟨"d.dll", true, some [4]⟩] := by
  decide

lemma provides_host (platform : Platform) (resource name suffix : String) (data : Bytes)
    (hdata : data ≠ []) (hmem : suffix ∈ suffixes platform)
    (hends : suffix.toList <:+ resource.toList) :
    Provides (hostReader platform name ".so") platform ⟨resource, true, some data⟩ name suffix
      data :=
  ⟨⟨rfl, rfl, hmem, hends⟩, _, if_neg hdata, rfl⟩

/-- A reader that knows no images. -/
def rejecting : ImageReader := fun _ => .error .noMetadata

/-- A reader that rejects everything is asked for the first library only. Of three libraries that
declare the same name, two have the same ending and come to one entry, with the bytes of the
second. -/
theorem collect_exact_sample :
    (collect rejecting mixedIdentity = .error .noMetadata ∧
      Opens rejecting mixedIdentity [[1]]) ∧
    (∃ entries, collect (hostReader .linux "Lib" ".so") mixedIdentity = .ok entries ∧
      Opens (hostReader .linux "Lib" ".so") mixedIdentity [[1], [2], [4]] ∧
      entries.map Prod.fst = ["Lib.so", "Lib.dll"] ∧ entries.lookup "Lib.so" = some [2]) ∧
    ("Lib" ++ ".so" = "Lib" ++ ".dll" ↔ "Lib" = "Lib" ∧ ".so" = ".dll") := by
  have ha := provides_host .linux "a.so" "Lib" ".so" [1] (by simp) (by decide)
    (by decide)
  have hb := provides_host .linux "b.so" "Lib" ".so" [2] (by simp) (by decide)
    (by decide)
  have hd := provides_host .linux "d.dll" "Lib" ".dll" [4] (by simp) (by decide)
    (by decide)
  refine ⟨?_, ?_, (collect_exact (hostReader .linux "Lib" ".so") mixedIdentity).2.2 _ _ _ _ _ _ _ _
    ha hd⟩
  · obtain ⟨hcollect, hopens, -⟩ := (collect_exact rejecting mixedIdentity).1 [] _ _ _
      embeddedLibraries_mixedIdentity nofun ⟨[1], rfl, rfl⟩
    exact ⟨hcollect, hopens⟩
  · have hread : ∀ r ∈ embeddedLibraries mixedIdentity, ∀ e,
        ¬ Rejects (hostReader .linux "Lib" ".so") r e := by
      rintro r - e ⟨data, -, he⟩
      rw [hostReader] at he
      split_ifs at he
    obtain ⟨named, entries, hnamed, hcollect, hopens, hkeys, hlookup⟩ :=
      (collect_exact (hostReader .linux "Lib" ".so") mixedIdentity).2.1 hread
    rw [embeddedLibraries_mixedIdentity] at hnamed hopens
    have hbecome : List.Forall₂ (Becomes (hostReader .linux "Lib" ".so") .linux)
        [⟨"a.so", true, some [1]⟩, ⟨"b.so", true, some [2]⟩, ⟨"d.dll", true, some [4]⟩]
        [("Lib" ++ ".so", [1]), ("Lib" ++ ".so", [2]), ("Lib" ++ ".dll", [4])] :=
      .cons ⟨_, _, ha, rfl⟩ (.cons ⟨_, _, hb, rfl⟩ (.cons ⟨_, _, hd, rfl⟩ .nil))
    obtain rfl := (Becomes.unique _ _).forall₂ hnamed hbecome
    refine ⟨entries, hcollect, hopens, hkeys, ?_⟩
    rw [hlookup]
    rfl

end SourceRecovery.References
