import SourceRecovery.Proofs.Catalog.Numbering
import SourceRecovery.Proofs.Files.Operations
import SourceRecovery.Proofs.Json.Newlines
import SourceRecovery.Proofs.Json.Reading

/-!
# Loading a catalog

No entry of a catalog is lost or misnumbered. A file in which an object repeats a name is refused;
a catalog that is accepted has every member of the object of builds as a build, under the number
that the name of the member reads as, whatever the order of the members.
-/

namespace SourceRecovery

/-! ### Repeated names -/

namespace Json

/-- An object in a value, at any depth, repeats a name. -/
inductive RepeatsName : Json → Prop
  | here {ms : List (String × Json)} (h : ¬(ms.map (·.1)).Nodup) : RepeatsName (.object ms)
  | item {v : Json} {vs : List Json} (hv : v ∈ vs) (h : RepeatsName v) : RepeatsName (.list vs)
  | member {m : String × Json} {ms : List (String × Json)} (hm : m ∈ ms) (h : RepeatsName m.2) :
      RepeatsName (.object ms)

lemma repeatsName_list {vs : List Json} :
    RepeatsName (.list vs) ↔ ∃ v ∈ vs, RepeatsName v := by
  constructor
  · rintro ⟨⟩
    exact ⟨_, ‹_›, ‹_›⟩
  · rintro ⟨v, hv, h⟩
    exact .item hv h

lemma repeatsName_object {ms : List (String × Json)} :
    RepeatsName (.object ms) ↔ (∃ m ∈ ms, RepeatsName m.2) ∨ ¬(ms.map (·.1)).Nodup := by
  constructor
  · intro h
    cases h with
    | here h => exact .inr h
    | member hm h => exact .inl ⟨_, hm, h⟩
  · rintro (⟨m, hm, h⟩ | h)
    · exact .member hm h
    · exact .here h

/-- The order of its members does not matter to what an object repeats. -/
lemma repeatsName_object_of_perm {ms ms' : List (String × Json)} (h : ms'.Perm ms) :
    RepeatsName (.object ms') ↔ RepeatsName (.object ms) := by
  simp only [repeatsName_object, h.mem_iff, (h.map (·.1)).nodup_iff]

lemma repeated?_go_eq_none {seen : List String} {ms : List (String × Json)} :
    repeated?.go seen ms = none ↔ (∀ m ∈ ms, m.1 ∉ seen) ∧ (ms.map (·.1)).Nodup := by
  induction ms generalizing seen with
  | nil => simp [repeated?.go]
  | cons m ms ih =>
    obtain ⟨name, v⟩ := m
    rw [repeated?.go, List.map_cons, List.nodup_cons, List.forall_mem_cons]
    by_cases hseen : name ∈ seen
    · simp [hseen]
    · rw [if_neg (by simpa using hseen), ih]
      simp only [List.mem_cons, not_or, List.mem_map, not_exists, not_and, hseen,
        not_false_eq_true, true_and, forall_and]
      tauto

lemma repeated?_eq_none {ms : List (String × Json)} :
    repeated? ms = none ↔ (ms.map (·.1)).Nodup := by
  simp [repeated?, repeated?_go_eq_none]

end Json

namespace Catalog

open Json

/-- A check refuses a name where one is repeated, and nothing else. -/
inductive Refuses (repeats : Prop) (r : Except CatalogError Unit) : Prop
  | accepted (hr : r = .ok ()) (h : ¬repeats)
  | refused {key : String} (hr : r = .error (.repeatedKey key)) (h : repeats)

/-- One check after another refuses what one of them refuses. -/
lemma Refuses.bind {p q : Prop} {r s : Except CatalogError Unit} (hp : Refuses p r)
    (hq : Refuses q s) : Refuses (p ∨ q) (r >>= fun _ => s) := by
  cases hp with
  | refused hr hp => exact .refused (by rw [hr]; rfl) (.inl hp)
  | accepted hr hp =>
    cases hq with
    | accepted hs hq => exact .accepted (by rw [hr]; exact hs) (not_or.mpr ⟨hp, hq⟩)
    | refused hs hq => exact .refused (by rw [hr]; exact hs) (.inr hq)

lemma refuses_checkNames (ms : List (String × Json)) :
    Refuses (¬(ms.map (·.1)).Nodup) (checkNames ms) := by
  rw [checkNames, ← repeated?_eq_none]
  cases hr : repeated? ms with
  | none => exact .accepted rfl (not_not.mpr rfl)
  | some key => exact .refused rfl nofun

mutual

/-- The names of all objects in a value are checked. -/
lemma refuses_checked : ∀ v : Json, Refuses v.RepeatsName (checked checkNames v)
  | .null | .bool _ | .int _ | .real _ | .text _ => .accepted rfl nofun
  | .list vs => by
    rw [repeatsName_list, checked]
    exact refuses_checkedItems vs
  | .object ms => by
    rw [repeatsName_object, checked]
    exact (refuses_checkedMembers ms).bind (refuses_checkNames ms)

lemma refuses_checkedItems : ∀ vs : List Json,
    Refuses (∃ v ∈ vs, v.RepeatsName) (checkedItems checkNames vs)
  | [] => .accepted rfl nofun
  | v :: vs => by
    simp only [List.mem_cons, exists_eq_or_imp, checkedItems]
    exact (refuses_checked v).bind (refuses_checkedItems vs)

lemma refuses_checkedMembers : ∀ ms : List (String × Json),
    Refuses (∃ m ∈ ms, m.2.RepeatsName) (checkedMembers checkNames ms)
  | [] => .accepted rfl nofun
  | (name, v) :: ms => by
    simp only [List.mem_cons, exists_eq_or_imp, checkedMembers]
    exact (refuses_checked v).bind (refuses_checkedMembers ms)

end

/-! ### What a value describes -/

variable {ms ms' : List (String × Json)} {entries entries' : List (String × Json)}
  {c : Catalog} {urlTemplate : Option String}

/-- An object describes a catalog by its member of builds and by its templates. -/
lemma ofJson_eq_ok : ofJson (.object ms) urlTemplate = .ok c ↔
    (∃ entries, member? ms "builds" = some (.object entries) ∧ entries ≠ [] ∧
      buildsOf entries = .ok c.builds) ∧
    firstOf ((urlTemplate.map Json.text).getD .null)
      ((member? ms "url_template").getD .null) = some c.urlTemplate ∧
    c.fileTemplate = (member? ms "file_template").getD (.text defaultFileTemplate) := by
  obtain ⟨builds, url, file⟩ := c
  constructor
  · intro h
    simp only [ofJson] at h
    split at h
    · rename_i hmember
      obtain ⟨found, hfound, hrest⟩ := exists_of_bind_eq_ok h
      split at hrest
      · cases hrest
      · rename_i hurl
        cases hrest
        exact ⟨⟨_, hmember, nofun, hfound⟩, hurl, rfl⟩
    · cases h
  · rintro ⟨⟨entries, hmember, hne, hbuilds⟩, hurl, hfile⟩
    obtain ⟨m, entries, rfl⟩ := List.exists_cons_of_ne_nil hne
    simp only [ofJson, hmember]
    rw [hbuilds]
    dsimp only [bind, Except.bind]
    rw [hurl]
    exact congrArg (fun file => Except.ok (Catalog.mk builds url file)) hfile.symm

variable {front back : List (String × Json)}

lemma member?_middle {name : String} {v : Json} (h : ∀ m ∈ front, m.1 ≠ name) :
    member? (front ++ (name, v) :: back) name = some v := by
  refine List.lookup_eq_some_iff.mpr ⟨front, back, rfl, fun m hm => ?_⟩
  simpa using (h m hm).symm

lemma member?_other {name other : String} (v v' : Json) (h : other ≠ name) :
    member? (front ++ (name, v) :: back) other = member? (front ++ (name, v') :: back) other := by
  have hb : (other == name) = false := by simpa using h
  simp [member?, List.lookup_append, List.lookup_cons, hb]

/-- A catalog comes from an object with one member of builds. -/
lemma exists_builds {data : Json} (h : ofJson data urlTemplate = .ok c)
    (hdistinct : ¬data.RepeatsName) :
    ∃ front entries back, data = .object (front ++ ("builds", .object entries) :: back) ∧
      (∀ m ∈ front ++ back, m.1 ≠ "builds") ∧ buildsOf entries = .ok c.builds := by
  obtain ⟨ms, rfl⟩ : ∃ ms, data = .object ms := by
    cases data with
    | object ms => exact ⟨ms, rfl⟩
    | _ => cases h
  obtain ⟨⟨entries, hmember, -, hbuilds⟩, -⟩ := ofJson_eq_ok.mp h
  obtain ⟨front, back, rfl, -⟩ := List.lookup_eq_some_iff.mp hmember
  refine ⟨front, entries, back, rfl, fun m hm heq => ?_, hbuilds⟩
  have hnodup : ((front ++ ("builds", .object entries) :: back).map (·.1)).Nodup :=
    not_not.mp fun hrepeat => hdistinct (.here hrepeat)
  rw [List.map_append, List.map_cons, List.nodup_middle, List.nodup_cons, ← List.map_append]
    at hnodup
  exact hnodup.1 (List.mem_map.mpr ⟨m, hm, heq⟩)

/-- The order of the builds does not matter to the catalog. -/
lemma ofJson_of_perm (hfront : ∀ m ∈ front, m.1 ≠ "builds") (hp : entries'.Perm entries)
    (h : ofJson (.object (front ++ ("builds", .object entries) :: back)) urlTemplate = .ok c) :
    ofJson (.object (front ++ ("builds", .object entries') :: back)) urlTemplate = .ok c := by
  obtain ⟨⟨found, hmember, hne, hbuilds⟩, hurl, hfile⟩ := ofJson_eq_ok.mp h
  rw [member?_middle hfront] at hmember
  cases hmember
  refine ofJson_eq_ok.mpr ⟨⟨entries', member?_middle hfront, ?_, buildsOf_of_perm hbuilds hp⟩,
    ?_, ?_⟩
  · rintro rfl
    exact hne hp.symm.eq_nil
  · rwa [member?_other _ (.object entries) (by decide)]
  · rwa [member?_other _ (.object entries) (by decide)]

/-- The order of the builds does not matter to what is repeated. -/
lemma repeatsName_of_perm (hp : entries'.Perm entries)
    (h : RepeatsName (.object (front ++ ("builds", .object entries') :: back))) :
    RepeatsName (.object (front ++ ("builds", .object entries) :: back)) := by
  cases h with
  | here h =>
    refine .here ?_
    simpa only [List.map_append, List.map_cons] using h
  | member hm h =>
    simp only [List.mem_append, List.mem_cons] at hm
    rcases hm with hm | rfl | hm
    · exact .member (List.mem_append_left _ hm) h
    · exact .member (List.mem_append_right _ (.head _)) ((repeatsName_object_of_perm hp).mp h)
    · exact .member (List.mem_append_right _ (.tail _ hm)) h

/-! ### Loading -/

/-- A catalog has the members of an object as its builds, each under the number that its name reads
as, and no other builds. -/
structure Numbers (c : Catalog) (entries : List (String × Json)) : Prop where
  length : c.builds.length = entries.length
  build : ∀ k < entries.length, ∃ key v b, numbered entries (k : Int) = [(key, v)] ∧
    buildOf k v = .ok b ∧ c.resolve k = .ok b
  noBuild : ∀ i : Int, (toString i.natAbs).length ≤ Numeral.maxDigits →
    ¬(0 ≤ i ∧ i < entries.length) → c.resolve i = .error (.noBuild i)

lemma numbers_of_buildsOf (h : buildsOf entries = .ok c.builds) : c.Numbers entries := by
  obtain ⟨hlength, hbuild⟩ := exists_numbered_of_buildsOf h
  refine ⟨hlength, fun k hk => ?_, fun i hlong hi => ?_⟩
  · obtain ⟨key, v, b, hkey, hv, hb⟩ := hbuild k hk
    refine ⟨key, v, b, hkey, hv, ?_⟩
    have hnonneg : ¬(k : Int) < 0 := by omega
    rw [resolve, build?, if_neg hnonneg, Int.toNat_natCast, hb]
  · have hnone : c.build? i = none := by
      unfold build?
      split_ifs with h0
      · rfl
      · refine List.getElem?_eq_none ?_
        omega
    have hwrite : Numeral.write i = .ok (toString i) := if_neg (not_lt.mpr hlong)
    rw [resolve, hnone, hwrite]

variable {w v : World} {path text : String} {data : Json}

/-- Where a file holds the text of a value, the value is read unless an object in it repeats a
name. -/
lemma load_eq (hread : w.tree.read w.directory path = .ok (Text.encode text))
    (ht : IsText text data) : (load (some path) urlTemplate).run w =
      match checked checkNames data with
      | .ok () => (Action.ofExcept id (ofJson data urlTemplate)).run w
      | .error cause => .error (.catalog cause) w := by
  have hparse : parse path (Text.unifyNewlines text) =
      match checked checkNames data with
      | .ok () => .ok data
      | .error cause => fail cause := by
    rw [parse, read_eq ht.unifyNewlines]
    cases checked checkNames data <;> rfl
  have hload : (load (some path) urlTemplate).run w =
      (Action.ofExcept id (parse path (Text.unifyNewlines text)) >>= fun data =>
        Action.ofExcept id (ofJson data urlTemplate)).run w :=
    Action.run_bind_of_ok (Files.run_readText hread)
  rw [hload, hparse]
  cases checked checkNames data <;> rfl

lemma load_of_repeatsName (hread : w.tree.read w.directory path = .ok (Text.encode text))
    (ht : IsText text data) (h : data.RepeatsName) : ∃ key,
      (load (some path) urlTemplate).run w = .error (.catalog (.repeatedKey key)) w := by
  cases refuses_checked data with
  | accepted hr hnot => exact absurd h hnot
  | @refused key hr _ =>
    refine ⟨key, ?_⟩
    rw [load_eq hread ht, hr]

lemma load_eq_ok (hread : w.tree.read w.directory path = .ok (Text.encode text))
    (ht : IsText text data) : (load (some path) urlTemplate).run w = .ok c v ↔
      v = w ∧ ¬data.RepeatsName ∧ ofJson data urlTemplate = .ok c := by
  rw [load_eq hread ht]
  cases refuses_checked data with
  | accepted hr hnot =>
    rw [hr]
    dsimp only
    rw [Action.ofExcept_eq_ok]
    tauto
  | refused hr h =>
    rw [hr]
    simp [h]

/-- A text in which an object repeats a name is refused. A catalog that is loaded from a text has
every member of the object of builds as a build, under the number that its name reads as, and
the same catalog is loaded from every text with these members in another order. -/
theorem load_numbers_members (hread : w.tree.read w.directory path = .ok (Text.encode text))
    (ht : IsText text data) :
    (data.RepeatsName → ∃ key,
      (load (some path) urlTemplate).run w = .error (.catalog (.repeatedKey key)) w) ∧
    ∀ c v, (load (some path) urlTemplate).run w = .ok c v →
      ∃ front entries back, data = .object (front ++ ("builds", .object entries) :: back) ∧
        (∀ m ∈ front ++ back, m.1 ≠ "builds") ∧ c.Numbers entries ∧
        ∀ w' path' text' entries', entries'.Perm entries →
          w'.tree.read w'.directory path' = .ok (Text.encode text') →
          IsText text' (.object (front ++ ("builds", .object entries') :: back)) →
          (load (some path') urlTemplate).run w' = .ok c w' := by
  refine ⟨load_of_repeatsName hread ht, fun c v hload => ?_⟩
  obtain ⟨-, hdistinct, hdata⟩ := (load_eq_ok hread ht).mp hload
  obtain ⟨front, entries, back, rfl, hne, hbuilds⟩ := exists_builds hdata hdistinct
  refine ⟨front, entries, back, rfl, hne, numbers_of_buildsOf hbuilds, ?_⟩
  intro w' path' text' entries' hp hread' ht'
  have hfront : ∀ m ∈ front, m.1 ≠ "builds" := fun m hm => hne m (List.mem_append_left _ hm)
  exact (load_eq_ok hread' ht').mpr
    ⟨rfl, fun h => hdistinct (repeatsName_of_perm hp h), ofJson_of_perm hfront hp hdata⟩

/-! ### A catalog of two builds -/

/-- The builds of a catalog in descending order, under names with a sign and with a zero in
front. -/
def sampleEntries : List (String × Json) := [("+1", .text "b"), ("00", .text "a")]

def sampleData : Json := .object [("builds", .object sampleEntries), ("url_template", .text "u")]

def sampleText : String :=
  "\x7b\"builds\": \x7b\"+1\": \"b\", \"00\": \"a\"\x7d, \"url_template\": \"u\"\x7d"

lemma isText_sample : IsText sampleText sampleData := by
  have hblank : IsBlank [' '] := by simp [IsBlank, isSpace]
  have hquoted : ∀ s ∈ ["builds", "+1", "b", "00", "a", "url_template", "u"],
      IsQuoted ('"' :: (s.toList ++ ['"'])) s := by
    intro s hs
    refine isQuoted_of_ordinary ?_ ?_ <;>
    · revert s
      decide
  have hmember : ∀ depth, ∀ key ∈ ["+1", "00", "url_template"], ∀ s ∈ ["b", "a", "u"],
      IsMember (Writes depth) ('"' :: (key.toList ++ ['"']) ++
        ([] ++ ':' :: ([' '] ++ '"' :: (s.toList ++ ['"'])))) (key, .text s) := by
    intro depth key hkey s hs
    have hvalue : IsSimple ('"' :: (s.toList ++ ['"'])) (.text s) := .text (hquoted s (by aesop))
    refine .mk (hquoted key (by aesop)) isBlank_nil hblank ?_
    cases depth with
    | zero => exact hvalue
    | succ => exact .simple hvalue
  have hentries := IsSequence.cons (hmember 990 "+1" (by simp) "b" (by simp)) isBlank_nil hblank
    (.last (hmember 990 "00" (by simp) "a" (by simp)) isBlank_nil)
  have hbuilds := IsMember.mk (W := Writes 991) (hquoted "builds" (by simp)) isBlank_nil hblank
    (.members isBlank_nil hentries)
  have hmembers := IsSequence.cons hbuilds isBlank_nil hblank
    (.last (hmember 991 "url_template" (by simp) "u" (by simp)) isBlank_nil)
  exact ⟨[], _, [], isBlank_nil, .members isBlank_nil hmembers, isBlank_nil, by simp [sampleText]⟩

/-- The world with the file. -/
def sampleWorld : World := World.sample [(["c"], .file ⟨Text.encode sampleText, false, 0⟩)] []

theorem load_numbers_members_sample :
    sampleWorld.tree.read sampleWorld.directory "c" = .ok (Text.encode sampleText) ∧
      IsText sampleText sampleData ∧
      ∃ c front entries back, (load (some "c") none).run sampleWorld = .ok c sampleWorld ∧
        sampleData = .object (front ++ ("builds", .object entries) :: back) ∧
        c.Numbers entries := by
  have hread : sampleWorld.tree.read sampleWorld.directory "c" = .ok (Text.encode sampleText) := by
    rfl
  have hbuilds : buildsOf sampleEntries = .ok [⟨"a", none⟩, ⟨"b", none⟩] := by
    refine buildsOf_eq_ok.mpr ⟨[(1, .text "b"), (0, .text "a")], ?_, .swap _ _ _, ?_⟩
    · exact .cons ⟨by decide, rfl⟩ (.cons ⟨by decide, rfl⟩ .nil)
    · exact .cons rfl (.cons rfl .nil)
  have hdata : ofJson sampleData none = .ok ⟨[⟨"a", none⟩, ⟨"b", none⟩], .text "u",
      .text defaultFileTemplate⟩ :=
    ofJson_eq_ok.mpr ⟨⟨sampleEntries, rfl, nofun, hbuilds⟩, rfl, rfl⟩
  have hdistinct : ¬sampleData.RepeatsName := by
    cases refuses_checked sampleData with
    | accepted _ h => exact h
    | refused hr _ => cases hr
  have hload := (load_eq_ok hread isText_sample).mpr ⟨rfl, hdistinct, hdata⟩
  obtain ⟨front, entries, back, heq, -, hnumbers, -⟩ :=
    (load_numbers_members hread isText_sample).2 _ _ hload
  exact ⟨hread, isText_sample, _, front, entries, back, hload, heq, hnumbers⟩

end Catalog

end SourceRecovery
