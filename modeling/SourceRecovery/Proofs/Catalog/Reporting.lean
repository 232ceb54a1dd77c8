import SourceRecovery.Proofs.Catalog.Numbering
import SourceRecovery.Proofs.Template.Overreach

/-!
# Which flaws of a catalog are reported

What is wrong with a catalog is meant to be told by a catalog error. Four things escape: catalog
data that are no object, a version with an integer that is too long to be shown, an archive number
that is none, and a template that asks for a part or a form that its values do not have. Whatever
else is wrong, with the data or with a template, is told.
-/

namespace SourceRecovery.Catalog

open Template (Overreaches Unflawed)

variable {α : Type} {entries : List (String × Json)} {keyed : List (Int × Json)}
  {data template v : Json} {b : Build} {urlTemplate : Option String}

/-- A fault that is no catalog error. -/
def Unreported (e : Fault) : Prop := ∀ cause, e ≠ .catalog cause

/-- A result, or a catalog error in its place. -/
def Reported (r : Result α) : Prop := ∀ e, r = .error e → ∃ cause, e = .catalog cause

lemma reported_iff {r : Result α} : Reported r ↔ ¬ FailsWith Unreported r := by
  simp only [Reported, FailsWith, Unreported, not_exists, not_and, not_forall, not_not]

/-- Whether a fault is a catalog error. -/
def isOfCatalog : Fault → Bool
  | .catalog _ => true
  | _ => false

lemma unreported_of {e : Fault} (h : isOfCatalog e = false) : Unreported e := by
  rintro cause rfl
  cases h

@[simp] lemma not_unreported (cause : CatalogError) : ¬ Unreported (.catalog cause) :=
  fun h => h cause rfl

@[simp] lemma not_failsWith_fail (cause : CatalogError) :
    ¬ FailsWith Unreported (fail cause : Result α) := by
  simp [fail]

/-- What is checked first is reported where it does not hold. -/
lemma failsWith_guarded {p : Prop} [Decidable p] {cause : CatalogError} {f : Unit → Result α} :
    FailsWith Unreported (if p then fail cause >>= f else f ()) ↔
      ¬p ∧ FailsWith Unreported (f ()) := by
  by_cases hp : p
  · simp [hp, failsWith_bind, fail]
  · simp [hp]

/-! ### Archive numbers -/

/-- A value that is no archive number: a container, a number without a whole part, or a text that
does not read as a number. -/
inductive NoNumber : Json → Prop
  | list (items : List Json) : NoNumber (.list items)
  | object (members : List (String × Json)) : NoNumber (.object members)
  | infinite (negative : Bool) : NoNumber (.real (.infinite negative))
  | undefined : NoNumber (.real .undefined)
  | text {s : String} {cause : NumeralError} (h : Numeral.read s = .error cause) :
      NoNumber (.text s)

lemma failsWith_archiveOf : FailsWith Unreported (archiveOf v) ↔ NoNumber v := by
  constructor
  · intro h
    unfold archiveOf at h
    split at h
    case h_7 s =>
      cases hs : Numeral.read s with
      | ok n => simp [hs] at h
      | error cause => exact .text hs
    case h_5 negative => exact .infinite negative
    case h_6 => exact .undefined
    case h_8 items => exact .list items
    case h_9 members => exact .object members
    all_goals exact absurd h (not_failsWith_ok _)
  · intro h
    cases h with
    | text h =>
      rw [archiveOf, h]
      exact failsWith_error.mpr (unreported_of rfl)
    | list | object | infinite | undefined => exact failsWith_error.mpr (unreported_of rfl)

/-! ### Versions -/

/-- A value holds an integer, at any depth, that is too long to be shown. -/
inductive HoldsTooLong : Json → Prop
  | int {n : Int} (h : Numeral.maxDigits < Numeral.length n) : HoldsTooLong (.int n)
  | item {v : Json} {vs : List Json} (hv : v ∈ vs) (h : HoldsTooLong v) : HoldsTooLong (.list vs)
  | member {m : String × Json} {ms : List (String × Json)} (hm : m ∈ ms) (h : HoldsTooLong m.2) :
      HoldsTooLong (.object ms)

lemma holdsTooLong_int {n : Int} :
    HoldsTooLong (.int n) ↔ Numeral.maxDigits < Numeral.length n := by
  constructor
  · rintro ⟨h⟩
    exact h
  · exact .int

lemma holdsTooLong_list {vs : List Json} : HoldsTooLong (.list vs) ↔ ∃ v ∈ vs, HoldsTooLong v := by
  constructor
  · rintro ⟨⟩
    exact ⟨_, ‹_›, ‹_›⟩
  · rintro ⟨v, hv, h⟩
    exact .item hv h

lemma holdsTooLong_object {ms : List (String × Json)} :
    HoldsTooLong (.object ms) ↔ ∃ m ∈ ms, HoldsTooLong m.2 := by
  constructor
  · rintro ⟨⟩
    exact ⟨_, ‹_›, ‹_›⟩
  · rintro ⟨m, hm, h⟩
    exact .member hm h

lemma failsWith_write {n : Int} :
    FailsWith (fun _ => True) (Numeral.write n) ↔ Numeral.maxDigits < Numeral.length n := by
  unfold Numeral.write
  split_ifs with h <;> simp [h]

mutual

/-- Whatever a value holds is shown with it. -/
lemma failsWith_quoted : ∀ v : Json, FailsWith (fun _ => True) v.quoted ↔ HoldsTooLong v
  | .null | .bool true | .bool false | .real _ | .text _ => iff_of_false (not_failsWith_ok _) nofun
  | .int n => by rw [Json.quoted, failsWith_write, holdsTooLong_int]
  | .list vs => by
    rw [Json.quoted, failsWith_bind_pure, failsWith_quotedItems vs, holdsTooLong_list]
  | .object ms => by
    rw [Json.quoted, failsWith_bind_pure, failsWith_quotedMembers ms, holdsTooLong_object]

lemma failsWith_quotedItems : ∀ vs : List Json,
    FailsWith (fun _ => True) (Json.quotedItems vs) ↔ ∃ v ∈ vs, HoldsTooLong v
  | [] => iff_of_false (not_failsWith_ok _) nofun
  | v :: vs => by
    simp only [Json.quotedItems, failsWith_true_bind, failsWith_quoted v,
      failsWith_quotedItems vs, List.mem_cons, exists_eq_or_imp]

lemma failsWith_quotedMembers : ∀ ms : List (String × Json),
    FailsWith (fun _ => True) (Json.quotedMembers ms) ↔ ∃ m ∈ ms, HoldsTooLong m.2
  | [] => iff_of_false (not_failsWith_ok _) nofun
  | (name, v) :: ms => by
    simp only [Json.quotedMembers, failsWith_true_bind, failsWith_quoted v,
      failsWith_quotedMembers ms, List.mem_cons, exists_eq_or_imp]

end

lemma failsWith_shown : FailsWith (fun _ => True) v.shown ↔ HoldsTooLong v := by
  cases v with
  | text s => exact iff_of_false (not_failsWith_ok s) nofun
  | _ => exact failsWith_quoted _

lemma versionOf_eq_error {e : Fault} (h : versionOf v = .error e) : Unreported e := by
  unfold versionOf at h
  split at h
  · cases h
  · cases h
    exact unreported_of rfl

lemma failsWith_versionOf : FailsWith Unreported (versionOf v) ↔ HoldsTooLong v := by
  rw [← failsWith_shown, versionOf]
  cases v.shown with
  | ok text => simp
  | error cause => exact iff_of_true (failsWith_error.mpr (unreported_of rfl)) (by simp)

/-! ### Members -/

/-- A member that does not describe the build that it is for: its version cannot be shown, or its
archive number is none. -/
inductive Misdescribes : Json → Prop
  | version {members : List (String × Json)} {version : Json}
      (hversion : Json.member? members "version" = some version) (h : HoldsTooLong version) :
      Misdescribes (.object members)
  | archive {members : List (String × Json)} {version : Json}
      (hversion : Json.member? members "version" = some version)
      (h : NoNumber ((Json.member? members "archive").getD .null)) : Misdescribes (.object members)
  | bare {entry : Json} (hentry : ∀ members, entry ≠ .object members) (h : HoldsTooLong entry) :
      Misdescribes entry

lemma failsWith_buildOf {k : ℕ} : FailsWith Unreported (buildOf k v) ↔ Misdescribes v := by
  constructor
  · intro h
    unfold buildOf at h
    split at h
    · rename_i members
      split at h
      · exact absurd h (not_failsWith_fail _)
      · rename_i version hversion
        rcases failsWith_bind.mp h with hshown | ⟨text, -, harchive⟩
        · exact .version hversion (failsWith_versionOf.mp hshown)
        · exact .archive hversion (failsWith_archiveOf.mp (failsWith_bind_pure.mp harchive))
    · rename_i hentry
      exact .bare hentry (failsWith_versionOf.mp (failsWith_bind_pure.mp h))
  · intro h
    cases h with
    | version hversion h =>
      simp only [buildOf, hversion]
      exact failsWith_bind.mpr (.inl (failsWith_versionOf.mpr h))
    | @archive members version hversion h =>
      simp only [buildOf, hversion]
      cases hshown : versionOf version with
      | error e => exact failsWith_error.mpr (versionOf_eq_error hshown)
      | ok text => exact failsWith_bind_pure.mpr (failsWith_archiveOf.mpr h)
    | bare hentry h =>
      cases v with
      | object members => exact absurd rfl (hentry members)
      | _ => exact failsWith_bind_pure.mpr (failsWith_versionOf.mpr h)

/-! ### Builds -/

/-- The value under a number. -/
def valueAt (keyed : List (Int × Json)) (k : ℕ) : Json := (keyed.lookup (k : Int)).getD .null

/-- Values under the numbers from zero on, of which the first that is no build misdescribes it. -/
def HasBadBuild (keyed : List (Int × Json)) : Prop :=
  (keyed.map (·.1)).Perm (fromZero keyed.length) ∧
    ∃ k < keyed.length, (∀ i < k, ∃ b, buildOf i (valueAt keyed i) = .ok b) ∧
      Misdescribes (valueAt keyed k)

lemma range_eq_append_cons {n k : ℕ} {front back : List ℕ} :
    List.range n = front ++ k :: back ↔
      k < n ∧ front = List.range k ∧ back = List.range' (k + 1) (n - k - 1) := by
  simp only [List.range_eq_range', List.range'_eq_append_iff, eq_comm (a := k :: back),
    List.range'_eq_cons_iff, Nat.zero_add, Nat.mul_one]
  constructor
  · rintro ⟨_, -, rfl, rfl, hk, rfl⟩
    exact ⟨Nat.lt_of_sub_pos hk, rfl, rfl⟩
  · rintro ⟨hk, rfl, rfl⟩
    exact ⟨k, hk.le, rfl, rfl, Nat.sub_pos_of_lt hk, rfl⟩

/-- A traversal of the numbers below a bound fails at the first that has no result. -/
lemma failsWith_mapM_range {β : Type} {P : Fault → Prop} {f : ℕ → Result β} {n : ℕ} :
    FailsWith P ((List.range n).mapM f) ↔
      ∃ k < n, (∀ i < k, ∃ b, f i = .ok b) ∧ FailsWith P (f k) := by
  rw [failsWith_mapM]
  constructor
  · rintro ⟨front, k, back, heq, hfront, h⟩
    obtain ⟨hk, rfl, -⟩ := range_eq_append_cons.mp heq
    exact ⟨k, hk, fun i hi => hfront i (List.mem_range.mpr hi), h⟩
  · rintro ⟨k, hk, hfront, h⟩
    exact ⟨List.range k, k, _, range_eq_append_cons.mpr ⟨hk, rfl, rfl⟩,
      fun i hi => hfront i (List.mem_range.mp hi), h⟩

lemma failsWith_arranged : FailsWith Unreported (arranged keyed) ↔ HasBadBuild keyed := by
  unfold arranged
  dsimp only
  rw [failsWith_guarded, failsWith_guarded, not_not, not_not, List.length_map, HasBadBuild,
    ← mergeSort_eq_fromZero, failsWith_mapM_range]
  simp only [failsWith_buildOf]
  constructor
  · rintro ⟨-, hsorted, hbad⟩
    exact ⟨hsorted, hbad⟩
  · rintro ⟨hsorted, hbad⟩
    have hnodup := (mergeSort_eq_fromZero.mp hsorted).nodup_iff.mpr (nodup_fromZero _)
    refine ⟨?_, hsorted, hbad⟩
    rw [eraseDups_of_nodup hnodup, List.length_map]

/-- A name that does not read as a number is reported. -/
lemma not_failsWith_keyedOf (m : String × Json) : ¬ FailsWith Unreported (keyedOf m) := by
  rw [keyedOf, failsWith_bind_pure]
  unfold keyOf
  cases Numeral.read m.1 <;> simp

lemma failsWith_buildsOf : FailsWith Unreported (buildsOf entries) ↔
    ∃ keyed, List.Forall₂ IsKeyed entries keyed ∧ HasBadBuild keyed := by
  rw [buildsOf_eq, failsWith_bind, failsWith_mapM]
  simp only [not_failsWith_keyedOf, and_false, exists_false, false_or, mapM_eq_ok, keyedOf_eq_ok,
    failsWith_arranged]

lemma not_failsWith_buildsOf_nil : ¬ FailsWith Unreported (buildsOf []) := by
  rw [failsWith_buildsOf]
  rintro ⟨_, ⟨⟩, -, k, hk, -⟩
  exact absurd hk k.not_lt_zero

/-- With an object, only its builds can fail: a member that is missing is reported. -/
lemma failsWith_ofJson_object {members : List (String × Json)} :
    FailsWith Unreported (ofJson (.object members) urlTemplate) ↔
      ∃ entries, Json.member? members "builds" = some (.object entries) ∧
        FailsWith Unreported (buildsOf entries) := by
  simp only [ofJson]
  split
  · rename_i m ms hmember
    rw [failsWith_bind]
    constructor
    · rintro (h | ⟨builds, -, h⟩)
      · exact ⟨m :: ms, hmember, h⟩
      · split at h
        · exact absurd h (not_failsWith_fail _)
        · exact absurd h (not_failsWith_pure _)
    · rintro ⟨entries, hentries, h⟩
      cases hmember.symm.trans hentries
      exact .inl h
  · rename_i hnone
    refine iff_of_false (by simp [fail, failsWith_bind]) ?_
    rintro ⟨_ | ⟨m, ms⟩, hentries, h⟩
    · exact not_failsWith_buildsOf_nil h
    · exact hnone m ms hentries

/-- Reading a catalog fails without a catalog error if and only if the data are no object, or a
member of the object of builds misdescribes its build. -/
lemma failsWith_ofJson : FailsWith Unreported (ofJson data urlTemplate) ↔
    (∀ members, data ≠ .object members) ∨
      ∃ members entries keyed, data = .object members ∧
        Json.member? members "builds" = some (.object entries) ∧
        List.Forall₂ IsKeyed entries keyed ∧ HasBadBuild keyed := by
  by_cases hobject : ∃ members, data = .object members
  · obtain ⟨members, rfl⟩ := hobject
    rw [failsWith_ofJson_object]
    simp only [failsWith_buildsOf]
    constructor
    · rintro ⟨entries, hmember, keyed, hkeyed, hbad⟩
      exact .inr ⟨members, entries, keyed, rfl, hmember, hkeyed, hbad⟩
    · rintro (h | ⟨_, entries, keyed, heq, hmember, hkeyed, hbad⟩)
      · exact absurd rfl (h members)
      · cases heq
        exact ⟨entries, hmember, keyed, hkeyed, hbad⟩
  · have hnone : ∀ members, data ≠ .object members := fun members h => hobject ⟨members, h⟩
    refine iff_of_true ?_ (.inl hnone)
    cases data with
    | object members => exact absurd rfl (hnone members)
    | _ => exact failsWith_error.mpr (unreported_of rfl)

section Objects

variable [Template.Objects]

/-! ### Templates -/

/-- A template with its fields replaced by the values of a build. -/
def filled (template : Json) (b : Build) : Result String :=
  match template with
  | .text s =>
    match Template.expand (values b) s with
    | .ok expanded => return expanded
    | .error (.flawed flaw) => fail (.badTemplate s flaw)
    | .error .noMember => throw .noMember
    | .error .wrongKind => throw .wrongKind
    | .error .outOfRange => throw .outOfRange
  | _ => throw .noMember

lemma expand_eq : expand template b = asksForArchive template >>= fun asks =>
    if asks && b.archive.isNone then fail (.noArchive b.version) >>= fun () => filled template b
    else filled template b := rfl

/-- A flaw of a template is reported, and no other failure is. -/
lemma failsWith_filled_text (s : String) :
    FailsWith Unreported (filled (.text s) b) ↔ Overreaches (values b) 2 s.toList := by
  rw [← Template.failsWith_expand]
  simp only [filled]
  cases Template.expand (values b) s with
  | ok expanded => simp
  | error cause =>
    cases cause with
    | flawed flaw => simp
    | noMember | wrongKind | outOfRange =>
      exact iff_of_true (failsWith_error.mpr (unreported_of rfl)) (failsWith_error.mpr nofun)

lemma failsWith_filled : FailsWith Unreported (filled template b) ↔
    ∀ s, template = .text s → Overreaches (values b) 2 s.toList := by
  cases template with
  | text s =>
    rw [failsWith_filled_text]
    exact ⟨fun h _ heq => by cases heq; exact h, fun h => h s rfl⟩
  | _ => exact iff_of_true (failsWith_error.mpr (unreported_of rfl)) nofun

omit [Template.Objects] in
/-- What cannot be searched for a field is no text, and this is not reported. -/
lemma asksForArchive_eq_error {e : Fault} (h : asksForArchive template = .error e) :
    Unreported e ∧ ∀ s, template ≠ .text s := by
  cases template with
  | text | list | object => cases h
  | null | bool | int | real =>
    cases h
    exact ⟨unreported_of rfl, nofun⟩

/-- A template that cannot be used for a build: no text at all, or a text that overreaches. A
template that asks for the archive number of a build that has none is not looked at further. -/
structure Escaping (template : Json) (b : Build) : Prop where
  unasked : asksForArchive template = .ok true → b.archive ≠ none
  overreaches : ∀ s, template = .text s → Overreaches (values b) 2 s.toList

lemma failsWith_expand : FailsWith Unreported (expand template b) ↔ Escaping template b := by
  rw [expand_eq]
  cases hasks : asksForArchive template with
  | error e =>
    obtain ⟨he, htext⟩ := asksForArchive_eq_error hasks
    refine iff_of_true (failsWith_error.mpr he) ⟨?_, fun s hs => absurd hs (htext s)⟩
    rw [hasks]
    exact nofun
  | ok asks =>
    have hunasked : ¬(asks && b.archive.isNone) = true ↔
        (asksForArchive template = .ok true → b.archive ≠ none) := by
      simp [hasks]
    have hguarded : FailsWith Unreported
          (if asks && b.archive.isNone then fail (.noArchive b.version) >>= fun () =>
            filled template b else filled template b) ↔
        ¬(asks && b.archive.isNone) = true ∧ FailsWith Unreported (filled template b) :=
      failsWith_guarded
    refine hguarded.trans ?_
    rw [hunasked, failsWith_filled]
    exact ⟨fun ⟨hu, ho⟩ => ⟨hu, ho⟩, fun ⟨hu, ho⟩ => ⟨hu, ho⟩⟩

/-! ### Catalogs -/

/-- Reading a catalog, and naming what is downloaded of any of its builds, has a result or reports
what is wrong. -/
structure ReportsFlaws (data : Json) (urlTemplate : Option String) : Prop where
  reading : Reported (ofJson data urlTemplate)
  use : ∀ c, ofJson data urlTemplate = .ok c → ∀ b ∈ c.builds,
    Reported (c.urlOf b) ∧ Reported (c.stemOf b)

/-- What is wrong with catalog data and not reported: they are no object, the first member that is
no build misdescribes it, or a template cannot be used for a build. -/
inductive Escapes (data : Json) (urlTemplate : Option String) : Prop
  | noObject (h : ∀ members, data ≠ .object members)
  | build {members entries : List (String × Json)} {keyed : List (Int × Json)}
      (hdata : data = .object members)
      (hmember : Json.member? members "builds" = some (.object entries))
      (hkeyed : List.Forall₂ IsKeyed entries keyed) (h : HasBadBuild keyed)
  | template {c : Catalog} {b : Build} (hc : ofJson data urlTemplate = .ok c) (hb : b ∈ c.builds)
      (h : Escaping c.urlTemplate b ∨ Escaping c.fileTemplate b)

end Objects

/-- A build with a text for its archive number. -/
def unnumbered : Json := .object [("version", .text "1"), ("archive", .text "x")]

/-- The catalog of this build. -/
def unnumberedData : Json :=
  .object [("url_template", .text "u"), ("builds", .object [("0", unnumbered)])]

end SourceRecovery.Catalog
