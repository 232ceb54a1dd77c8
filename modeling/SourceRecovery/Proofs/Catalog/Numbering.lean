import Mathlib.Data.List.Perm.Basic
import Mathlib.Data.List.Sort
import SourceRecovery.Catalog.Basic
import SourceRecovery.Proofs.Files.Tree

/-!
# The numbers of builds

The builds of a catalog are the members of an object, each under the number that its name reads
as. Where builds are accepted, every number below the number of members is read from exactly one
name, and the order of the members does not matter.
-/

namespace SourceRecovery.Catalog

variable {entries entries' : List (String × Json)} {builds : List Build}
  {keyed keyed' : List (Int × Json)}

/-- The members whose name reads as a number. -/
def numbered (entries : List (String × Json)) (k : Int) : List (String × Json) :=
  entries.filter fun m => Numeral.read m.1 = .ok k

/-- A value under the number that the name of a member reads as. -/
def IsKeyed (m : String × Json) (e : Int × Json) : Prop := Numeral.read m.1 = .ok e.1 ∧ m.2 = e.2

/-! ### Reading the names -/

/-- A traversal succeeds if every element has a result, and gives these results in order. -/
lemma mapM_eq_ok {α β ε : Type} {f : α → Except ε β} {as : List α} {bs : List β} :
    as.mapM f = .ok bs ↔ List.Forall₂ (fun a b => f a = .ok b) as bs := by
  induction as generalizing bs with
  | nil => cases bs <;> simp [pure, Except.pure]
  | cons a as ih =>
    rw [List.mapM_cons]
    cases hf : f a with
    | error e => cases bs <;> simp [bind, Except.bind, hf]
    | ok b =>
      cases hm : as.mapM f with
      | error e => cases bs <;> simp [bind, Except.bind, ← ih, hm]
      | ok tail => cases bs <;> simp [bind, Except.bind, pure, Except.pure, ← ih, hf, hm]

/-- A member as a value under a number. -/
def keyedOf (m : String × Json) : Result (Int × Json) := return (← keyOf m.1, m.2)

lemma keyedOf_eq_ok {m : String × Json} {e : Int × Json} : keyedOf m = .ok e ↔ IsKeyed m e := by
  obtain ⟨n, v⟩ := e
  unfold keyedOf keyOf IsKeyed
  cases Numeral.read m.1 <;> simp [fail, bind, Except.bind, pure, Except.pure]

/-! ### Putting the builds in order -/

/-- The numbers from zero on that builds have. -/
def fromZero (n : ℕ) : List Int := (List.range n).map Int.ofNat

lemma nodup_fromZero (n : ℕ) : (fromZero n).Nodup :=
  List.nodup_range.map fun _ _ => Int.ofNat.inj

lemma mem_fromZero {n : ℕ} {k : Int} : k ∈ fromZero n ↔ ∃ i < n, (i : Int) = k := by
  simp [fromZero]

/-- Numbers are sorted into those from zero on if they are these numbers in some order. -/
lemma mergeSort_eq_fromZero {ks : List Int} {n : ℕ} :
    ks.mergeSort = fromZero n ↔ ks.Perm (fromZero n) := by
  constructor
  · intro h
    exact h ▸ (List.mergeSort_perm ks _).symm
  · intro h
    have hsorted : (fromZero n).SortedLE := by
      rw [List.sortedLE_iff_pairwise, fromZero, List.pairwise_map]
      exact List.pairwise_le_range.imp Int.ofNat_le.mpr
    exact List.Perm.eq_of_sortedLE List.sortedLE_mergeSort hsorted
      ((List.mergeSort_perm ks _).trans h)

lemma eraseDups_of_nodup {ks : List Int} (h : ks.Nodup) : ks.eraseDups = ks := by
  induction ks with
  | nil => rfl
  | cons k ks ih =>
    obtain ⟨hk, hks⟩ := List.nodup_cons.mp h
    have hfilter : (ks.filter fun b => !b == k) = ks := by
      refine List.filter_eq_self.mpr fun b hb => ?_
      have hne : b ≠ k := fun heq => hk (heq ▸ hb)
      simpa using hne
    rw [List.eraseDups_cons, hfilter, ih hks]

/-- The builds that values under numbers describe. -/
def arranged (keyed : List (Int × Json)) : Result (List Build) := do
  let keys := keyed.map (·.1)
  if keys.eraseDups.length ≠ keys.length then fail .collidingKeys
  let sorted := keys.mergeSort
  if sorted ≠ (List.range keys.length).map Int.ofNat then fail (.gap sorted)
  (List.range keys.length).mapM fun k => buildOf k ((keyed.lookup (k : Int)).getD .null)

lemma buildsOf_eq : buildsOf entries = entries.mapM keyedOf >>= arranged := rfl

/-- Values under the numbers from zero on, in any order, that describe builds. -/
def AreBuilds (keyed : List (Int × Json)) (builds : List Build) : Prop :=
  (keyed.map (·.1)).Perm (fromZero keyed.length) ∧
    List.Forall₂ (fun (k : ℕ) b => buildOf k ((keyed.lookup (k : Int)).getD .null) = .ok b)
      (List.range keyed.length) builds

/-- What is checked first does not hold where there is a result. -/
lemma guarded_eq_ok {α : Type} {p : Prop} [Decidable p] {cause : CatalogError}
    {f : Unit → Result α} {a : α} :
    (if p then fail cause >>= f else f ()) = .ok a ↔ ¬p ∧ f () = .ok a := by
  by_cases hp : p
  · simp [hp, fail, bind, Except.bind]
  · simp [hp]

lemma arranged_eq_ok : arranged keyed = .ok builds ↔ AreBuilds keyed builds := by
  unfold arranged
  dsimp only
  rw [guarded_eq_ok, guarded_eq_ok, not_not, not_not, List.length_map, AreBuilds,
    ← mergeSort_eq_fromZero, ← mapM_eq_ok]
  constructor
  · rintro ⟨-, hsorted, hm⟩
    exact ⟨hsorted, hm⟩
  · rintro ⟨hsorted, hm⟩
    have hnodup := (mergeSort_eq_fromZero.mp hsorted).nodup_iff.mpr (nodup_fromZero _)
    -- Sorted into the numbers from zero on, the names cannot collide: the second check implies
    -- the first.
    refine ⟨?_, hsorted, hm⟩
    rw [eraseDups_of_nodup hnodup, List.length_map]

/-- Builds are accepted if every name reads as a number, these are the numbers from zero on, and
each of the values describes a build. -/
lemma buildsOf_eq_ok : buildsOf entries = .ok builds ↔
    ∃ keyed, List.Forall₂ IsKeyed entries keyed ∧ AreBuilds keyed builds := by
  rw [buildsOf_eq]
  constructor
  · intro h
    obtain ⟨keyed, hm, harranged⟩ := exists_of_bind_eq_ok h
    refine ⟨keyed, ?_, arranged_eq_ok.mp harranged⟩
    simpa only [mapM_eq_ok, keyedOf_eq_ok] using hm
  · rintro ⟨keyed, hkeyed, hbuilds⟩
    have hm : entries.mapM keyedOf = .ok keyed := by simpa only [mapM_eq_ok, keyedOf_eq_ok]
    rw [hm]
    exact arranged_eq_ok.mpr hbuilds

/-! ### The number of a member -/

/-- Where every number is there once, it is the number of one value only. -/
lemma exists_append {k : Int} {v : Json} (h : (keyed.map (·.1)).Nodup) (hmem : (k, v) ∈ keyed) :
    ∃ front back, keyed = front ++ (k, v) :: back ∧ ∀ e ∈ front ++ back, e.1 ≠ k := by
  obtain ⟨front, back, rfl⟩ := List.append_of_mem hmem
  refine ⟨front, back, rfl, fun e he heq => ?_⟩
  rw [List.map_append, List.map_cons, List.nodup_middle, List.nodup_cons, ← List.map_append] at h
  exact h.1 (List.mem_map.mpr ⟨e, he, heq⟩)

lemma lookup_eq_some {k : Int} {v : Json} (h : (keyed.map (·.1)).Nodup) :
    keyed.lookup k = some v ↔ (k, v) ∈ keyed := by
  rw [List.lookup_eq_some_iff]
  constructor
  · rintro ⟨front, back, rfl, -⟩
    simp
  · intro hmem
    obtain ⟨front, back, heq, hne⟩ := exists_append h hmem
    refine ⟨front, back, heq, fun e he => ?_⟩
    simpa using (hne e (List.mem_append_left _ he)).symm

/-- The members that read as a number are those whose values are under it. -/
lemma forall₂_numbered (h : List.Forall₂ IsKeyed entries keyed) (k : Int) :
    List.Forall₂ IsKeyed (numbered entries k) (keyed.filter fun e => e.1 = k) := by
  induction h with
  | nil => exact .nil
  | @cons m e entries keyed hme _ ih =>
    have hiff : Numeral.read m.1 = .ok k ↔ e.1 = k := by rw [hme.1, Except.ok.injEq]
    simp only [numbered, List.filter_cons, decide_eq_true_eq, hiff]
    split_ifs
    · exact .cons hme ih
    · exact ih

/-- A number that is there once is read from exactly one name. -/
lemma exists_numbered {k : Int} {v : Json} (h : List.Forall₂ IsKeyed entries keyed)
    (hnodup : (keyed.map (·.1)).Nodup) (hmem : (k, v) ∈ keyed) :
    ∃ key, numbered entries k = [(key, v)] := by
  have hfilter : (keyed.filter fun e => e.1 = k) = [(k, v)] := by
    obtain ⟨front, back, rfl, hne⟩ := exists_append hnodup hmem
    have hfront : (front.filter fun e => e.1 = k) = [] :=
      List.filter_eq_nil_iff.mpr fun e he => by simpa using hne e (List.mem_append_left _ he)
    have hback : (back.filter fun e => e.1 = k) = [] :=
      List.filter_eq_nil_iff.mpr fun e he => by simpa using hne e (List.mem_append_right _ he)
    simp [hfront, hback]
  have hforall := forall₂_numbered h k
  rw [hfilter] at hforall
  obtain ⟨⟨key, _⟩, rest, ⟨-, rfl⟩, hrest, heq⟩ := List.forall₂_cons_right_iff.mp hforall
  cases hrest
  exact ⟨key, heq⟩

/-- Every number below the number of members is read from the name of exactly one member, and the
build under it is made from the value of this member. -/
theorem exists_numbered_of_buildsOf (h : buildsOf entries = .ok builds) :
    builds.length = entries.length ∧ ∀ k < entries.length, ∃ key v b,
      numbered entries (k : Int) = [(key, v)] ∧ buildOf k v = .ok b ∧ builds[k]? = some b := by
  obtain ⟨keyed, hkeyed, hnumbers, hbuilds⟩ := buildsOf_eq_ok.mp h
  have hnodup := hnumbers.nodup_iff.mpr (nodup_fromZero _)
  have hlength : builds.length = entries.length := by
    rw [hkeyed.length_eq, ← hbuilds.length_eq, List.length_range]
  refine ⟨hlength, fun k hk => ?_⟩
  have hmem : (k : Int) ∈ keyed.map (·.1) :=
    hnumbers.mem_iff.mpr (mem_fromZero.mpr ⟨k, hkeyed.length_eq ▸ hk, rfl⟩)
  obtain ⟨⟨_, v⟩, he, rfl⟩ := List.mem_map.mp hmem
  obtain ⟨key, hkey⟩ := exists_numbered hkeyed hnodup he
  have hk' : k < keyed.length := hkeyed.length_eq ▸ hk
  have hb : k < builds.length := hlength ▸ hk
  have hbuild := hbuilds.get (i := k) (by simpa using hk') hb
  simp only [List.get_eq_getElem, List.getElem_range, (lookup_eq_some hnodup).mpr he,
    Option.getD_some] at hbuild
  exact ⟨key, v, builds[k], hkey, hbuild, List.getElem?_eq_getElem hb⟩

/-! ### The order of the members -/

/-- Members in another order have the same values under the same numbers. -/
lemma lookup_of_perm {k : Int} (h : keyed'.Perm keyed) (hnodup : (keyed.map (·.1)).Nodup) :
    keyed'.lookup k = keyed.lookup k := by
  have hnodup' := (h.map (·.1)).nodup_iff.mpr hnodup
  ext v
  rw [lookup_eq_some hnodup, lookup_eq_some hnodup', h.mem_iff]

/-- The order of the members does not matter. -/
lemma AreBuilds.of_perm (h : AreBuilds keyed builds) (hp : keyed'.Perm keyed) :
    AreBuilds keyed' builds := by
  obtain ⟨hnumbers, hbuilds⟩ := h
  have hnodup := hnumbers.nodup_iff.mpr (nodup_fromZero _)
  refine ⟨?_, ?_⟩
  · rw [hp.length_eq]
    exact (hp.map _).trans hnumbers
  · simpa only [hp.length_eq, lookup_of_perm hp hnodup] using hbuilds

/-- Members in any order are accepted as the same builds. -/
theorem buildsOf_of_perm (h : buildsOf entries = .ok builds) (hp : entries'.Perm entries) :
    buildsOf entries' = .ok builds := by
  obtain ⟨keyed, hkeyed, hbuilds⟩ := buildsOf_eq_ok.mp h
  obtain ⟨keyed', hkeyed', hp'⟩ := List.perm_comp_forall₂ hp hkeyed
  exact buildsOf_eq_ok.mpr ⟨keyed', hkeyed', hbuilds.of_perm hp'⟩

end SourceRecovery.Catalog
