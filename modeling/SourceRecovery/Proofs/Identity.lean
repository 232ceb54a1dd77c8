import Mathlib.Data.List.Basic
import SourceRecovery.Identity
import SourceRecovery.Proofs.Files.Path

/-!
# Names of project directories

The directory of a project is named after the identity of its image. Dots and dashes stand between
the parts of the name, and a dash is the sign of a negative number as well: even so every part can
be read off, since a number goes on as long as there are digits.
-/

namespace SourceRecovery

open SourceRecovery.Path

variable {m n : Int} {c d : Char} {cs ds : List Char}

/-- A part in front of a mark is told from what follows if neither mark is in the other part. -/
lemma append_cons_inj_of_marks {xs ys : List Char} (hx : d ∉ xs) (hy : c ∉ ys) :
    xs ++ c :: cs = ys ++ d :: ds ↔ xs = ys ∧ c = d ∧ cs = ds := by
  constructor
  · intro h
    rcases List.append_eq_append_iff.mp h with ⟨more, rfl, hrest⟩ | ⟨more, rfl, hrest⟩
    · cases more with
      | nil => simpa using hrest
      | cons x more =>
        obtain ⟨rfl, -⟩ := List.cons_eq_cons.mp hrest
        simp at hy
    · cases more with
      | nil => simpa [eq_comm] using hrest
      | cons x more =>
        obtain ⟨rfl, -⟩ := List.cons_eq_cons.mp hrest
        simp at hx
  · rintro ⟨rfl, rfl, rfl⟩
    rfl

/-! ### The text of a number -/

/-- The text of a number has its digits, after a dash if it is negative. -/
lemma toList_repr (n : Int) : n.repr.toList =
    if 0 ≤ n then Nat.toDigits 10 n.toNat else '-' :: Nat.toDigits 10 (-n).toNat := by
  rw [Int.repr_eq_if]
  split_ifs <;> simp

lemma isDigit_of_mem_toDigits {k : Nat} (h : c ∈ Nat.toDigits 10 k) : c.isDigit = true :=
  Nat.isDigit_of_mem_toDigits (by decide) (by decide) h

/-- The digits of a number can be read back. -/
lemma toDigits_injective : Function.Injective (Nat.toDigits 10) := by
  intro k l h
  calc
    k = Nat.ofDigitChars 10 (Nat.toDigits 10 k) 0 := Nat.ofDigitChars_ten_toDigits.symm
    _ = Nat.ofDigitChars 10 (Nat.toDigits 10 l) 0 := by rw [h]
    _ = l := Nat.ofDigitChars_ten_toDigits

lemma toList_repr_injective : Function.Injective fun n : Int => n.repr.toList := by
  intro m n h
  have hsign (k l : Nat) : Nat.toDigits 10 k ≠ '-' :: Nat.toDigits 10 l := by
    intro hkl
    have hdash : '-' ∈ Nat.toDigits 10 k := by simp [hkl]
    exact absurd (isDigit_of_mem_toDigits hdash) (by decide)
  simp only [toList_repr] at h
  split_ifs at h
  · have := toDigits_injective h
    omega
  · exact absurd h (hsign _ _)
  · exact absurd h.symm (hsign _ _)
  · have := toDigits_injective (List.cons_eq_cons.mp h).2
    omega

/-- After its first character, which may be a sign, the text of a number has digits only. -/
lemma exists_repr_eq_cons (n : Int) :
    ∃ first rest, n.repr.toList = first :: rest ∧ (first = '-' ∨ first.isDigit = true) ∧
      ∀ c ∈ rest, c.isDigit = true := by
  rw [toList_repr]
  split_ifs
  · obtain ⟨first, rest, hdigits⟩ :=
      List.exists_cons_of_ne_nil (Nat.toDigits_ne_nil (n := n.toNat) (b := 10))
    have hall {c : Char} (hc : c ∈ first :: rest) : c.isDigit = true :=
      isDigit_of_mem_toDigits (hdigits ▸ hc)
    exact ⟨first, rest, hdigits, .inr (hall (.head _)), fun c hc => hall (.tail _ hc)⟩
  · exact ⟨'-', _, rfl, .inl rfl, fun c hc => isDigit_of_mem_toDigits hc⟩

lemma mem_repr (h : c ∈ n.repr.toList) : c = '-' ∨ c.isDigit = true := by
  obtain ⟨first, rest, hn, hfirst, hrest⟩ := exists_repr_eq_cons n
  rw [hn] at h
  rcases List.mem_cons.mp h with rfl | h
  · exact hfirst
  · exact .inr (hrest c h)

/-- A number that ends in front of some character can be told from all that begins with it. -/
lemma repr_append_cons_inj (hc : c.isDigit = false) (hd : d.isDigit = false) :
    m.repr.toList ++ c :: cs = n.repr.toList ++ d :: ds ↔ m = n ∧ c = d ∧ cs = ds := by
  constructor
  · intro h
    obtain ⟨first, rest, hm, -, hrest⟩ := exists_repr_eq_cons m
    obtain ⟨first', rest', hn, -, hrest'⟩ := exists_repr_eq_cons n
    have hnot {x : Char} {r : List Char} (hx : x.isDigit = false)
        (hr : ∀ y ∈ r, y.isDigit = true) : x ∉ r := by
      intro hmem
      simp [hr x hmem] at hx
    rw [hm, hn, List.cons_append, List.cons_append] at h
    obtain ⟨rfl, htail⟩ := List.cons_eq_cons.mp h
    obtain ⟨rfl, hmarks⟩ :=
      (append_cons_inj_of_marks (hnot hd hrest) (hnot hc hrest')).mp htail
    exact ⟨toList_repr_injective (hm.trans hn.symm), hmarks⟩
  · rintro ⟨rfl, rfl, rfl⟩
    rfl

/-! ### The names of platforms and sides -/

lemma Platform.name_spec (p : Platform) : '-' ∉ p.name.toList ∧ '/' ∉ p.name.toList := by
  cases p <;> decide

lemma Platform.name_injective : Function.Injective Platform.name := by
  intro p q
  cases p <;> cases q <;> decide

lemma Side.name_spec (s : Side) : '/' ∉ s.name.toList := by
  cases s <;> decide

lemma Side.name_injective : Function.Injective Side.name := by
  intro s t
  cases s <;> cases t <;> decide

/-! ### The name of a directory -/

namespace Identity

/-- The characters of a name: the parts of the version, the release, the platform and the side. -/
lemma toList_directoryName (i : Identity) : i.directoryName.toList =
    i.version.major.repr.toList ++ '.' :: (i.version.minor.repr.toList ++ '.' ::
      (i.version.build.repr.toList ++ '.' :: (i.version.revision.repr.toList ++ '-' ::
        (i.release.repr.toList ++ '-' :: (i.platform.name.toList ++ '-' ::
          i.side.name.toList))))) := by
  simp [directoryName, Version.text, toString]

lemma directoryName_inj {a b : Identity} : a.directoryName = b.directoryName ↔
    a.version = b.version ∧ a.release = b.release ∧ a.platform = b.platform ∧ a.side = b.side := by
  constructor
  · intro h
    have hchars := congrArg String.toList h
    rw [toList_directoryName, toList_directoryName] at hchars
    have hdot : '.'.isDigit = false := by decide
    have hdash : '-'.isDigit = false := by decide
    -- The parts are read off from the left, each up to the character that ends it.
    obtain ⟨hmajor, -, hchars⟩ := (repr_append_cons_inj hdot hdot).mp hchars
    obtain ⟨hminor, -, hchars⟩ := (repr_append_cons_inj hdot hdot).mp hchars
    obtain ⟨hbuild, -, hchars⟩ := (repr_append_cons_inj hdot hdot).mp hchars
    obtain ⟨hrevision, -, hchars⟩ := (repr_append_cons_inj hdash hdash).mp hchars
    obtain ⟨hrelease, -, hchars⟩ := (repr_append_cons_inj hdash hdash).mp hchars
    obtain ⟨hplatform, -, hside⟩ := (append_cons_inj_of_marks
      a.platform.name_spec.1 b.platform.name_spec.1).mp hchars
    refine ⟨?_, hrelease, Platform.name_injective (String.toList_inj.mp hplatform),
      Side.name_injective (String.toList_inj.mp hside)⟩
    rw [Version.mk.injEq]
    exact ⟨hmajor, hminor, hbuild, hrevision⟩
  · rintro ⟨hversion, hrelease, hplatform, hside⟩
    rw [directoryName, directoryName, hversion, hrelease, hplatform, hside]

/-- The name of a directory is a name that leads on. -/
lemma isName_directoryName (i : Identity) : IsName i.directoryName := by
  have hchars := toList_directoryName i
  have hdash : '-' ∈ i.directoryName.toList := by simp [hchars]
  have hne (s : String) (hs : '-' ∉ s.toList) : i.directoryName ≠ s := fun h => hs (h ▸ hdash)
  refine ⟨hne _ (by decide), hne _ (by decide), hne _ (by decide), fun hslash => ?_⟩
  have hnumber (k : Int) : '/' ∉ k.repr.toList := by
    intro hk
    rcases mem_repr hk with hk | hk <;> simp at hk
  simp [hchars, hnumber, i.platform.name_spec.2, i.side.name_spec] at hslash

/-- Identities have the same directory name if and only if they agree in version, release, platform
and side. Such a name is one component of its own: joined to any directory it leads to a place
right in it. -/
theorem directoryName_exact (a b : Identity) :
    (a.directoryName = b.directoryName ↔ a.version = b.version ∧ a.release = b.release ∧
      a.platform = b.platform ∧ a.side = b.side) ∧
    IsName a.directoryName ∧ components a.directoryName = [a.directoryName] ∧
    ∀ cwd base, destination cwd (join base a.directoryName) =
      destination cwd base ++ [a.directoryName] := by
  have hname := isName_directoryName a
  refine ⟨directoryName_inj, hname, components_name hname.no_slash hname.ne_empty,
    fun cwd base => destination_join hname⟩

/-- Numbers with signs do not run together. -/
example : directoryName ⟨[], "", .server, .mac, ⟨-1, 0, 0, -2⟩, -3, ⟨"", none, ⟨0, 0, 0, 0⟩, [], [],
    [], []⟩⟩ = "-1.0.0.-2--3-Mac-Server" := by
  decide

end Identity

end SourceRecovery
