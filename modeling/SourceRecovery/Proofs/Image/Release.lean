import Mathlib.Data.List.Basic
import SourceRecovery.Identity
import SourceRecovery.Image.Rows

/-!
# The constant of the release number

The release number of an image is found by way of three tables: the first type with the right name,
the first field of that type with the right name, and the last constant that belongs to the row of
that field. The rest of the tables does not matter to it.
-/

namespace SourceRecovery

/-! ### The first and the last of a kind -/

section Kind

variable {α : Type} {p : α → Prop} {xs : List α} {x : α}

/-- An element of a list is the first one with a property. -/
def IsFirst (p : α → Prop) (xs : List α) (x : α) : Prop :=
  ∃ front back, xs = front ++ x :: back ∧ p x ∧ ∀ y ∈ front, ¬p y

/-- An element of a list is the last one with a property. -/
def IsLast (p : α → Prop) (xs : List α) (x : α) : Prop :=
  ∃ front back, xs = front ++ x :: back ∧ p x ∧ ∀ y ∈ back, ¬p y

lemma find?_eq_some_iff_isFirst [DecidablePred p] :
    xs.find? (fun y => decide (p y)) = some x ↔ IsFirst p xs x := by
  rw [List.find?_eq_some_iff_append]
  constructor
  · rintro ⟨hx, front, back, rfl, hfront⟩
    exact ⟨front, back, rfl, of_decide_eq_true hx, fun y hy => by simpa using hfront y hy⟩
  · rintro ⟨front, back, rfl, hx, hfront⟩
    exact ⟨decide_eq_true hx, front, back, rfl, fun y hy => by simpa using hfront y hy⟩

lemma isFirst_reverse : IsFirst p xs.reverse x ↔ IsLast p xs x := by
  constructor
  · rintro ⟨front, back, hxs, hx, hfront⟩
    have hreverse : xs = back.reverse ++ x :: front.reverse := by
      rw [← List.reverse_reverse xs, hxs]
      simp
    exact ⟨back.reverse, front.reverse, hreverse, hx, fun y hy => hfront y (List.mem_reverse.mp hy)⟩
  · rintro ⟨front, back, rfl, hx, hback⟩
    exact ⟨back.reverse, front.reverse, by simp, hx, fun y hy => hback y (List.mem_reverse.mp hy)⟩

/-- What comes behind an element with a property does not matter to which one is the first. -/
lemma find?_of_common_front {q : α → Bool} {front back back' : List α} (hx : q x = true) :
    (front ++ x :: back').find? q = (front ++ x :: back).find? q := by
  simp [List.find?_append, hx]

/-- The last element with a property depends on those with the property only. -/
lemma find?_reverse_congr {q : α → Bool} {ys : List α} (h : ys.filter q = xs.filter q) :
    ys.reverse.find? q = xs.reverse.find? q := by
  rw [← List.head?_filter, ← List.head?_filter, List.filter_reverse, List.filter_reverse, h]

/-- Where no two elements have a property, their order does not matter to which one is the first. -/
lemma find?_of_perm {q : α → Bool} {ys : List α} (hp : ys.Perm xs)
    (hone : xs.Pairwise fun x y => ¬(q x = true ∧ q y = true)) : ys.find? q = xs.find? q := by
  have hfilter : (ys.filter q).Perm (xs.filter q) := hp.filter q
  rw [← List.head?_filter, ← List.head?_filter]
  match hxs : xs.filter q with
  | [] => rw [hxs] at hfilter; rw [hfilter.eq_nil]
  | [x] => rw [hxs] at hfilter; rw [List.perm_singleton.mp hfilter]
  | x :: y :: rest =>
    have hpair := hxs ▸ hone.filter q
    have hx : x ∈ xs.filter q := by simp [hxs]
    have hy : y ∈ xs.filter q := by simp [hxs]
    exact absurd ⟨(List.mem_filter.mp hx).2, (List.mem_filter.mp hy).2⟩
      ((List.pairwise_cons.mp hpair).1 y (.head _))

end Kind

namespace Image

/-- A constant belongs to a row of the table of fields, and not to one of another table. -/
def ConstantRow.BelongsTo (row : ℕ) (c : ConstantRow) : Prop := c.table = Schema.field ∧ c.row = row

instance (row : ℕ) : DecidablePred (ConstantRow.BelongsTo row) :=
  fun c => inferInstanceAs (Decidable (c.table = Schema.field ∧ c.row = row))

namespace Metadata

variable {m m' : Metadata} {row : ℕ} {v : Int}

/-! ### The row of the field -/

/-- A type is the first one with the name of the type that declares the release number. -/
def IsReleaseType (m : Metadata) (t : TypeRow) : Prop :=
  IsFirst (fun t => t.fullName = releaseType) m.types t

/-- A row of the table of fields is the first in the list of fields of a type that has the name of
the release number. -/
def IsReleaseRow (m : Metadata) (t : TypeRow) (row : ℕ) : Prop :=
  IsFirst (fun row => m.fieldName? row = some releaseField) t.fields row

/-- The metadata state a release number: it is what the last constant stores that belongs to the
row of the field. -/
def States (m : Metadata) (v : Int) : Prop :=
  ∃ t row c, m.IsReleaseType t ∧ m.IsReleaseRow t row ∧
    IsLast (ConstantRow.BelongsTo row) m.constants c ∧ Constant.decode c.code c.value = some v

lemma findType?_view (m : Metadata) (name : String) : m.view.findType? name =
    (m.types.find? (·.fullName = name)).map fun t => ⟨t.fullName, m.fieldsOf t⟩ := by
  rw [ImageView.findType?, view, List.find?_map]
  rfl

/-- The field of a type that is found has the first row with its name. -/
lemma findField?_fieldsOf (m : Metadata) (t : TypeRow) (fullName name : String) :
    (TypeInfo.mk fullName (m.fieldsOf t)).findField? name =
      (t.fields.find? fun row => m.fieldName? row = some name).map
        fun row => ⟨name, m.constantOf row⟩ := by
  rw [TypeInfo.findField?, fieldsOf]
  induction t.fields with
  | nil => rfl
  | cons row rows ih =>
    cases hname : m.fieldName? row with
    | none => simpa [hname] using ih
    | some other =>
      by_cases hother : other = name
      · simp [hname, hother]
      · simpa [hname, hother] using ih

lemma constantOf_eq_some_iff : m.constantOf row = some v ↔
    ∃ c, IsLast (ConstantRow.BelongsTo row) m.constants c ∧
      Constant.decode c.code c.value = some v := by
  simp only [constantOf, bind, Option.bind_eq_some_iff]
  constructor
  · rintro ⟨c, hc, hv⟩
    exact ⟨c, isFirst_reverse.mp (find?_eq_some_iff_isFirst.mp hc), hv⟩
  · rintro ⟨c, hc, hv⟩
    exact ⟨c, find?_eq_some_iff_isFirst.mpr (isFirst_reverse.mpr hc), hv⟩

/-! ### Reading the number -/

/-- The release number is that of the first field with its name in the first type with its name. -/
lemma release_eq (m : Metadata) : m.view.release =
    match m.types.find? (·.fullName = releaseType) with
    | none => .error .noType
    | some t =>
      match t.fields.find? fun row =>
          m.fieldName? row = some releaseField with
      | none => .error .noField
      | some row =>
        match m.constantOf row with
        | none => .error .noConstant
        | some v => .ok v := by
  rw [ImageView.release, findType?_view]
  cases m.types.find? (·.fullName = releaseType) with
  | none => rfl
  | some t =>
    dsimp only [Option.map_some]
    rw [findField?_fieldsOf]
    cases t.fields.find? fun row => m.fieldName? row = some releaseField <;>
      rfl

lemma release_eq_ok_iff : m.view.release = .ok v ↔ m.States v := by
  rw [release_eq]
  constructor
  · intro h
    split at h
    · cases h
    · rename_i t ht
      split at h
      · cases h
      · rename_i row hrow
        split at h
        · cases h
        · rename_i hconstant
          cases h
          obtain ⟨c, hc, hv⟩ := constantOf_eq_some_iff.mp hconstant
          exact ⟨t, row, c, find?_eq_some_iff_isFirst.mp ht, find?_eq_some_iff_isFirst.mp hrow,
            hc, hv⟩
  · rintro ⟨t, row, c, ht, hrow, hc, hv⟩
    simp only [find?_eq_some_iff_isFirst.mpr ht, find?_eq_some_iff_isFirst.mpr hrow,
      constantOf_eq_some_iff.mpr ⟨c, hc, hv⟩]

lemma release_eq_error_iff :
    (∃ cause, m.view.release = .error cause) ↔ ∀ v, ¬m.States v := by
  cases hrelease : m.view.release with
  | error cause => simp [← release_eq_ok_iff, hrelease]
  | ok v => simp [← release_eq_ok_iff, hrelease]

/-! ### What does not matter -/

/-- Metadata have the same fields, the same types up to one with the name of the type that declares
the release number, and the same constants that belong to the row of the field. Whatever else they
hold may differ. -/
structure SharesRelease (m m' : Metadata) : Prop where
  fields : m'.fields = m.fields
  types : m'.types = m.types ∨ ∃ front t back back', t.fullName = releaseType ∧
    m.types = front ++ t :: back ∧ m'.types = front ++ t :: back'
  constants : ∀ t row, m.IsReleaseType t → m.IsReleaseRow t row →
    m'.constants.filter (ConstantRow.BelongsTo row) = m.constants.filter (ConstantRow.BelongsTo row)

lemma constantOf_congr (h : m'.constants.filter (ConstantRow.BelongsTo row) =
    m.constants.filter (ConstantRow.BelongsTo row)) : m'.constantOf row = m.constantOf row :=
  congrArg (fun c : Option ConstantRow => c.bind fun c => Constant.decode c.code c.value)
    (find?_reverse_congr h)

/-- The release number depends on the fields, on the first type with the right name, and on the
constants of the row of its field. -/
lemma release_congr (hfields : m'.fields = m.fields)
    (htype : m'.types.find? (·.fullName = releaseType) = m.types.find? (·.fullName = releaseType))
    (hconstants : ∀ t row, m.IsReleaseType t → m.IsReleaseRow t row →
      m'.constants.filter (ConstantRow.BelongsTo row) =
        m.constants.filter (ConstantRow.BelongsTo row)) :
    m'.view.release = m.view.release := by
  have hname : m'.fieldName? = m.fieldName? := by
    funext row
    rw [fieldName?, fieldName?, hfields]
  rw [release_eq, release_eq, htype, hname]
  cases ht : m.types.find? (·.fullName = releaseType) with
  | none => rfl
  | some t =>
    dsimp only
    cases hrow : t.fields.find? fun row =>
        m.fieldName? row = some releaseField with
    | none => rfl
    | some row =>
      have hrows := hconstants t row (find?_eq_some_iff_isFirst.mp ht)
        (find?_eq_some_iff_isFirst.mp hrow)
      dsimp only
      rw [constantOf_congr hrows]

lemma SharesRelease.release_eq (h : m.SharesRelease m') : m'.view.release = m.view.release := by
  refine release_congr h.fields ?_ h.constants
  obtain hsame | ⟨front, t, back, back', ht, hm, hm'⟩ := h.types
  · rw [hsame]
  · rw [hm, hm']
    exact find?_of_common_front (decide_eq_true ht)

/-- The release number of an image is exactly what its metadata state, and there is an error if they
state none. Constants that belong to other rows or to rows of other tables do not matter to it, and
neither do types behind the one that declares it. -/
theorem release_exact (m : Metadata) :
    (∀ v, m.view.release = .ok v ↔ m.States v) ∧
    ((∃ cause, m.view.release = .error cause) ↔ ∀ v, ¬m.States v) ∧
    ∀ m', m.SharesRelease m' → m'.view.release = m.view.release :=
  ⟨fun _ => release_eq_ok_iff, release_eq_error_iff, fun _ h => h.release_eq⟩

/-- A type with the release number in the second row of the table of fields, and with constants of
a parameter and of another field beside those of that row, the last of which counts. -/
def decoyedSample : Metadata where
  nativeEntry := false
  entryToken := 0x6000001
  modules := ["Terraria.exe"]
  types := [⟨"Main", "Terraria", [1, 2], [1]⟩]
  fields := ["maxMenu", "curRelease"]
  constants := [⟨4, 2, 8, some [1, 0, 0, 0]⟩, ⟨8, 2, 8, some [2, 0, 0, 0]⟩,
    ⟨4, 2, 8, some [230, 0, 0, 0]⟩, ⟨4, 1, 8, some [3, 0, 0, 0]⟩]
  assemblies := []
  references := []
  nested := []
  resources := []

/-- The same without these constants, but with one of a property, and with a second type of the same
name behind the first. -/
def decoyedSample' : Metadata := { decoyedSample with
  types := [⟨"Main", "Terraria", [1, 2], [1]⟩, ⟨"Main", "Terraria", [1], [2]⟩]
  constants := [⟨4, 2, 8, some [1, 0, 0, 0]⟩, ⟨4, 2, 8, some [230, 0, 0, 0]⟩, ⟨23, 2, 8, none⟩] }

theorem release_exact_sample :
    decoyedSample.SharesRelease decoyedSample' ∧ decoyedSample'.view.release = .ok 230 := by
  have hshares : decoyedSample.SharesRelease decoyedSample' := by
    refine ⟨rfl, .inr ⟨[], _, [], _, by decide, rfl, rfl⟩, fun t row ht hrow => ?_⟩
    cases find?_eq_some_iff_isFirst.mpr ht
    cases find?_eq_some_iff_isFirst.mpr hrow
    rfl
  exact ⟨hshares, ((release_exact _).2.2 _ hshares).trans rfl⟩

end Metadata

end Image

end SourceRecovery
