import Mathlib.Tactic.Common
import SourceRecovery.Text.Utf8

/-!
# Reading bytes leniently

Bytes are read from the front. Where the encoding of a character begins, the character is taken, and
a byte with which none begins is dropped. No encoding is the beginning of another one, so that there
is one way only to read bytes.
-/

namespace SourceRecovery.Text

variable {bs rest : Bytes} {b : UInt8} {c d : Char} {cs ds : List Char} {n : ℕ}

/-! ### Characters in bytes -/

/-- The bytes that encode a character. -/
def encodeChar (c : Char) : Bytes := encode (String.singleton c)

lemma encodeChar_eq (c : Char) : encodeChar c = String.utf8EncodeChar c := by
  simp [encodeChar, encode, List.utf8Encode_singleton]

lemma encodeChar_ne_nil (c : Char) : encodeChar c ≠ [] := by
  rw [encodeChar_eq]
  exact String.utf8EncodeChar_ne_nil

/-- The character that bytes begin with is known by them. -/
lemma encodeChar_append_inj (h : encodeChar c ++ bs = encodeChar d ++ rest) :
    c = d ∧ bs = rest := by
  have hdecode (c : Char) (bs : Bytes) :
      (encodeChar c ++ bs).toByteArray.utf8DecodeChar? 0 = some c := by
    rw [List.toByteArray_append, encodeChar_eq, ByteArray.utf8DecodeChar?_utf8EncodeChar_append]
  have hc := hdecode c bs
  rw [h, hdecode] at hc
  cases hc
  exact ⟨rfl, List.append_cancel_left h⟩

/-- The bytes that are read as one character are those that encode it. -/
lemma map_decode?_eq_some_iff : (decode? bs).map String.toList = some [c] ↔ bs = encodeChar c := by
  rw [Option.map_eq_some_iff]
  constructor
  · rintro ⟨s, hs, hchars⟩
    have hsingle : s = String.singleton c := by
      rw [← String.toList_inj, hchars, String.toList_singleton]
    rw [decode?_eq_some_iff.mp hs, hsingle, encodeChar]
  · rintro rfl
    exact ⟨String.singleton c, decode?_encode _, String.toList_singleton c⟩

/-- A first character is found only where bytes begin with its encoding. -/
lemma eq_append_of_firstChar? (h : firstChar? bs = some (c, n)) :
    0 < n ∧ bs = encodeChar c ++ bs.drop n := by
  obtain ⟨k, hk, hfound⟩ := List.exists_of_findSome?_eq_some h
  split at hfound
  · rename_i c' hchars
    cases hfound
    constructor
    · simp only [List.mem_cons, List.not_mem_nil, or_false] at hk
      omega
    · rw [← map_decode?_eq_some_iff.mp hchars, List.take_append_drop]
  · cases hfound

/-- No first character is found where bytes begin with no encoding. -/
lemma firstChar?_eq_none_iff : firstChar? bs = none ↔ ∀ c, ¬ encodeChar c <+: bs := by
  constructor
  · rintro h c ⟨rest, rfl⟩
    have hsize : c.utf8Size ∈ [1, 2, 3, 4] := by
      have hpos := c.utf8Size_pos
      have hle := c.utf8Size_le_four
      simp only [List.mem_cons, List.not_mem_nil, or_false]
      omega
    have hlen : (encodeChar c).length = c.utf8Size := by
      rw [encodeChar_eq, String.length_utf8EncodeChar]
    have hnone := List.findSome?_eq_none_iff.mp h _ hsize
    rw [← hlen, List.take_left, map_decode?_eq_some_iff.mpr rfl] at hnone
    cases hnone
  · intro h
    cases hfirst : firstChar? bs with
    | none => rfl
    | some found =>
      obtain ⟨c, n⟩ := found
      exact absurd ⟨_, (eq_append_of_firstChar? hfirst).2.symm⟩ (h c)

/-! ### Reading on -/

/-- Some bytes are read as some characters: the encoding of a character as that character, and a
byte with which no encoding begins as nothing. -/
inductive Reads : Bytes → List Char → Prop
  | nil : Reads [] []
  | char (c : Char) {bs : Bytes} {cs : List Char} (rest : Reads bs cs) :
      Reads (encodeChar c ++ bs) (c :: cs)
  | dropped {b : UInt8} {bs : Bytes} {cs : List Char}
      (stray : ∀ c, ¬ encodeChar c <+: b :: bs) (rest : Reads bs cs) : Reads (b :: bs) cs

lemma reads_nil_iff : Reads [] cs ↔ cs = [] := by
  constructor
  · intro h
    generalize hbs : ([] : Bytes) = bs at h
    cases h with
    | nil => rfl
    | char c rest => exact absurd (List.append_eq_nil_iff.mp hbs.symm).1 (encodeChar_ne_nil c)
    | dropped stray rest => cases hbs
  · rintro rfl
    exact .nil

/-- A character is read where its encoding begins. -/
lemma reads_encodeChar_append_iff :
    Reads (encodeChar c ++ bs) ds ↔ ∃ cs, Reads bs cs ∧ ds = c :: cs := by
  constructor
  · intro h
    generalize hbs : encodeChar c ++ bs = bytes at h
    cases h with
    | nil => exact absurd (List.append_eq_nil_iff.mp hbs).1 (encodeChar_ne_nil c)
    | char d rest =>
      obtain ⟨rfl, rfl⟩ := encodeChar_append_inj hbs
      exact ⟨_, rest, rfl⟩
    | dropped stray rest => exact absurd ⟨bs, hbs⟩ (stray c)
  · rintro ⟨cs, h, rfl⟩
    exact .char c h

/-- A byte with which no encoding begins does not matter. -/
lemma reads_cons_iff (hstray : ∀ c, ¬ encodeChar c <+: b :: bs) :
    Reads (b :: bs) cs ↔ Reads bs cs := by
  constructor
  · intro h
    generalize hbs : b :: bs = bytes at h
    cases h with
    | nil => cases hbs
    | char c rest => exact absurd ⟨_, hbs.symm⟩ (hstray c)
    | dropped stray rest =>
      cases hbs
      exact rest
  · exact .dropped hstray

/-- Bytes are read in one way only. -/
lemma Reads.unique (h : Reads bs cs) (h' : Reads bs ds) : cs = ds := by
  induction h generalizing ds with
  | nil => exact (reads_nil_iff.mp h').symm
  | char c rest ih =>
    obtain ⟨cs', hrest, rfl⟩ := reads_encodeChar_append_iff.mp h'
    rw [ih hrest]
  | dropped stray rest ih => exact ih ((reads_cons_iff stray).mp h')

/-- Reading on puts what is read behind the characters that were read before. -/
lemma exists_reads_go (bs : Bytes) (read : List Char) :
    ∃ cs, Reads bs cs ∧ readableChars.go bs read = read.reverse ++ cs := by
  induction bs, read using readableChars.go.induct with
  | case1 read => exact ⟨[], .nil, by rw [readableChars.go, List.append_nil]⟩
  | case2 read b rest c n hfirst ih =>
    obtain ⟨cs, hcs, hgo⟩ := ih
    obtain ⟨hn, hbytes⟩ := eq_append_of_firstChar? hfirst
    have hdrop : (b :: rest).drop n = rest.drop (n - 1) := by
      obtain ⟨k, rfl⟩ := Nat.exists_eq_add_one.mpr hn
      rfl
    refine ⟨c :: cs, ?_, ?_⟩
    · rw [hbytes, hdrop]
      exact .char c hcs
    · rw [readableChars.go, hfirst]
      show readableChars.go (rest.drop (n - 1)) (c :: read) = _
      rw [hgo, List.reverse_cons, List.append_assoc, List.singleton_append]
  | case3 read b rest hnone ih =>
    obtain ⟨cs, hcs, hgo⟩ := ih
    refine ⟨cs, .dropped (firstChar?_eq_none_iff.mp hnone) hcs, ?_⟩
    rw [readableChars.go, hnone]
    exact hgo

/-- What is read in bytes, and nothing else. -/
lemma reads_iff : Reads bs cs ↔ cs = readableChars bs := by
  have hreads : Reads bs (readableChars bs) := by
    obtain ⟨cs, hcs, hgo⟩ := exists_reads_go bs []
    rw [readableChars, hgo]
    exact hcs
  constructor
  · intro h
    exact h.unique hreads
  · rintro rfl
    exact hreads

end SourceRecovery.Text
