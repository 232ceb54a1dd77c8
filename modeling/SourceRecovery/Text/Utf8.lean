/-!
# Text in bytes

Text files hold UTF-8. A catalog or a project is read strictly: one invalid byte makes the whole
file unreadable. A log is read leniently: every byte that belongs to no character is dropped.
-/

namespace SourceRecovery

/-- The content of a file. -/
abbrev Bytes := List UInt8

namespace Text

def encode (s : String) : Bytes := s.toByteArray.data.toList

/-- The text that bytes encode, if they encode one. -/
def decode? (bs : Bytes) : Option String := String.fromUTF8? ⟨bs.toArray⟩

/-- What is encoded can be read back. -/
@[simp] theorem decode?_encode (s : String) : decode? (encode s) = some s := by
  have h : (⟨(encode s).toArray⟩ : ByteArray) = s.toByteArray := by simp [encode]
  simp only [decode?, h, String.fromUTF8?, s.isValidUTF8, dite_true]
  congr 1

/-- Bytes are read as a text exactly if they encode it. -/
theorem decode?_eq_some_iff {bs : Bytes} {s : String} : decode? bs = some s ↔ bs = encode s := by
  constructor
  · intro h
    unfold decode? String.fromUTF8? at h
    split at h
    · cases h
      rfl
    · cases h
  · rintro rfl
    exact decode?_encode s

/-- The character that the first bytes encode, and the number of these bytes. -/
def firstChar? (bs : Bytes) : Option (Char × Nat) :=
  [1, 2, 3, 4].findSome? fun n =>
    match (decode? (bs.take n)).map String.toList with
    | some [c] => some (c, n)
    | _ => none

/-- The characters that bytes encode, without the bytes that belong to no character. -/
def readableChars (bs : Bytes) : List Char := go bs []
where
  /-- Read on, with the characters so far in reverse. -/
  go (bs : Bytes) (read : List Char) : List Char :=
    match bs with
    | [] => read.reverse
    | b :: rest =>
      match firstChar? (b :: rest) with
      | some (c, n) => go (rest.drop (n - 1)) (c :: read)
      | none => go rest read
  termination_by bs.length

end Text

end SourceRecovery
