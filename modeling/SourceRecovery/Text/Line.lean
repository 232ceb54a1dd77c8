/-!
# Lines

A text file may end its lines with a line feed, a carriage return or both; a text in memory ends
them with line feeds. A last line without one counts as a line.
-/

namespace SourceRecovery.Text

/-- Read the next character while newlines are being unified: the characters so far in reverse,
and whether the last one read was a carriage return. -/
def unifyStep : List Char × Bool → Char → List Char × Bool
  | (read, afterReturn), c =>
    if c = '\r' then ('\n' :: read, true)
    else if c = '\n' && afterReturn then (read, false)
    else (c :: read, false)

/-- The characters with every newline written as one line feed. -/
def unifyNewlineChars (cs : List Char) : List Char := (cs.foldl unifyStep ([], false)).1.reverse

/-- A text with every newline written as one line feed. -/
def unifyNewlines (s : String) : String := String.ofList (unifyNewlineChars s.toList)

/-- Put a character in front of lines. -/
def consLine (c : Char) : List (List Char) → List (List Char)
  | [] => [[c]]
  | line :: lines => if c = '\n' then [c] :: line :: lines else (c :: line) :: lines

/-- The lines of a text, each with its line feed. -/
def lines (cs : List Char) : List (List Char) := cs.foldr consLine []

/-- The last `count` of some lines; none but the first `-count` when the count is negative, and
all when it is zero. -/
def lastLines (count : Int) (ls : List (List Char)) : List (List Char) :=
  if count ≤ 0 then ls.drop count.natAbs else ls.drop (ls.length - count.toNat)

/-- The end of a text: its last `count` lines. -/
def tail (count : Int) (cs : List Char) : List Char := (lastLines count (lines cs)).flatten

/-- The lines of a text make up the text. -/
@[simp] theorem flatten_lines (cs : List Char) : (lines cs).flatten = cs := by
  induction cs with
  | nil => rfl
  | cons c cs ih =>
    have h : lines (c :: cs) = consLine c (lines cs) := rfl
    rw [h]
    cases hl : lines cs with
    | nil => rw [hl] at ih; simp [consLine, ← ih]
    | cons line ls =>
      rw [hl] at ih
      by_cases hc : c = '\n' <;> simp [consLine, hc, ← ih]

end SourceRecovery.Text
