/-!
# Unpaired surrogates

An escape in a catalog can name one half of a surrogate pair, which is not a character. Such a
half is carried through the program as a stand-in from the last private-use plane, is quoted by
its own number, and has no encoding in bytes.

With the halves, texts have 0x800 more code points than there are characters, so that no choice of
stand-ins leaves every character to itself. Those chosen are never assigned, and are given up as
characters of their own: a text that holds one of U+10D800 to U+10DFFF means the half by it.
-/

namespace SourceRecovery.Text

/-- The distance from a surrogate to its stand-in. -/
def surrogateShift : Nat := 0x100000

/-- The stand-in of an unpaired surrogate. -/
def ofSurrogate (n : Nat) : Char := Char.ofNat (n + surrogateShift)

/-- The surrogate that a character stands in for. -/
def surrogate? (c : Char) : Option Nat :=
  if 0x10D800 ≤ c.toNat ∧ c.toNat ≤ 0x10DFFF then some (c.toNat - surrogateShift) else none

/-- The number of a character, which for a stand-in is that of the surrogate. -/
def number (c : Char) : Nat := (surrogate? c).getD c.toNat

/-- Whether a text comes before another one in the order of the numbers of their characters. -/
def precedes (a b : String) : Bool := a.toList.map number < b.toList.map number

/-- Whether a text has an encoding in bytes when it names a file: halves between U+DC80 and
U+DCFF stand for single bytes there, all others have none. -/
def isEncodable (s : String) : Bool :=
  s.toList.all fun c =>
    match surrogate? c with
    | some n => 0xDC80 ≤ n && n ≤ 0xDCFF
    | none => true

end SourceRecovery.Text
