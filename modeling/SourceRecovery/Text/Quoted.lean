import SourceRecovery.Text.Printable
import SourceRecovery.Text.Surrogate

/-!
# Quoted text

Messages show a text between quotes, with every character that cannot be seen written as an
escape. Single quotes are used unless the text holds a single and no double quote.
-/

namespace SourceRecovery.Text

/-- The hexadecimal digit of a value below sixteen, in lower case. -/
def hexDigit (n : Nat) : Char := if n < 10 then Char.ofNat (n + 0x30) else Char.ofNat (n + 0x57)

/-- A number in hexadecimal digits, filled with zeros to a width. -/
def hexDigits : Nat → Nat → List Char
  | 0, _ => []
  | width + 1, n => hexDigits width (n / 16) ++ [hexDigit (n % 16)]

/-- The numbered escape of a code point: two, four or eight hexadecimal digits. -/
def numberedEscape (n : Nat) : List Char :=
  if n < 0x100 then '\\' :: 'x' :: hexDigits 2 n
  else if n < 0x10000 then '\\' :: 'u' :: hexDigits 4 n
  else '\\' :: 'U' :: hexDigits 8 n

/-- How one character is written between quotes. -/
def quotedChar (shown : Char → Bool) (quote c : Char) : List Char :=
  if c = quote ∨ c = '\\' then ['\\', c]
  else if c = '\n' then ['\\', 'n']
  else if c = '\r' then ['\\', 'r']
  else if c = '\t' then ['\\', 't']
  else match surrogate? c with
    | some n => numberedEscape n
    | none => if shown c then [c] else numberedEscape c.toNat

/-- The quote that encloses a text. -/
def quoteMark (cs : List Char) : Char :=
  if cs.contains '\'' && !cs.contains '"' then '"' else '\''

/-- A text between quotes, showing the characters that `shown` admits. -/
def quoteBy (shown : Char → Bool) (s : String) : String :=
  let quote := quoteMark s.toList
  String.ofList (quote :: s.toList.flatMap (quotedChar shown quote) ++ [quote])

/-- A text between quotes, showing every printable character. -/
def quote (s : String) : String := quoteBy isPrintable s

/-- A text between quotes in ASCII alone. -/
def quoteAscii (s : String) : String := quoteBy (fun c => 0x20 ≤ c.toNat && c.toNat < 0x7F) s

end SourceRecovery.Text
