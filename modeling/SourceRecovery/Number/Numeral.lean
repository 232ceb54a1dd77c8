import SourceRecovery.Text.Blank
import SourceRecovery.Text.Digit
import SourceRecovery.Text.Quoted

/-!
# Numerals

Reading an integer from a text: blanks around it, an optional sign, and digits of any script with
single underscores between them. An integer that has too many digits is neither read nor written.
-/

namespace SourceRecovery

open Text

inductive NumeralError
  /-- The text is not written as an integer. -/
  | malformed (text : String)
  /-- The text has more digits than a numeral may have. -/
  | tooLong (digits : Nat)
  /-- The integer has more digits than a numeral may have. -/
  | unwritable
  deriving DecidableEq, Repr

namespace Numeral

/-- The number of digits that a numeral may have. -/
def maxDigits : Nat := 4300

/-- The blanks that may stand around a numeral: the ASCII ones among the control characters up to
U+000D and the space, and every blank beyond ASCII. -/
def isPadding (c : Char) : Bool :=
  (0x09 ≤ c.toNat && c.toNat ≤ 0x0D) || c.toNat == 0x20 || (0x7F ≤ c.toNat && isBlank c)

/-- The digits at the start of a text, with single underscores between them, and what follows
them. There are none where the text starts with no digit or where an underscore is not between
two digits. -/
def digitRun : Bool → List Char → Option (List Nat × List Char)
  | afterDigit, [] => if afterDigit then some ([], []) else none
  | afterDigit, c :: rest =>
    match digit? c with
    | some d => (digitRun true rest).map fun (ds, r) => (d :: ds, r)
    | none =>
      if !afterDigit then none
      else if c = '_' then digitRun false rest
      else some ([], c :: rest)

/-- The number that digits write in base ten. -/
def ofDigits (ds : List Nat) : Nat := ds.foldl (fun n d => 10 * n + d) 0

/-- The sign at the start of a text: whether it is a minus, and what follows it. -/
def sign : List Char → Bool × List Char
  | '-' :: rest => (true, rest)
  | '+' :: rest => (false, rest)
  | rest => (false, rest)

def read (s : String) : Except NumeralError Int :=
  let (negative, cs) := sign (s.toList.dropWhile isPadding)
  match digitRun false cs with
  | none => .error (.malformed s)
  | some (ds, rest) =>
    if maxDigits < ds.length then .error (.tooLong ds.length)
    else if rest.all isPadding then
      .ok (if negative then -(ofDigits ds : Int) else ofDigits ds)
    else .error (.malformed s)

/-- The number of digits of an integer. -/
def length (n : Int) : Nat := (toString n.natAbs).length

def write (n : Int) : Except NumeralError String :=
  if maxDigits < length n then .error .unwritable else .ok (toString n)

end Numeral

def NumeralError.message : NumeralError → String
  | .malformed text =>
    "invalid literal for int() with base 10: " ++ String.ofList ((quote text).toList.take 200)
  | .tooLong digits =>
    s!"Exceeds the limit ({Numeral.maxDigits} digits) for integer string conversion: " ++
      s!"value has {digits} digits; use sys.set_int_max_str_digits() to increase the limit"
  | .unwritable =>
    s!"Exceeds the limit ({Numeral.maxDigits} digits) for integer string conversion; " ++
      "use sys.set_int_max_str_digits() to increase the limit"

end SourceRecovery
