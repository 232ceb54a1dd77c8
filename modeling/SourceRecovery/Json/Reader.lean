import SourceRecovery.Json.Basic
import SourceRecovery.Number.Numeral

/-!
# Reading catalog files

A reader for JSON text that says what it expected and where. It reports a place by the text that
was left there. Whoever reads an object may refuse its members as soon as it closes.
-/

namespace SourceRecovery.Json

inductive Flaw
  | valueExpected
  | nameExpected
  | colonExpected
  | commaExpected
  | extraData
  | unterminatedString
  | controlCharacter
  | badEscape
  | badCodeEscape
  | byteOrderMark
  deriving DecidableEq, Repr

def Flaw.message : Flaw → String
  | .valueExpected => "Expecting value"
  | .nameExpected => "Expecting property name enclosed in double quotes"
  | .colonExpected => "Expecting ':' delimiter"
  | .commaExpected => "Expecting ',' delimiter"
  | .extraData => "Extra data"
  | .unterminatedString => "Unterminated string starting at"
  | .controlCharacter => "Invalid control character at"
  | .badEscape => "Invalid \\escape"
  | .badCodeEscape => "Invalid \\uXXXX escape"
  | .byteOrderMark => "Unexpected UTF-8 BOM (decode using utf-8-sig)"

/-- Why a text gives no value: a flaw and the text left where it was found, a number too long to
be read, containers nested too deeply, or an object whose members were refused. -/
inductive ReadError (ε : Type)
  | flawed (flaw : Flaw) (rest : List Char)
  | numeral (cause : NumeralError)
  | tooDeep
  | refused (cause : ε)

variable {ε : Type}

/-- What a part of the reader gives: something read together with the text left. -/
abbrev Reading (ε : Type) := Except (ReadError ε)

def isSpace (c : Char) : Bool := c = ' ' || c = '\t' || c = '\n' || c = '\r'

/-- The text from the first character that is no white space. -/
def skipSpace (cs : List Char) : List Char := cs.dropWhile isSpace

/-! ### Texts -/

def hexValue? (c : Char) : Option Nat :=
  if '0' ≤ c ∧ c ≤ '9' then some (c.toNat - 0x30)
  else if 'a' ≤ c ∧ c ≤ 'f' then some (c.toNat - 0x57)
  else if 'A' ≤ c ∧ c ≤ 'F' then some (c.toNat - 0x37)
  else none

/-- The number that four hexadecimal digits write. -/
def hexValue4? (a b c d : Char) : Option Nat := do
  return ((← hexValue? a) * 16 + (← hexValue? b)) * 256 + (← hexValue? c) * 16 + (← hexValue? d)

/-- The character of an escape code; halves of pairs are carried by their stand-ins. -/
def ofCode (n : Nat) : Char :=
  if 0xD800 ≤ n ∧ n ≤ 0xDFFF then Text.ofSurrogate n else Char.ofNat n

/-- The character that a letter after a backslash stands for. -/
def escaped? : Char → Option Char
  | '"' => some '"'
  | '\\' => some '\\'
  | '/' => some '/'
  | 'b' => some '\x08'
  | 'f' => some '\x0c'
  | 'n' => some '\n'
  | 'r' => some '\r'
  | 't' => some '\t'
  | _ => none

/-- Join each high half of a pair with the low half that follows it. -/
def joinPairs : List Char → List Char
  | [] => []
  | [c] => [c]
  | c :: d :: rest =>
    match Text.surrogate? c, Text.surrogate? d with
    | some high, some low =>
      if high < 0xDC00 ∧ 0xDC00 ≤ low then
        Char.ofNat (0x10000 + (high - 0xD800) * 0x400 + (low - 0xDC00)) :: joinPairs rest
      else c :: joinPairs (d :: rest)
    | _, _ => c :: joinPairs (d :: rest)

/-- Read the characters of a text up to its closing quote. `start` is the text from its opening
quote on, and `read` holds the characters so far in reverse. -/
def characters (start : List Char) (read : List Char) : List Char → Reading ε (String × List Char)
  | [] => .error (.flawed .unterminatedString start)
  | '"' :: rest => .ok (String.ofList (joinPairs read.reverse), rest)
  | '\\' :: 'u' :: a :: b :: c :: d :: e :: rest =>
    match hexValue4? a b c d with
    | some n => characters start (ofCode n :: read) (e :: rest)
    | none => .error (.flawed .badCodeEscape ('u' :: a :: b :: c :: d :: e :: rest))
  | '\\' :: 'u' :: rest => .error (.flawed .badCodeEscape ('u' :: rest))
  | ['\\'] => .error (.flawed .unterminatedString start)
  | '\\' :: letter :: rest =>
    match escaped? letter with
    | some c => characters start (c :: read) rest
    | none => .error (.flawed .badEscape ('\\' :: letter :: rest))
  | c :: rest =>
    if c.toNat < 0x20 then .error (.flawed .controlCharacter (c :: rest))
    else characters start (c :: read) rest

/-! ### Numbers -/

/-- The fraction at the start of a text: its digits, if a digit follows the point. -/
def fraction : List Char → Option (List Char) × List Char
  | '.' :: d :: rest =>
    if d.isDigit then
      (some ((d :: rest).takeWhile Char.isDigit), (d :: rest).dropWhile Char.isDigit)
    else (none, '.' :: d :: rest)
  | rest => (none, rest)

/-- The exponent at the start of a text: its sign and digits, if it has any digit. -/
def exponent : List Char → Option (Bool × List Char) × List Char
  | e :: rest =>
    if e = 'e' ∨ e = 'E' then
      let (negative, ds) := Numeral.sign rest
      if ds.takeWhile Char.isDigit = [] then (none, e :: rest)
      else (some (negative, ds.takeWhile Char.isDigit), ds.dropWhile Char.isDigit)
    else (none, e :: rest)
  | [] => (none, [])

/-- The number that ASCII digits write. -/
def ofDigits (ds : List Char) : Nat := Numeral.ofDigits (ds.map fun c => c.toNat - 0x30)

/-- The double precision number nearest to `± n * 10 ^ unit`. -/
def decimal (negative : Bool) (n : Nat) (unit : Int) : Float64 :=
  let first : Int := (toString n).length + unit
  if n = 0 ∨ first < -400 then .finite ⟨negative, 0, -1074⟩
  else if 400 < first then .infinite negative
  else match Binary64.ofRatio? negative (n * Nat.pow 10 unit.toNat)
      (Nat.pow 10 (-unit).toNat) with
    | some x => .finite x
    | none => .infinite negative

def number (cs : List Char) : Reading ε (Json × List Char) :=
  let (negative, ds) := match cs with
    | '-' :: rest => (true, rest)
    | _ => (false, cs)
  let whole := match ds with
    | '0' :: _ => ['0']
    | _ => ds.takeWhile Char.isDigit
  if whole = [] then .error (.flawed .valueExpected cs)
  else
    let (places, rest) := fraction (ds.drop whole.length)
    let (power, rest) := exponent rest
    if places.isNone && power.isNone then
      if Numeral.maxDigits < whole.length then .error (.numeral (.tooLong whole.length))
      else .ok (.int (if negative then -(ofDigits whole : Int) else ofDigits whole), rest)
    else
      let places := places.getD []
      let (below, digits) := power.getD (false, [])
      let shift : Int := if below then -(ofDigits digits : Int) else ofDigits digits
      .ok (.real (decimal negative (ofDigits (whole ++ places)) (shift - places.length)), rest)

def words : List (List Char × Json) :=
  [("null".toList, .null), ("true".toList, .bool true), ("false".toList, .bool false),
   ("NaN".toList, .real .undefined), ("Infinity".toList, .real (.infinite false)),
   ("-Infinity".toList, .real (.infinite true))]

def scalar (cs : List Char) : Reading ε (Json × List Char) :=
  match words.find? fun (word, _) => word.isPrefixOf cs with
  | some (word, value) => .ok (value, cs.drop word.length)
  | none => number cs

/-! ### Containers -/

/-- Read the items of a list from the first one on, with the items so far in reverse. The number
bounds the items: each takes at least one character. -/
def items (item : List Char → Reading ε (Json × List Char)) :
    Nat → List Json → List Char → Reading ε (List Json × List Char)
  | 0, _, cs => .error (.flawed .valueExpected cs)
  | n + 1, read, cs => do
    let (value, rest) ← item cs
    match skipSpace rest with
    | ']' :: rest => .ok ((value :: read).reverse, rest)
    | ',' :: rest => items item n (value :: read) (skipSpace rest)
    | rest => .error (.flawed .commaExpected rest)

/-- Read the members of an object from the first name on, with the members so far in reverse. -/
def members (item : List Char → Reading ε (Json × List Char)) :
    Nat → List (String × Json) → List Char → Reading ε (List (String × Json) × List Char)
  | 0, _, cs => .error (.flawed .nameExpected cs)
  | n + 1, read, cs =>
    match cs with
    | '"' :: inside => do
      let (name, rest) ← characters cs [] inside
      match skipSpace rest with
      | ':' :: rest =>
        let (value, rest) ← item (skipSpace rest)
        match skipSpace rest with
        | '}' :: rest => .ok (((name, value) :: read).reverse, rest)
        | ',' :: rest => members item n ((name, value) :: read) (skipSpace rest)
        | rest => .error (.flawed .commaExpected rest)
      | rest => .error (.flawed .colonExpected rest)
    | _ => .error (.flawed .nameExpected cs)

/-- Read a value that nests containers at most to a depth, passing the members of every object to
`check` when it closes. -/
def value (check : List (String × Json) → Except ε Unit) :
    Nat → List Char → Reading ε (Json × List Char)
  | _, '"' :: rest => do
    let (found, rest) ← characters ('"' :: rest) [] rest
    return (.text found, rest)
  | 0, '[' :: _ => .error .tooDeep
  | 0, '{' :: _ => .error .tooDeep
  | depth + 1, '[' :: rest =>
    match skipSpace rest with
    | ']' :: rest => .ok (.list [], rest)
    | rest => do
      let (found, rest) ← items (value check depth) (rest.length + 1) [] rest
      return (.list found, rest)
  | depth + 1, '{' :: rest => do
    let (found, rest) ← match skipSpace rest with
      | '}' :: rest => pure ([], rest)
      | rest => members (value check depth) (rest.length + 1) [] rest
    match check found with
    | .ok () => return (.object found, rest)
    | .error cause => .error (.refused cause)
  | _, rest => scalar rest

/-- The depth to which containers may nest: a thousand calls may be open at once, every container
takes one, and eight are open when a run of the program begins to read a catalog. -/
def maxDepth : Nat := 1000 - 8

/-- Read a whole text as one value. -/
def read (check : List (String × Json) → Except ε Unit) (s : String) : Except (ReadError ε) Json :=
  let cs := s.toList
  if cs.head? = some '\uFEFF' then .error (.flawed .byteOrderMark cs)
  else do
    let (found, rest) ← value check maxDepth (skipSpace cs)
    match skipSpace rest with
    | [] => return found
    | rest => .error (.flawed .extraData rest)

/-! ### Places -/

/-- A place in a text: its line and column from one, and its offset from zero. -/
structure Place where
  line : Nat
  column : Nat
  offset : Nat
  deriving DecidableEq, Repr

/-- The place in a text where a given end of it is left. -/
def Place.of (cs rest : List Char) : Place :=
  let before := cs.take (cs.length - rest.length)
  { line := before.count '\n' + 1
    column := (before.reverse.takeWhile (· ≠ '\n')).length + 1
    offset := before.length }

def Place.message (p : Place) : String := s!"line {p.line} column {p.column} (char {p.offset})"

/-- The first name that an object repeats. -/
def repeated? (members : List (String × Json)) : Option String :=
  go [] members
where
  /-- Look on, given the names so far. -/
  go (seen : List String) : List (String × Json) → Option String
    | [] => none
    | (name, _) :: rest => if seen.contains name then some name else go (name :: seen) rest

end SourceRecovery.Json
