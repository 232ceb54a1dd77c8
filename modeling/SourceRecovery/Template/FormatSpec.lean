import SourceRecovery.Template.Flaw
import SourceRecovery.Text.Digit

/-!
# Format specifications

The text after the colon of a field says how its value is laid out: fill and alignment, sign,
alternate form, width, digit grouping, precision and presentation type, in this order.
-/

namespace SourceRecovery.Template

inductive Alignment
  | left
  | right
  | center
  /-- The fill stands between the sign and the digits. -/
  | afterSign
  deriving DecidableEq, Repr

/-- The alignment that a character asks for. -/
def Alignment.ofChar? : Char → Option Alignment
  | '<' => some .left
  | '>' => some .right
  | '^' => some .center
  | '=' => some .afterSign
  | _ => none

inductive SignStyle
  | plus
  | minus
  | space
  deriving DecidableEq, Repr

/-- The sign style that a character asks for. -/
def SignStyle.ofChar? : Char → Option SignStyle
  | '+' => some .plus
  | '-' => some .minus
  | ' ' => some .space
  | _ => none

/-- How the digits of a number are grouped. -/
structure Grouping where
  separator : Char
  size : Nat
  deriving DecidableEq, Repr

structure FormatSpec where
  fill : Char
  alignment : Alignment
  sign : Option SignStyle
  zeroSign : Bool
  alternate : Bool
  width : Nat
  grouping : Option Grouping
  precision : Option Nat
  type : Char
  deriving DecidableEq, Repr

namespace FormatSpec

/-- The largest number that a template may write. -/
def maxNumber : Nat := 0x7FFFFFFFFFFFFFFF

/-- The decimal number at the start of a text: its digits' value if there is any digit, and what
follows. -/
def number (start : Option Nat) : List Char → Except Flaw (Option Nat × List Char)
  | [] => .ok (start, [])
  | c :: rest =>
    match Text.digit? c with
    | some d =>
      let n := 10 * start.getD 0 + d
      if maxNumber < n then .error .tooManyDigits else number (some n) rest
    | none => .ok (start, c :: rest)

/-- The fill and alignment at the start of a specification. -/
def alignmentPart : List Char → Option Char × Option Alignment × List Char
  | fill :: a :: rest =>
    match Alignment.ofChar? a with
    | some alignment => (some fill, some alignment, rest)
    | none =>
      match Alignment.ofChar? fill with
      | some alignment => (none, some alignment, a :: rest)
      | none => (none, none, fill :: a :: rest)
  | [a] =>
    match Alignment.ofChar? a with
    | some alignment => (none, some alignment, [])
    | none => (none, none, [a])
  | [] => (none, none, [])

/-- The sign style at the start of a specification. -/
def signPart : List Char → Option SignStyle × List Char
  | c :: rest =>
    match SignStyle.ofChar? c with
    | some style => (some style, rest)
    | none => (none, c :: rest)
  | [] => (none, [])

/-- Whether a specification starts with a mark, and what follows it. -/
def mark (m : Char) : List Char → Bool × List Char
  | c :: rest => if c = m then (true, rest) else (false, c :: rest)
  | [] => (false, [])

/-- The separator of digit groups at the start of a specification. -/
def separatorPart (cs : List Char) : Except Flaw (Option Char × List Char) :=
  let (comma, cs) := mark ',' cs
  let (underscore, cs) := mark '_' cs
  if comma && underscore then .error .bothSeparators
  else if underscore && cs.head? = some ',' then .error .bothSeparators
  else .ok (if comma then some ',' else if underscore then some '_' else none, cs)

/-- The precision at the start of a specification. -/
def precisionPart (cs : List Char) : Except Flaw (Option Nat × List Char) :=
  match mark '.' cs with
  | (false, _) => .ok (none, cs)
  | (true, rest) => do
    match ← number none rest with
    | (none, _) => .error .precisionMissing
    | found => .ok found

/-- The grouping that a separator gives to the digits of a presentation type: groups of three
digits, or of four in the binary bases, which admit underscores only. -/
def groupingFor (separator type : Char) : Except Flaw Grouping :=
  if ['d', 'e', 'f', 'g', 'E', 'G', '%', 'F'].contains type then .ok ⟨separator, 3⟩
  else if separator = '_' && ['b', 'o', 'x', 'X'].contains type then .ok ⟨separator, 4⟩
  else .error (.separatorWith separator type)

/-- The presentation type that a kind of value has when none is given. -/
def defaultType : Kind → Char
  | .text => 's'
  | .number => 'd'

/-- The alignment that a kind of value has when none is given. -/
def defaultAlignment : Kind → Alignment
  | .text => .left
  | .number => .right

def read (kind : Kind) (spec : List Char) : Except Flaw FormatSpec := do
  let (fill?, alignment?, cs) := alignmentPart spec
  let (sign, cs) := signPart cs
  let (zeroSign, cs) := mark 'z' cs
  let (alternate, cs) := mark '#' cs
  let (zeros, cs) := if fill?.isNone then mark '0' cs else (false, cs)
  let (width?, cs) ← number none cs
  let (separator?, cs) ← separatorPart cs
  let (precision, cs) ← precisionPart cs
  let type ← match cs with
    | [] => pure (defaultType kind)
    | [c] => pure c
    | _ => throw (.invalidFormat (String.ofList spec) kind)
  let grouping ← match separator? with
    | none => pure none
    | some separator => some <$> groupingFor separator type
  let alignment := alignment?.getD
    (if zeros && kind = .number then .afterSign else defaultAlignment kind)
  return { fill := if zeros then '0' else fill?.getD ' ', alignment, sign, zeroSign, alternate,
           width := width?.getD 0, grouping, precision, type }

end FormatSpec

end SourceRecovery.Template
