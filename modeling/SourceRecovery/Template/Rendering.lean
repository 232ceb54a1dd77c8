import SourceRecovery.Number.Decimal
import SourceRecovery.Template.FormatSpec

/-!
# Rendering values

How a text or an integer is laid out by a format specification.
-/

namespace SourceRecovery.Template

/-- The paddings on the left and on the right that widen a body of some length. -/
def padding (alignment : Alignment) (width length : Nat) : Nat × Nat :=
  let total := width - length
  match alignment with
  | .right => (total, 0)
  | .center => (total / 2, total - total / 2)
  | .left | .afterSign => (0, total)

def renderText (spec : FormatSpec) (cs : List Char) : Except Flaw (List Char) :=
  if spec.type ≠ 's' then .error (.unknownType spec.type .text)
  else match spec.sign with
    | some .space => .error .spaceOnText
    | some _ => .error .signOnText
    | none =>
      if spec.zeroSign then .error .zeroSignOnText
      else if spec.alternate then .error .alternateOnText
      else if spec.alignment = .afterSign then .error .fillAfterSignOnText
      else
        let cs := match spec.precision with
          | some n => cs.take n
          | none => cs
        let (left, right) := padding spec.alignment spec.width cs.length
        .ok (List.replicate left spec.fill ++ cs ++ List.replicate right spec.fill)

/-! ### Numbers -/

/-- Group digits, given from the last one on, into at least `width` characters, zeros in front
and separators included. The number bounds the groups. -/
def group (grouping : Grouping) : Nat → Nat → List Char → List Char
  | 0, _, ds => ds
  | n + 1, width, ds =>
    let size := min grouping.size (max (max ds.length width) 1)
    let chunk := ds.take size ++ List.replicate (size - ds.length) '0'
    let rest := ds.drop size
    if rest = [] ∧ width ≤ size then chunk
    else chunk ++ grouping.separator :: group grouping n (width - size - 1) rest

/-- Digits filled with zeros in front and grouped, at least `width` characters wide. -/
def groupedDigits (grouping : Option Grouping) (width : Nat) (ds : List Char) : List Char :=
  match grouping with
  | none => List.replicate (width - ds.length) '0' ++ ds
  | some g => (group g (ds.length + width + 1) width ds.reverse).reverse

/-- A number taken apart: whether it is negative, the mark of its base, its digits, and what
follows them. -/
structure NumberParts where
  negative : Bool
  base : List Char
  digits : List Char
  remainder : List Char

/-- The sign that a style writes. -/
def signChars (style : Option SignStyle) (negative : Bool) : List Char :=
  if negative then ['-']
  else match style with
    | some .plus => ['+']
    | some .space => [' ']
    | _ => []

def layOut (spec : FormatSpec) (parts : NumberParts) : List Char :=
  let sign := signChars spec.sign parts.negative
  let around := sign.length + parts.base.length + parts.remainder.length
  let zeroFill := spec.fill = '0' && spec.alignment = .afterSign
  let digits :=
    if parts.digits = [] then []
    else groupedDigits spec.grouping (if zeroFill then spec.width - around else 0) parts.digits
  let length := around + digits.length
  let body := digits ++ parts.remainder
  if spec.alignment = .afterSign then
    sign ++ parts.base ++ List.replicate (spec.width - length) spec.fill ++ body
  else
    let (left, right) := padding spec.alignment spec.width length
    List.replicate left spec.fill ++ sign ++ parts.base ++ body ++ List.replicate right spec.fill

/-- Lay out an integer as the character with its number. -/
def renderCharacter (spec : FormatSpec) (n : Int) : Except Failure (List Char) :=
  if spec.sign.isSome then .error (.flawed .signOnCharacter)
  else if spec.alternate then .error (.flawed .alternateOnCharacter)
  else if n < 0 ∨ 0x10FFFF < n then .error .outOfRange
  else
    let code := n.toNat
    let c := if 0xD800 ≤ code ∧ code ≤ 0xDFFF then Text.ofSurrogate code else Char.ofNat code
    .ok (layOut spec ⟨false, [], [], [c]⟩)

/-- Lay out an integer in a base. -/
def renderInBase (spec : FormatSpec) (base : Nat) (letter : Char) (n : Int) : List Char :=
  let digits := Nat.toDigits base n.natAbs
  let digits := if letter = 'X' then digits.map Char.toUpper else digits
  layOut spec ⟨n < 0, if spec.alternate && base ≠ 10 then ['0', letter] else [], digits, []⟩

/-- Lay out an integer in base ten, in which it can be too long. -/
def renderDecimal (spec : FormatSpec) (n : Int) : Except Failure (List Char) :=
  match Numeral.write n with
  | .ok _ => .ok (renderInBase spec 10 'd' n)
  | .error cause => .error (.flawed (.numeral cause))

/-! ### Numbers in double precision -/

/-- Split digits with a point at the point. -/
def splitAtPoint (cs : List Char) : List Char × List Char :=
  (cs.takeWhile Char.isDigit, cs.dropWhile Char.isDigit)

/-- Significant digits with a point after the first, and an exponent. -/
def scientific (count : Nat) (keepPoint upper trim : Bool) (x : Binary64) : List Char :=
  let (n, e) := x.significant count
  let ds := Binary64.paddedDigits count n
  let places := if trim then Binary64.dropTrailingZeros (ds.drop 1) else ds.drop 1
  let point := if places = [] ∧ !keepPoint then [] else ['.']
  ds.take 1 ++ point ++ places ++ (if upper then 'E' else 'e') :: Binary64.exponentText e

/-- The shorter of the positional and the exponent form with some significant digits: zeros at
the end are dropped unless `keepZeros`. -/
def general (count : Nat) (keepZeros upper : Bool) (x : Binary64) : List Char :=
  let count := max count 1
  let (n, e) := x.significant count
  if e < -4 ∨ (count : Int) ≤ e then scientific count keepZeros upper (!keepZeros) x
  else
    let ds := Binary64.paddedDigits count n
    let whole := (e + 1).toNat
    let places := if keepZeros then ds.drop whole else Binary64.dropTrailingZeros (ds.drop whole)
    ds.take whole ++ (if places = [] ∧ !keepZeros then [] else ['.']) ++ places

/-- Lay out the absolute value of a number in double precision; none stands for infinity. -/
def realBody (spec : FormatSpec) (x : Option Binary64) : List Char :=
  let upper := ['E', 'F', 'G'].contains spec.type
  let places := spec.precision.getD 6
  match x with
  | none => if upper then "INF".toList else "inf".toList
  | some x =>
    if spec.type = 'e' ∨ spec.type = 'E' then scientific (places + 1) spec.alternate upper false x
    else if spec.type = 'g' ∨ spec.type = 'G' then general places spec.alternate upper x
    else x.fixedPlaces places spec.alternate

/-- Lay out an integer in double precision, as it is or in per cent. -/
def renderReal (spec : FormatSpec) (n : Int) : Except Failure (List Char) :=
  if (spec.precision.getD 0) > 0x7FFFFFFF then .error (.flawed .precisionTooBig)
  else match Binary64.ofInt? n with
    | none => .error .outOfRange
    | some x =>
      let percent := spec.type = '%'
      let (num, den) := x.ratio
      let x? := if percent then Binary64.ofRatio? x.negative (num * 100) den else some x
      let (digits, remainder) := splitAtPoint (realBody spec x?)
      .ok (layOut spec ⟨n < 0, [], digits, remainder ++ if percent then ['%'] else []⟩)

def renderNumber (spec : FormatSpec) (n : Int) : Except Failure (List Char) :=
  let asInteger (laidOut : Except Failure (List Char)) : Except Failure (List Char) :=
    if spec.precision.isSome then .error (.flawed .precisionOnNumber)
    else if spec.zeroSign then .error (.flawed .zeroSignOnNumber)
    else laidOut
  match spec.type with
  | 'c' => asInteger (renderCharacter spec n)
  | 'd' | 'n' => asInteger (renderDecimal spec n)
  | 'b' => asInteger (.ok (renderInBase spec 2 'b' n))
  | 'o' => asInteger (.ok (renderInBase spec 8 'o' n))
  | 'x' => asInteger (.ok (renderInBase spec 16 'x' n))
  | 'X' => asInteger (.ok (renderInBase spec 16 'X' n))
  | 'e' | 'E' | 'f' | 'F' | 'g' | 'G' | '%' => renderReal spec n
  | type => .error (.flawed (.unknownType type .number))

end SourceRecovery.Template
