import SourceRecovery.Number.Binary64

/-!
# Decimal text of double precision numbers

Three notations: a fixed number of decimal places, a fixed number of significant digits, and the
fewest digits that read back as the same number. All digits come from the exact value.
-/

namespace SourceRecovery

namespace Binary64

/-- The decimal digits of a natural, filled with zeros in front to a width. -/
def paddedDigits (width n : Nat) : List Char :=
  let ds := (toString n).toList
  List.replicate (width - ds.length) '0' ++ ds

/-- Digits with a point before the last `places` of them. -/
def withPoint (places : Nat) (keepPoint : Bool) (n : Nat) : List Char :=
  let ds := paddedDigits (places + 1) n
  let whole := ds.take (ds.length - places)
  if places = 0 then (if keepPoint then whole ++ ['.'] else whole)
  else whole ++ '.' :: ds.drop (ds.length - places)

/-- The absolute value with a fixed number of decimal places, a half going to the even digit. -/
def fixedPlaces (places : Nat) (keepPoint : Bool) (x : Binary64) : List Char :=
  let (num, den) := x.ratio
  withPoint places keepPoint (roundDiv (num * Nat.pow 10 places) den)

/-- The number with a fixed number of decimal places. A zero keeps its sign. -/
def toFixed (places : Nat) (x : Binary64) : String :=
  String.ofList ((if x.negative then ['-'] else []) ++ x.fixedPlaces places false)

/-- The exponent of the first significant digit of a positive quotient. -/
def decimalExponent (num den : Nat) : Int :=
  let guess : Int := ((toString num).length : Int) - (toString den).length
  if den * Nat.pow 10 guess.toNat ≤ num * Nat.pow 10 (-guess).toNat then guess else guess - 1

/-- A positive quotient in units of its last of `count` significant digits, as a quotient. -/
def scaled (num den : Nat) (exponent : Int) (count : Nat) : Nat × Nat :=
  let shift : Int := (count : Int) - 1 - exponent
  (num * Nat.pow 10 shift.toNat, den * Nat.pow 10 (-shift).toNat)

/-- `count` significant digits of the absolute value and the exponent of the first of them. -/
def significant (count : Nat) (x : Binary64) : Nat × Int :=
  if x.isZero then (0, 0)
  else
    let (num, den) := x.ratio
    let e := decimalExponent num den
    let (a, b) := scaled num den e count
    let n := roundDiv a b
    if n = Nat.pow 10 count then (Nat.pow 10 (count - 1), e + 1) else (n, e)

/-- Whether digits in units of `10 ^ unit` read back as the absolute value. -/
def readsBack (x : Binary64) (digits : Nat) (unit : Int) : Bool :=
  let (m, e) := nearest (digits * Nat.pow 10 unit.toNat) (Nat.pow 10 (-unit).toNat)
  let (num, den) := x.ratio
  let (num', den') := ratio ⟨false, m, e⟩
  num * den' == num' * den

/-- The candidate on a decimal grid of `count` digits that reads back: the two neighbours of the
value are tried, the nearer first, the even one on a tie. -/
def onGrid? (x : Binary64) (count : Nat) : Option (Nat × Int) :=
  let (num, den) := x.ratio
  let e := decimalExponent num den
  let unit : Int := e - (count - 1 : Nat)
  let (a, b) := scaled num den e count
  let lower := a / b
  let near := roundDiv a b
  let far := if near = lower then lower + 1 else lower
  if readsBack x near unit then some (near, unit)
  else if readsBack x far unit then some (far, unit)
  else none

/-- The fewest digits that read back as the absolute value, in units of a power of ten. -/
def shortestDigits (x : Binary64) : Nat × Int :=
  if x.isZero then (0, 0)
  else ((List.range 17).findSome? fun k => onGrid? x (k + 1)).getD (x.significant 17)

/-- An exponent with its sign and at least two digits. -/
def exponentText (e : Int) : List Char :=
  (if e < 0 then '-' else '+') :: paddedDigits 2 e.natAbs

/-- Digits without the zeros at their end. -/
def dropTrailingZeros (ds : List Char) : List Char :=
  (ds.reverse.dropWhile (· == '0')).reverse

/-- The shortest text that reads back as the number: positional between `10 ^ -4` and `10 ^ 16`,
with `.0` after a whole number, and with an exponent beyond. -/
def toShortest (x : Binary64) : String :=
  let sign := if x.negative then ['-'] else []
  if x.isZero then String.ofList (sign ++ ['0', '.', '0'])
  else
    let (n, unit) := x.shortestDigits
    let all := (toString n).toList
    let first : Int := unit + all.length - 1
    let ds := dropTrailingZeros all
    let body :=
      if first < -4 ∨ 16 ≤ first then
        let mantissa := match ds with
          | [] => []
          | [d] => [d]
          | d :: rest => d :: '.' :: rest
        mantissa ++ 'e' :: exponentText first
      else if first < 0 then
        '0' :: '.' :: List.replicate (-first - 1).toNat '0' ++ ds
      else
        let whole := first.toNat + 1
        ds.take whole ++ List.replicate (whole - ds.length) '0' ++
          '.' :: (if ds.length ≤ whole then ['0'] else ds.drop whole)
    String.ofList (sign ++ body)

end Binary64

/-- The text of a number that a catalog gives in double precision. -/
def Float64.toText : Float64 → String
  | .finite x => x.toShortest
  | .infinite negative => if negative then "-inf" else "inf"
  | .undefined => "nan"

end SourceRecovery
