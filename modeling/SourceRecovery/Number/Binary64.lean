/-!
# Binary64 numbers

Exact arithmetic on double precision numbers: a finite one is a signed mantissa times a power of
two, and every quotient of naturals has one nearest to it, ties going to the even mantissa.
-/

namespace SourceRecovery

/-- The quotient of two naturals, rounded to the nearest, a half going to the even neighbour. -/
def roundDiv (num den : Nat) : Nat :=
  let q := num / den
  let r := num % den
  if 2 * r < den then q
  else if den < 2 * r then q + 1
  else if q % 2 = 0 then q else q + 1

/-- A finite number of double precision: `± mantissa * 2 ^ exponent`. -/
structure Binary64 where
  negative : Bool
  mantissa : Nat
  exponent : Int
  deriving DecidableEq, Repr

namespace Binary64

/-- The exponent of the last place that double precision keeps of a positive quotient: 53 bits,
but nothing below `2 ^ -1074`. -/
def lastPlace (num den : Nat) : Int :=
  let k : Int := (num.log2 : Int) - den.log2
  let floorLog := if den * Nat.pow 2 k.toNat ≤ num * Nat.pow 2 (-k).toNat then k else k - 1
  max (floorLog - 52) (-1074)

/-- The mantissa and exponent nearest to a quotient of naturals. -/
def nearest (num den : Nat) : Nat × Int :=
  if num = 0 then (0, -1074)
  else
    let e := lastPlace num den
    (roundDiv (num * Nat.pow 2 (-e).toNat) (den * Nat.pow 2 e.toNat), e)

/-- Whether a mantissa and exponent exceed the finite range. -/
def overflows (m : Nat) (e : Int) : Bool := 0 ≤ e && Nat.pow 2 1024 ≤ m * Nat.pow 2 e.toNat

/-- The double precision number nearest to a signed quotient of naturals, where there is one. -/
def ofRatio? (negative : Bool) (num den : Nat) : Option Binary64 :=
  let (m, e) := nearest num den
  if overflows m e then none else some ⟨negative, m, e⟩

/-- The quotient of two integers in double precision. The denominator is positive. -/
def quotient? (num : Int) (den : Nat) : Option Binary64 :=
  ofRatio? (num < 0) num.natAbs den

/-- The double precision number nearest to an integer. -/
def ofInt? (n : Int) : Option Binary64 := quotient? n 1

/-- The absolute value as a quotient of naturals. -/
def ratio (x : Binary64) : Nat × Nat :=
  (x.mantissa * Nat.pow 2 x.exponent.toNat, Nat.pow 2 (-x.exponent).toNat)

def truncate (x : Binary64) : Int :=
  let (num, den) := x.ratio
  if x.negative then -((num / den : Nat) : Int) else (num / den : Nat)

def isZero (x : Binary64) : Bool := x.mantissa == 0

end Binary64

/-- What a number in a catalog can be once it is read into double precision. -/
inductive Float64
  | finite (x : Binary64)
  | infinite (negative : Bool)
  | undefined
  deriving DecidableEq, Repr

end SourceRecovery
