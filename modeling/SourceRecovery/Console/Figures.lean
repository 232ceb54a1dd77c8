import SourceRecovery.Number.Decimal

/-!
# Figures

How durations, sizes and progress are written on the console.
-/

namespace SourceRecovery.Figures

/-- A duration in whole seconds: its two greatest units among hours, minutes and seconds. -/
def duration (seconds : Int) : String :=
  if seconds < 60 then s!"{seconds}s"
  else if seconds < 3600 then s!"{seconds.fdiv 60}m{seconds.fmod 60}s"
  else s!"{seconds.fdiv 3600}h{(seconds.fmod 3600).fdiv 60}m"

/-- A number of bytes in kilobytes, or in megabytes from one megabyte on, with one decimal place.
There is no text for a number beyond double precision. -/
def size? (bytes : Int) : Option String :=
  if bytes < 1024 * 1024 then (Binary64.quotient? bytes 1024).map fun x => x.toFixed 1 ++ " KB"
  else (Binary64.quotient? bytes (1024 * 1024)).map fun x => x.toFixed 1 ++ " MB"

/-- The filled and the empty cells of a progress bar; a negative number of cells is none. -/
structure Bar where
  filled : Int
  empty : Int
  deriving DecidableEq, Repr

namespace Bar

/-- The bound on the number of cells of a bar. -/
def bound : Int := 0x8000000000000000

def isDrawable (b : Bar) : Bool :=
  -bound ≤ b.filled && b.filled < bound && -bound ≤ b.empty && b.empty < bound

/-- The filled cells of a bar of some width for a part of a total: the width times the share,
toward zero, and at most the width. Without a total none is filled. -/
def filled? (current total width : Int) : Option Int :=
  if total ≤ 0 then some 0
  else (Binary64.quotient? (current * width) total.toNat).map fun share =>
    min width share.truncate

/-- The bar of some width for a part of a total. There is none where the share is beyond double
precision or the cells are too many to be drawn. -/
def of? (current total width : Int) : Option Bar := do
  let filled ← filled? current total width
  let bar : Bar := ⟨filled, width - filled⟩
  if bar.isDrawable then some bar else none

def text (b : Bar) : String :=
  String.ofList (List.replicate b.filled.toNat '█' ++ List.replicate b.empty.toNat '░')

def defaultWidth : Int := 40

end Bar

/-- The share of a total in whole per cent, rounded down and at most a hundred. -/
def percentage (current total : Int) : Int := min 100 ((current * 100).fdiv total)

end SourceRecovery.Figures
