/-!
# Colours

The codes that colour what is written to a terminal. Where colours are off, every code is empty.
-/

namespace SourceRecovery

structure Palette where
  red : String
  green : String
  yellow : String
  blue : String
  cyan : String
  magenta : String
  bold : String
  dim : String
  /-- Ends a colour. -/
  plain : String
  deriving DecidableEq, Repr

namespace Palette

/-- The codes for a terminal. -/
def colored : Palette :=
  { red := "\x1b[0;31m", green := "\x1b[0;32m", yellow := "\x1b[1;33m", blue := "\x1b[0;34m"
    cyan := "\x1b[0;36m", magenta := "\x1b[0;35m", bold := "\x1b[1m", dim := "\x1b[2m"
    plain := "\x1b[0m" }

def colorless : Palette := ⟨"", "", "", "", "", "", "", "", ""⟩

/-- The codes for a console whose colours are on or off. -/
def ofFlag (on : Bool) : Palette := if on then colored else colorless

end Palette

end SourceRecovery
