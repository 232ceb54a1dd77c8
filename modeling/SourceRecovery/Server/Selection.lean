import SourceRecovery.Catalog.Basic
import SourceRecovery.Console.Output
import SourceRecovery.Server.Image

/-!
# Choosing a build

The operator is shown the catalog and asked for the number of a build until one is entered, and
then for the platforms.
-/

namespace SourceRecovery.Server

variable [Stream]

/-- A text with blanks in front, at least `width` characters wide. -/
def rightAligned (width : Nat) (s : String) : String := Box.cells (width - s.length) ' ' ++ s

def menuLine (index : Nat) (b : Build) : String :=
  rightAligned 3 (toString index) ++ ".    " ++ rightAligned 6 b.version

def menu (c : Catalog) : List String :=
  "Available versions:" :: c.builds.zipIdx.map fun (b, index) => menuLine index b

/-- What an answer to the menu comes to. -/
inductive Choice
  | build (b : Build)
  | notNumber
  | outOfRange
  deriving DecidableEq, Repr

/-- What an answer without the blanks at its ends comes to. -/
def choice (c : Catalog) (answer : String) : Choice :=
  match Numeral.read answer with
  | .error _ => .notNumber
  | .ok index =>
    match c.build? index with
    | some b => .build b
    | none => .outOfRange

/-- The question below the menu. -/
def buildQuestion : String := "Input the No. of the version you want to decompile:"

/-- Show the menu and ask until a build is chosen. The number bounds the answers. -/
def selectWithin (c : Catalog) : Nat → Action Build
  | 0 => throw (.declined "no version selected")
  | bound + 1 => do
    (menu c).forM Console.line
    match ← Console.ask buildQuestion with
    | none => throw (.declined "no version selected")
    | some answer =>
      let answer := Text.trim answer
      match choice c answer with
      | .build b => return b
      | .notNumber => Console.warn s!"Not a number: {Text.quote answer}"
      | .outOfRange => Console.warn s!"Out of range: {answer}"
      selectWithin c bound

/-- Show the menu and ask until a build is chosen or the input is closed. -/
def select (c : Catalog) : Action Build := do
  selectWithin c ((← get).answers.length + 1)

def platformQuestion : String :=
  "Choose the platform you want to decompile: [W(Windows)/l(Linux)/m(Mac)/a(All)]"

def choosePlatforms : Action (List Platform) := do
  match ← Console.ask platformQuestion with
  | none => throw (.declined "no platform selected")
  | some answer => return platformsOf answer

end SourceRecovery.Server
