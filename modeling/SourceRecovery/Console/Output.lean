import SourceRecovery.Console.Box
import SourceRecovery.Console.Figures
import SourceRecovery.Console.Palette
import SourceRecovery.Console.Stream
import SourceRecovery.Text.Blank
import SourceRecovery.World

/-!
# Writing to the console

Log lines, the banner, boxes, questions to the operator, and the progress bar, which is redrawn in
place until it is closed.
-/

namespace SourceRecovery.Console

variable [Stream]

/-- Write a text, unless the stream has no encoding for it. -/
def write (s : String) : Action Unit :=
  if Stream.refuses s then throw .unprintable
  else modify fun w => { w with console := { w.console with output := w.console.output ++ s } }

def line (s : String) : Action Unit := write (s ++ "\n")

/-- The colours of the console. -/
def palette : Action Palette := return .ofFlag (← get).console.colored

/-! ### Log lines -/

inductive Level
  | info
  | warn
  | error
  | step
  deriving DecidableEq, Repr

/-- The colour and the tag of a level. -/
def Level.tag (p : Palette) : Level → String
  | .info => p.green ++ "[INFO]"
  | .warn => p.yellow ++ "[WARN]"
  | .error => p.red ++ "[ERROR]"
  | .step => p.magenta ++ "[STEP]"

def log (level : Level) (msg : String) : Action Unit := do
  let p ← palette
  line (level.tag p ++ p.plain ++ " " ++ msg)

def info (msg : String) : Action Unit := log .info msg

def warn (msg : String) : Action Unit := log .warn msg

def error (msg : String) : Action Unit := log .error msg

def step (msg : String) : Action Unit := log .step msg

def bannerLines : List String :=
  ["╔══════════════════════════════════════════════════════════════╗",
   "║            SourceGetter - Terraria Server Decompiler         ║",
   "║          Build identification & ILSpy orchestration          ║",
   "╚══════════════════════════════════════════════════════════════╝"]

def banner : Action Unit := do
  let p ← palette
  line p.blue
  bannerLines.forM line
  line p.plain

def box (title subtitle : String) : Action Unit := do
  let p ← palette
  (Box.lines title subtitle).forM fun l => line (p.blue ++ l ++ p.plain)

/-! ### Questions -/

def ask (prompt : String) : Action (Option String) := do
  World.note (.asked prompt)
  line prompt
  World.nextAnswer

/-- Ask a question that only the answer `y` affirms. -/
def confirm (question : String) : Action Bool := do
  let p ← palette
  let answer ← ask (p.yellow ++ question ++ " [y/N]" ++ p.plain)
  return answer.map Text.trim = some "y"

/-! ### Progress -/

/-- Draw the progress bar and the line below it, and go back to where it starts. Without a total
there is nothing to draw. -/
def showProgress (current total : Int) (label : String) : Action Unit := do
  if total ≤ 0 then return
  let p ← palette
  let percentage := Figures.percentage current total
  match Figures.Bar.of? current total Figures.Bar.defaultWidth with
  | none => throw .outOfRange
  | some bar =>
    line (s!"\r\x1b[K{p.cyan}[{bar.text}]{p.plain} {p.bold}{percentage}%{p.plain} " ++
      s!"({current}/{total})")
    if label.isEmpty then line s!"\x1b[K{p.dim}  -> Processing...{p.plain}"
    else line s!"\x1b[K{p.dim}  -> {p.plain}{p.green}{label}{p.plain}"
    write "\x1b[2A"
    modify fun w => { w with console := { w.console with barOpen := true } }

/-- Go below the progress bar, if it is open. -/
def leaveBar : Action Unit := do
  if (← get).console.barOpen then
    write "\n\n"
    modify fun w => { w with console := { w.console with barOpen := false } }

/-- Go below the progress bar, and write a summary unless it is empty. -/
def finishProgress (summary : String) : Action Unit := do
  leaveBar
  unless summary.isEmpty do line summary

/-- Report one more file of a total as decompiled. The total that counts is the first one. -/
def report (total : Int) (label : String) : Action Unit := do
  World.note (.reported total label)
  unless (← get).meter.started do
    modify fun w => { w with meter := { w.meter with started := true, total } }
    info s!"Total files: {total}"
  modify fun w => { w with meter := { w.meter with completed := w.meter.completed + 1 } }
  let m := (← get).meter
  showProgress m.completed m.total s!"Decompiled {label}"

end SourceRecovery.Console
