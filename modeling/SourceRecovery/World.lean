import SourceRecovery.Fault
import SourceRecovery.Resolver

/-!
# The world of a run

What a run finds and leaves: files, the console and the answers of its operator, the network, the
clock, and the other programs that it starts. An action changes the world and may stop with a
fault; what it did before stays done.
-/

namespace SourceRecovery

/-- What an address answers: a body and the length that is announced for it. -/
structure Response where
  body : Bytes
  length : Option String
  deriving DecidableEq, Repr

/-- What a started decompiler does: the changes that it makes below its output directory before
each time it is looked at, the log it leaves, and its exit code. -/
structure ProcessRun where
  polls : List (List FileTree.Change)
  log : Bytes
  exit : Int
  deriving DecidableEq, Repr

/-- The console: what was written to it, whether it shows colours, and whether a progress bar is
open on it. -/
structure Console where
  output : String
  colored : Bool
  barOpen : Bool
  deriving DecidableEq, Repr

/-- The count of decompiled files: whether it was started, the total announced then, and the
number of files so far. -/
structure Meter where
  started : Bool
  total : Int
  completed : Nat
  deriving DecidableEq, Repr

/-- A count that was not started. -/
def Meter.fresh : Meter := ⟨false, 0, 0⟩

/-- What a decompiler is asked for: to turn an image with a name into a project in a directory,
finding references through a resolver. -/
structure Job where
  image : Bytes
  name : String
  output : String
  resolver : Resolver
  deriving DecidableEq, Repr

/-- What a run does to others. -/
inductive Event
  | asked (question : String)
  | requested (url : String)
  | decompiling (job : Job)
  /-- A program is started with a command; the last word names a file with this content. -/
  | started (command : List String) (image : Bytes)
  /-- A file of a total is reported as decompiled. -/
  | reported (total : Int) (label : String)
  deriving DecidableEq, Repr

structure World where
  tree : FileTree
  /-- The places of links that lead nowhere. Their directories list them, and no path finds them. -/
  links : List (List String) := []
  /-- The components of the working directory. -/
  directory : List String
  /-- The directories in which programs are found by their bare name. -/
  programs : List String
  console : Console
  meter : Meter
  /-- The lines that the operator will enter; where there is none, the input is closed. -/
  answers : List (Option String)
  network : List (String × Response)
  /-- What keeps an address from being asked. -/
  addressProblem : String → Option AddressProblem := fun _ => none
  /-- The times, in milliseconds, that the clock will show. -/
  clock : List Int
  /-- What the decompilers that will be started do. -/
  processes : List ProcessRun
  /-- The moment at which files are written. -/
  now : Int
  /-- What was done to others, the latest last. -/
  journal : List Event

abbrev Action := EStateM Fault World

/-- A result, where there is one, as an action. -/
def Action.ofExcept {ε α : Type} (fault : ε → Fault) : Except ε α → Action α
  | .ok a => pure a
  | .error e => throw (fault e)

namespace World

def note (e : Event) : Action Unit := modify fun w => { w with journal := w.journal ++ [e] }

def nextAnswer : Action (Option String) := do
  let w ← get
  set { w with answers := w.answers.tail }
  return w.answers.headD none

def readClock : Action Int := do
  let w ← get
  set { w with clock := w.clock.tail }
  return w.clock.headD 0

/-- What the decompiler that is started next does; one that nothing is known of does nothing. -/
def nextProcess : Action ProcessRun := do
  let w ← get
  set { w with processes := w.processes.tail }
  return w.processes.headD ⟨[], [], 0⟩

/-- What an address answers, if it can be asked and is reached. -/
def response (w : World) (url : String) : Except Fault Response :=
  match w.addressProblem url with
  | some problem => .error (.archive (.address problem))
  | none => match w.network.lookup url with
    | some response => .ok response
    | none => .error .unreachable

def request (url : String) : Action Response := do
  note (.requested url)
  Action.ofExcept id ((← get).response url)

end World

end SourceRecovery
