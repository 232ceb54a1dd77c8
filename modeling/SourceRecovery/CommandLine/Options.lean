import SourceRecovery.Decompiler.External
import SourceRecovery.Text.Quoted

/-!
# Options of the command line

How the words of a command line are read. Words that start with a dash are options; a long option
may be cut short as long as one option is meant, its value may follow an equals sign, and the value
of a short one may follow directly. The word `--` ends the options. The first run of other words
gives the targets, and a later one is not recognized.
-/

namespace SourceRecovery.CommandLine

inductive Flag
  | help
  | decompiler
  | catalog
  | urlTemplate
  | output
  | tolerant
  | info
  | colorless
  deriving DecidableEq, Repr

/-- The ways to write each option, in the order in which the options are declared. -/
def spellings : List (String × Flag) :=
  [("-h", .help), ("--help", .help), ("--ilspycmd", .decompiler), ("--catalog", .catalog),
   ("--url-template", .urlTemplate), ("-o", .output), ("--output", .output),
   ("--ignore-resolution-errors", .tolerant), ("--info", .info), ("--no-color", .colorless)]

def Flag.name (f : Flag) : String :=
  "/".intercalate ((spellings.filter (·.2 = f)).map (·.1))

def Flag.takesValue : Flag → Bool
  | .decompiler | .catalog | .urlTemplate | .output => true
  | .help | .tolerant | .info | .colorless => false

structure Options where
  targets : List String
  decompiler : String
  /-- The path of the catalog, unless it is the one that comes with the program. -/
  catalog : Option String
  urlTemplate : Option String
  output : Option String
  tolerant : Bool
  info : Bool
  colorless : Bool
  deriving DecidableEq, Repr

def Options.standard : Options :=
  ⟨[], External.defaultExecutable, none, none, none, false, false, false⟩

inductive UsageError
  | ambiguous (word : String) (matching : List String)
  | valueExpected (flag : Flag)
  | valueIgnored (flag : Flag) (value : String)
  | unrecognized (words : List String)
  deriving DecidableEq, Repr

def UsageError.message : UsageError → String
  | .ambiguous word matching =>
    s!"ambiguous option: {word} could match " ++ ", ".intercalate matching
  | .valueExpected flag => s!"argument {flag.name}: expected one argument"
  | .valueIgnored flag value =>
    s!"argument {flag.name}: ignored explicit argument {Text.quote value}"
  | .unrecognized words => "unrecognized arguments: " ++ " ".intercalate words

/-! ### Words -/

/-- What a word of the command line is. -/
inductive Word
  | plain
  | unknown
  /-- An option, the value written in the same word if there is one, and whether an equals sign
  stands between them. -/
  | option (flag : Flag) (value : Option String) (equals : Bool)
  deriving DecidableEq, Repr

/-- A word cut at its first equals sign. -/
def cutAtEquals (cs : List Char) : List Char × Option String :=
  let before := cs.takeWhile (· ≠ '=')
  if before.length < cs.length then
    (before, some (String.ofList (cs.drop (before.length + 1))))
  else (cs, none)

/-- The options that a word that is none by itself can mean: those that a long word is the start
of, or the short one that a word starts with. -/
def candidates (cs : List Char) : List (String × Word) :=
  match cs with
  | '-' :: '-' :: _ =>
    let (start, value) := cutAtEquals cs
    (spellings.filter fun (s, _) => start.isPrefixOf s.toList).map fun (s, f) =>
      (s, .option f value value.isSome)
  | _ =>
    spellings.filterMap fun (s, f) =>
      if s.toList = cs.take 2 then some (s, .option f (some (String.ofList (cs.drop 2))) false)
      else if cs.isPrefixOf s.toList then some (s, .option f none false)
      else none

/-- Whether a word after its dash is a number: digits, with a point among or before them at
most. A line feed may end it. -/
def isNumber (cs : List Char) : Bool :=
  let cs := if cs.getLast? = some '\n' then cs.dropLast else cs
  let whole := cs.takeWhile (fun c => (Text.digit? c).isSome)
  match cs.drop whole.length with
  | [] => whole ≠ []
  | '.' :: places => places ≠ [] && places.all fun c => (Text.digit? c).isSome
  | _ => false

/-- What a word is, unless it ends the options. -/
def classify (word : String) : Except UsageError Word :=
  let cs := word.toList
  match cs with
  | '-' :: c :: rest =>
    match spellings.lookup word with
    | some flag => .ok (.option flag none false)
    | none =>
      let (start, value) := cutAtEquals cs
      match spellings.lookup (String.ofList start), value with
      | some flag, some value => .ok (.option flag (some value) true)
      | _, _ =>
        match candidates cs with
        | [(_, found)] => .ok found
        | [] => if isNumber (c :: rest) ∨ cs.contains ' ' then .ok .plain else .ok .unknown
        | several => .error (.ambiguous word (several.map (·.1)))
  | _ => .ok .plain

/-- Every word with what it is; after `--` all words are plain, and so is it. -/
def classifyAll : List String → Except UsageError (List (String × Word))
  | [] => .ok []
  | word :: rest =>
    if word = "--" then .ok (("--", .plain) :: rest.map fun w => (w, .plain))
    else do
      let found ← classify word
      return (word, found) :: (← classifyAll rest)

/-! ### Reading -/

/-- The options with a value for one of them. -/
def Options.withValue (o : Options) (flag : Flag) (value : String) : Options :=
  match flag with
  | .decompiler => { o with decompiler := value }
  | .catalog => { o with catalog := some value }
  | .urlTemplate => { o with urlTemplate := some value }
  | .output => { o with output := some value }
  | _ => o

/-- The options with one of them switched on. -/
def Options.switchOn (o : Options) (flag : Flag) : Options :=
  match flag with
  | .tolerant => { o with tolerant := true }
  | .info => { o with info := true }
  | .colorless => { o with colorless := true }
  | _ => o

/-- What a command line asks for: help, or a run. -/
inductive Request
  | help
  | run (o : Options)
  deriving DecidableEq, Repr

/-- What was read so far: the options, the targets once they were met, and the words that are not
recognized. -/
structure Progress where
  options : Options
  targets : Option (List String)
  strange : List String

/-- What follows the first word of a text of words that takes the next one as its value. -/
def nextValue : List (String × Word) → Option (String × List (String × Word))
  | (value, .plain) :: rest => if value = "--" then none else some (value, rest)
  | _ => none

/-- Take a plain word: as a target while the first run of them lasts, and as strange after it. -/
def Progress.addPlain (p : Progress) (inRun : Bool) (word : String) : Progress :=
  match p.targets with
  | none => { p with targets := some [word] }
  | some words =>
    if inRun then { p with targets := some (words ++ [word]) }
    else { p with strange := p.strange ++ [word] }

/-- Finish reading: the first `--` among the targets is none. -/
def Progress.finish (p : Progress) : Except UsageError Request :=
  if p.strange ≠ [] then .error (.unrecognized p.strange)
  else .ok (.run { p.options with targets := (p.targets.getD []).erase "--" })

/-- Read the letters that follow the short option for help in its word: that option again, or the
one for the output, which takes the letters after it or the next word as its value. `rest` is what
follows the word. -/
def readCluster (rest : List (String × Word)) : List Char → Except UsageError Request
  | 'h' :: '=' :: value => .error (.valueIgnored .help (String.ofList value))
  | 'h' :: '-' :: more => .error (.valueIgnored .help (String.ofList ('-' :: more)))
  | 'h' :: more => readCluster rest more
  | ['o'] => if (nextValue rest).isSome then .ok .help else .error (.valueExpected .output)
  | _ => .ok .help

/-- Read words, given what was read before and whether the run of the targets lasts. The number
bounds the words. -/
def readWords : Nat → Bool → Progress → List (String × Word) → Except UsageError Request
  | _, _, p, [] => p.finish
  | 0, _, p, _ => p.finish
  | bound + 1, inRun, p, (word, found) :: rest =>
    match found with
    | .plain =>
      let inRun := inRun || p.targets.isNone
      readWords bound inRun (p.addPlain inRun word) rest
    | .unknown => readWords bound false { p with strange := p.strange ++ [word] } rest
    | .option flag (some value) equals =>
      if flag.takesValue then
        readWords bound false { p with options := p.options.withValue flag value } rest
      else if flag = .help ∧ !equals ∧ !value.isEmpty ∧ value.toList.head? ≠ some '-' then
        readCluster rest value.toList
      else .error (.valueIgnored flag value)
    | .option flag none _ =>
      if flag.takesValue then
        match nextValue rest with
        | some (value, rest) =>
          readWords bound false { p with options := p.options.withValue flag value } rest
        | none => .error (.valueExpected flag)
      else if flag = .help then .ok .help
      else readWords bound false { p with options := p.options.switchOn flag } rest

def Request.read (words : List String) : Except UsageError Request := do
  let classified ← classifyAll words
  readWords classified.length false ⟨.standard, none, []⟩ classified

end SourceRecovery.CommandLine
