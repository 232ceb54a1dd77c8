import SourceRecovery.Files.Path
import SourceRecovery.Text.Surrogate
import SourceRecovery.Text.Utf8

/-!
# File trees

A file tree gives a node, a file or a directory, to absolute paths written as their components.
Operations take path texts and follow them component by component, as the system does: every
component but the last has to be a directory, and a slash at the end asks for one.
-/

namespace SourceRecovery

/-- A file: its content, whether it can be run, and when it was written last. -/
structure File where
  data : Bytes
  executable : Bool
  modified : Int
  deriving DecidableEq, Repr

/-- What a path leads to. -/
inductive Node
  | file (f : File)
  | directory
  deriving DecidableEq, Repr

/-- Why an operation on files is refused. -/
inductive FileProblem
  | notFound
  | alreadyExists
  | notDirectory
  | isDirectory
  | busy
  | invalid
  /-- The path holds a character that ends it for the system. -/
  | cutPath
  /-- The path has no encoding in bytes. -/
  | unencodable
  deriving DecidableEq, Repr

/-- The system takes a path that has an encoding and no character that ends it. -/
def Path.accept (p : String) : Except FileProblem Unit :=
  if !Text.isEncodable p then .error .unencodable
  else if p.toList.contains '\x00' then .error .cutPath
  else .ok ()

/-- A file tree: the nodes below the root by their components. -/
structure FileTree where
  entries : List (List String × Node)
  deriving DecidableEq, Repr

namespace FileTree

/-! ### Nodes -/

/-- The node at some components; the root is a directory. -/
def get? (t : FileTree) : List String → Option Node
  | [] => some .directory
  | p => t.entries.lookup p

/-- The tree with a node put at some components. -/
def put (t : FileTree) (p : List String) (n : Node) : FileTree :=
  ⟨(p, n) :: t.entries.filter (·.1 ≠ p)⟩

/-- The tree without the node at some components. -/
def erase (t : FileTree) (p : List String) : FileTree := ⟨t.entries.filter (·.1 ≠ p)⟩

/-- The tree without the nodes below some components. -/
def eraseBelow (t : FileTree) (p : List String) : FileTree :=
  ⟨t.entries.filter fun e => e.1 = p || !p.isPrefixOf e.1⟩

/-- The first entry of each key. -/
def firsts : List (List String × Node) → List (List String × Node)
  | [] => []
  | e :: es => e :: (firsts es).filter (·.1 ≠ e.1)

/-- The nodes below some components, by the components that lead on to them. -/
def below (t : FileTree) (p : List String) : List (List String × Node) :=
  (firsts t.entries).filterMap fun (q, n) =>
    if p.isPrefixOf q && q ≠ p then some (q.drop p.length, n) else none

@[simp] theorem get?_nil (t : FileTree) : t.get? [] = some .directory := rfl

theorem lookup_filter_ne {p q : List String} (h : q ≠ p) (es : List (List String × Node)) :
    (es.filter (·.1 ≠ p)).lookup q = es.lookup q := by
  induction es with
  | nil => rfl
  | cons e es ih =>
    obtain ⟨r, n⟩ := e
    by_cases hr : r = p
    · subst hr
      have hq : (q == r) = false := by simpa using h
      simpa [List.lookup_cons, hq] using ih
    · cases hq : q == r <;> simp_all [List.lookup_cons]

/-- What was put is found. -/
theorem get?_put_self {p : List String} (t : FileTree) (n : Node) (h : p ≠ []) :
    (t.put p n).get? p = some n := by
  cases p with
  | nil => exact absurd rfl h
  | cons c cs => simp [get?, put]

/-- Putting a node changes no other one. -/
theorem get?_put_of_ne {p q : List String} (t : FileTree) (n : Node) (h : q ≠ p) :
    (t.put p n).get? q = t.get? q := by
  cases q with
  | nil => rfl
  | cons c cs =>
    have hb : ((c :: cs) == p) = false := by simpa using h
    simpa [get?, put, List.lookup_cons, hb] using lookup_filter_ne h t.entries

/-- Erasing a node changes no other one. -/
theorem get?_erase_of_ne {p q : List String} (t : FileTree) (h : q ≠ p) :
    (t.erase p).get? q = t.get? q := by
  cases q with
  | nil => rfl
  | cons c cs => simpa [get?, erase] using lookup_filter_ne h t.entries

/-- What was erased is gone. -/
theorem get?_erase_self {p : List String} (t : FileTree) (h : p ≠ []) :
    (t.erase p).get? p = none := by
  cases p with
  | nil => exact absurd rfl h
  | cons c cs =>
    simp only [get?, erase, List.lookup_eq_none_iff, List.mem_filter]
    rintro e ⟨-, he⟩
    have hne : e.1 ≠ c :: cs := by simpa using he
    simpa using Ne.symm hne

/-- Of two nodes put at the same components the second one counts. -/
theorem put_put (t : FileTree) (p : List String) (n m : Node) :
    (t.put p n).put p m = t.put p m := by
  simp [put]

/-! ### Following paths -/

/-- Follow components from a directory: each is looked up in a directory, and the last one may
lead to nothing. -/
def follow (t : FileTree) : List String → List String → Except FileProblem (List String)
  | place, [] => .ok place
  | place, c :: cs =>
    match t.get? place with
    | none => .error .notFound
    | some (.file _) => .error .notDirectory
    | some .directory => follow t (Path.step place c) cs

/-- Where a path leads: the components, the node there, whether the path ends in a slash, and
whether its last component is a name of its own. -/
structure Spot where
  place : List String
  node : Option Node
  slash : Bool
  named : Bool
  deriving DecidableEq, Repr

/-- Find where the components of a path lead from a working directory; an empty path leads
nowhere. -/
def reach (t : FileTree) (cwd : List String) (p : String) : Except FileProblem Spot :=
  if p.isEmpty then .error .notFound
  else do
    let cs := Path.components p
    let place ← t.follow (Path.origin cwd p) cs
    let named := match cs.getLast? with
      | none => false
      | some c => c ≠ "." && c ≠ ".."
    return { place, node := t.get? place, slash := Path.endsInSlash p, named }

/-- Find where a path leads from a working directory. -/
def locate (t : FileTree) (cwd : List String) (p : String) : Except FileProblem Spot := do
  Path.accept p
  t.reach cwd p

/-- The node that a path leads to. -/
def find (t : FileTree) (cwd : List String) (p : String) : Except FileProblem Node := do
  let spot ← t.locate cwd p
  match spot.node with
  | none => .error .notFound
  | some (.file f) => if spot.slash then .error .notDirectory else .ok (.file f)
  | some .directory => .ok .directory

def isFile (t : FileTree) (cwd : List String) (p : String) : Bool :=
  match t.find cwd p with
  | .ok (.file _) => true
  | _ => false

def isDirectory (t : FileTree) (cwd : List String) (p : String) : Bool :=
  match t.find cwd p with
  | .ok .directory => true
  | _ => false

def pathExists (t : FileTree) (cwd : List String) (p : String) : Bool :=
  match t.find cwd p with
  | .ok _ => true
  | .error _ => false

/-! ### Reading and changing -/

def read (t : FileTree) (cwd : List String) (p : String) : Except FileProblem Bytes := do
  match ← t.find cwd p with
  | .file f => .ok f.data
  | .directory => .error .isDirectory

/-- When the file that a path leads to was written last; no moments are kept of directories. -/
def modified (t : FileTree) (cwd : List String) (p : String) : Except FileProblem Int := do
  match ← t.find cwd p with
  | .file f => .ok f.modified
  | .directory => .error .isDirectory

/-- Write a file at a moment; a file that exists keeps its permission to be run. -/
def write (t : FileTree) (cwd : List String) (now : Int) (p : String) (data : Bytes) :
    Except FileProblem FileTree := do
  let spot ← t.locate cwd p
  if spot.slash then .error .isDirectory
  else match spot.node with
    | some .directory => .error .isDirectory
    | some (.file f) => .ok (t.put spot.place (.file ⟨data, f.executable, now⟩))
    | none => .ok (t.put spot.place (.file ⟨data, false, now⟩))

/-- Make a directory where there is nothing yet. -/
def makeDirectory (t : FileTree) (cwd : List String) (p : String) :
    Except FileProblem FileTree := do
  let spot ← t.locate cwd p
  match spot.node with
  | some _ => .error .alreadyExists
  | none => .ok (t.put spot.place .directory)

def remove (t : FileTree) (cwd : List String) (p : String) : Except FileProblem FileTree := do
  let spot ← t.locate cwd p
  match spot.node with
  | none => .error .notFound
  | some .directory => .error .isDirectory
  | some (.file _) => if spot.slash then .error .notDirectory else .ok (t.erase spot.place)

/-- Give a file a new path, replacing a file that is there. -/
def rename (t : FileTree) (cwd : List String) (source target : String) :
    Except FileProblem FileTree := do
  let old ← t.locate cwd source
  let new ← t.locate cwd target
  if !old.named || !new.named then .error .busy
  else match old.node with
    | none => .error .notFound
    | some .directory => .error .isDirectory
    | some (.file f) =>
      if old.slash || new.slash then .error .notDirectory
      else match new.node with
        | some .directory => .error .isDirectory
        | _ => .ok ((t.erase old.place).put new.place (.file f))

/-- Remove a directory and everything below it. Where the path ends in no name, everything below
is removed and the directory itself is not: why, is given with the tree. -/
def removeAll (t : FileTree) (cwd : List String) (p : String) :
    Except FileProblem (FileTree × Option FileProblem) := do
  let spot ← t.locate cwd p
  match spot.node with
  | none => .error .notFound
  | some (.file _) => .error .notDirectory
  | some .directory =>
    let emptied := t.eraseBelow spot.place
    if spot.named then .ok (emptied.erase spot.place, none)
    else match emptied.locate cwd p with
      | .ok _ => .ok (emptied, some .invalid)
      | .error problem => .ok (emptied, some problem)

/-! ### Writing from outside -/

/-- A change that is made to the tree from outside: a file is written, a directory made or a
file removed, below some directory. Directories on the way are made. -/
inductive Change
  | file (path : String) (f : File)
  | directory (path : String)
  | removal (path : String)
  deriving DecidableEq, Repr

/-- The tree with a directory at some components and at all that lead to them. -/
def ensure (t : FileTree) (p : List String) : FileTree :=
  (List.range p.length).foldl (fun t n =>
    let q := p.take (n + 1)
    if (t.get? q).isSome then t else t.put q .directory) t

/-- Make a change below a directory. -/
def apply (t : FileTree) (base : List String) : Change → FileTree
  | .file path f =>
    let p := Path.settle base (Path.components path)
    (t.ensure p.dropLast).put p (.file f)
  | .directory path => t.ensure (Path.settle base (Path.components path))
  | .removal path => t.erase (Path.settle base (Path.components path))

end FileTree

end SourceRecovery
