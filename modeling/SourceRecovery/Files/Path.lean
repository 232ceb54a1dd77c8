/-!
# Paths

Paths as texts: how they are joined, taken apart and made absolute. A path names its components
between slashes; making it absolute removes the components that lead nowhere without looking at
any file.
-/

namespace SourceRecovery.Path

/-- The components of a path: the parts between its slashes that are not empty. -/
def components (p : String) : List String :=
  ((p.toList.splitOn '/').filter (· ≠ [])).map String.ofList

def isAbsolute (p : String) : Bool := p.toList.head? = some '/'

def endsInSlash (p : String) : Bool := p.toList.getLast? = some '/'

/-- A path below another one; an absolute path stands for itself. -/
def join (base p : String) : String :=
  if isAbsolute p then p
  else if base.isEmpty || endsInSlash base then base ++ p
  else base ++ "/" ++ p

/-- A path below another one, through several parts. -/
def joinAll (base : String) (parts : List String) : String := parts.foldl join base

/-- The characters of a path after its last slash. -/
def nameChars (cs : List Char) : List Char := (cs.reverse.takeWhile (· ≠ '/')).reverse

/-- The last part of a path; it is empty after a slash at the end. -/
def name (p : String) : String := String.ofList (nameChars p.toList)

/-- The characters of a path up to its last slash. -/
def frontChars (cs : List Char) : List Char := (cs.reverse.dropWhile (· ≠ '/')).reverse

/-- Characters without the slashes at their end. -/
def trimSlashes (cs : List Char) : List Char := (cs.reverse.dropWhile (· = '/')).reverse

/-- The path without its last part and the slashes before that, unless these are the root. -/
def parent (p : String) : String :=
  let front := frontChars p.toList
  String.ofList (if trimSlashes front = [] then front else trimSlashes front)

/-- Follow a component from a directory given by its components, textually. -/
def step (at_ : List String) (c : String) : List String :=
  if c = "." then at_ else if c = ".." then at_.dropLast else at_ ++ [c]

/-- The components left once those that lead nowhere are removed. -/
def settle (base cs : List String) : List String := cs.foldl step base

/-- Where a path starts that is seen from a working directory. -/
def origin (cwd : List String) (p : String) : List String := if isAbsolute p then [] else cwd

/-- The slashes that an absolute path starts with: two stay two, more are one. -/
def leadingSlashes (p : String) : String :=
  match p.toList with
  | '/' :: '/' :: '/' :: _ => "/"
  | '/' :: '/' :: _ => "//"
  | _ => "/"

/-- The path of the directory with some components. -/
def ofComponents (cs : List String) : String := "/" ++ "/".intercalate cs

/-- The components left once those that lead nowhere are removed from a relative path: a `..` at
the start stays. -/
def settleRelative (cs : List String) : List String :=
  cs.foldl (fun kept c =>
    if c = "." then kept
    else if c = ".." ∧ kept ≠ [] ∧ kept.getLast? ≠ some ".." then kept.dropLast
    else kept ++ [c]) []

/-- A path without empty components, `.` and `..`, as far as they lead nowhere. -/
def normal (p : String) : String :=
  if isAbsolute p then leadingSlashes p ++ "/".intercalate (settle [] (components p))
  else match settleRelative (components p) with
    | [] => "."
    | cs => "/".intercalate cs

/-- A path made absolute from a working directory, without empty components, `.` and `..`. -/
def absolute (cwd : List String) (p : String) : String :=
  if isAbsolute p then normal p else ofComponents (settle cwd (components p))

end SourceRecovery.Path
