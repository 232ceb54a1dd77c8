import SourceRecovery.Files.Tree

/-!
# Resolving references

A resolver looks for the file of a referenced assembly in an ordered list of directories. The
framework's own assemblies are left to the decompiler.
-/

namespace SourceRecovery

/-- The assemblies of the framework that are known by their whole name. -/
def frameworkNames : List String :=
  ["mscorlib", "netstandard", "System", "WindowsBase", "PresentationCore",
   "PresentationFramework", "Microsoft.CSharp", "Microsoft.VisualBasic"]

/-- The beginnings of the names of all other assemblies of the framework. -/
def frameworkFamilies : List String := ["System.", "Microsoft.Win32."]

def isFramework (name : String) : Bool :=
  frameworkNames.contains name || frameworkFamilies.any fun f => f.toList.isPrefixOf name.toList

/-- A resolver: the directories it searches, as absolute paths without repetition, and whether an
unresolved reference is an error. -/
structure Resolver where
  directories : List String
  strict : Bool
  deriving DecidableEq, Repr

namespace Resolver

/-- The endings of the file of an assembly, in the order in which they are tried. -/
def extensions : List String := [".dll", ".exe"]

/-- The directories with one more, unless they hold it already. -/
def insert (ds : List String) (d : String) : List String := if ds.contains d then ds else ds ++ [d]

/-- The resolver that searches one more directory. -/
def add (r : Resolver) (cwd : List String) (directory : String) : Resolver :=
  { r with directories := insert r.directories (Path.absolute cwd directory) }

/-- The resolver that searches some directories. -/
def ofDirectories (cwd : List String) (directories : List String) (strict : Bool) : Resolver :=
  directories.foldl (fun r d => r.add cwd d) ⟨[], strict⟩

/-- The files that an assembly may be in, in the order in which they are tried. -/
def candidates (r : Resolver) (name : String) : List String :=
  r.directories.flatMap fun d => extensions.map fun e => Path.join d (name ++ e)

/-- The first file there is among those that an assembly may be in. -/
def resolve (r : Resolver) (t : FileTree) (cwd : List String) (name : String) : Option String :=
  (r.candidates name).find? fun p => t.isFile cwd p

/-- The names that neither belong to the framework nor resolve. -/
def unresolved (r : Resolver) (t : FileTree) (cwd : List String) (names : List String) :
    List String :=
  names.filter fun name => !isFramework name && (r.resolve t cwd name).isNone

/-- Texts in ascending order of their characters, each once. -/
def ascending (names : List String) : List String :=
  (names.mergeSort fun a b => !Text.precedes b a).eraseReps

/-- The unresolved names, or in ascending order as an error if there are any and the resolver is
strict. -/
def check (r : Resolver) (t : FileTree) (cwd : List String) (names : List String) :
    Except (List String) (List String) :=
  let missing := r.unresolved t cwd names
  if missing ≠ [] && r.strict then .error (ascending missing) else .ok missing

end Resolver

end SourceRecovery
