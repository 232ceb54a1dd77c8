import SourceRecovery.Files.Operations

/-!
# Embedded references

A build carries some of the libraries it needs as resources. They are written out under the names
that they declare themselves, so that references to them resolve.
-/

namespace SourceRecovery.References

/-- The endings of the libraries of a platform. -/
def suffixes : Platform → List String
  | .windows => [".dll"]
  | .linux => [".dll", ".so"]
  | .mac => [".dll", ".dylib"]
  | .unknown => [".dll"]

/-- The ending that marks a resource as a library of a platform. -/
def suffix? (platform : Platform) (name : String) : Option String :=
  (suffixes platform).find? fun s => s.toList.isSuffixOf name.toList

/-- Put an entry under a name; an entry that is replaced keeps its place. -/
def insert (entries : List (String × Bytes)) (name : String) (data : Bytes) :
    List (String × Bytes) :=
  if entries.any (·.1 = name) then
    entries.map fun (n, d) => if n = name then (n, data) else (n, d)
  else entries ++ [(name, data)]

/-- The libraries among some resources: their endings and their bytes. -/
def libraries (platform : Platform) (resources : List Resource) : List (String × Bytes) :=
  resources.filterMap fun r => do
    let data ← if r.embedded then r.data else none
    return (← suffix? platform r.name, data)

/-- The files to write for the embedded libraries of an image, by their names. -/
def collect (reader : ImageReader) (i : Identity) : Except ImageError (List (String × Bytes)) :=
  (libraries i.platform i.view.resources).foldlM (fun entries (suffix, data) => do
    let view ← reader data
    return insert entries (view.moduleName ++ suffix) data) []

/-- Write the embedded libraries of an image into a directory, and say how many there are. -/
def extract (reader : ImageReader) (i : Identity) (directory : String) : Action Nat := do
  Files.makeDirectories directory true
  let entries ← Action.ofExcept Fault.image (collect reader i)
  (entries.mergeSort fun a b => !Text.precedes b.1 a.1).forM fun (name, data) =>
    Files.write (Path.join directory name) data
  return entries.length

end SourceRecovery.References
