import SourceRecovery.Image.Constant
import SourceRecovery.Image.Schema
import SourceRecovery.Image.View

/-!
# Metadata of managed images

The rows of the metadata tables in the terms of the program, and the questions that it asks them.
Rows are numbered from one. Any way to read metadata from bytes gives a way to look into images.
-/

namespace SourceRecovery.Image

/-- A type: its name, its name space, and the rows that it lists as its fields and methods. -/
structure TypeRow where
  name : String
  space : String
  fields : List Nat
  methods : List Nat
  deriving DecidableEq, Repr

def TypeRow.fullName (t : TypeRow) : String :=
  if t.space.isEmpty then t.name else t.space ++ "." ++ t.name

structure ConstantRow where
  table : Nat
  row : Nat
  code : Nat
  value : Option Bytes
  deriving DecidableEq, Repr

structure AssemblyRow where
  name : String
  version : Version
  deriving DecidableEq, Repr

structure Metadata where
  nativeEntry : Bool
  entryToken : Nat
  modules : List String
  types : List TypeRow
  fields : List String
  constants : List ConstantRow
  assemblies : List AssemblyRow
  references : List String
  nested : List Nat
  resources : List Resource
  deriving DecidableEq, Repr

namespace Metadata

/-! ### Questions -/

/-- The text before the last point of a name. -/
def withoutExtension (name : String) : String :=
  let cs := name.toList
  if cs.contains '.' then String.ofList ((cs.reverse.dropWhile (· ≠ '.')).drop 1).reverse else name

/-- The declared name: that of the first assembly, or else that of the first module without its
extension. -/
def moduleName (m : Metadata) : String :=
  match m.assemblies, m.modules with
  | a :: _, _ => a.name
  | [], name :: _ => withoutExtension name
  | [], [] => ""

def version (m : Metadata) : Version :=
  match m.assemblies with
  | a :: _ => a.version
  | [] => ⟨0, 0, 0, 0⟩

/-- The method that runs first, if it is one of the image's own. -/
def entryMethod (m : Metadata) : Option Nat :=
  if m.nativeEntry ∨ m.entryToken = 0 ∨ m.entryToken / 0x1000000 ≠ Schema.methodDef then none
  else some (m.entryToken % 0x1000000)

/-- The full name of the first type that declares the method that runs first. -/
def entryPoint (m : Metadata) : Option String := do
  let method ← m.entryMethod
  let owner ← m.types.find? (·.methods.contains method)
  return owner.fullName

/-- The integer constant of a field: the last constant that belongs to its row decides. -/
def constantOf (m : Metadata) (row : Nat) : Option Int := do
  let c ← m.constants.reverse.find? fun c => c.table = Schema.field ∧ c.row = row
  Constant.decode c.code c.value

def fieldName? (m : Metadata) (row : Nat) : Option String :=
  if row = 0 then none else m.fields[row - 1]?

/-- The fields of a type with their constants. Rows beyond the table are passed over. -/
def fieldsOf (m : Metadata) (t : TypeRow) : List FieldInfo :=
  t.fields.filterMap fun row =>
    (m.fieldName? row).map fun name => ⟨name, m.constantOf row⟩

/-- The types that are not nested, with their rows. -/
def topTypes (m : Metadata) : List TypeRow :=
  (m.types.zipIdx 1).filterMap fun (t, row) => if m.nested.contains row then none else some t

/-- The full names of the types that are neither nested nor generated. -/
def typeNames (m : Metadata) : List String :=
  (m.topTypes.filter fun t => t.name.toList.head? ≠ some '<').map TypeRow.fullName

/-- What the metadata says about the image. -/
def view (m : Metadata) : ImageView :=
  { moduleName := m.moduleName
    entryPoint := m.entryPoint
    version := m.version
    types := m.types.map fun t => ⟨t.fullName, m.fieldsOf t⟩
    resources := m.resources
    references := m.references
    typeNames := m.typeNames }

/-- The reader that looks into an image through its metadata, given a way to read these. -/
def reader (read : Bytes → Except ImageError Metadata) : ImageReader :=
  fun image => view <$> read image

end Metadata

end SourceRecovery.Image
