import SourceRecovery.Image.Error
import SourceRecovery.Text.Utf8

/-!
# Views of images

What the program asks an image: its declared name and version, where it starts to run, its types
with their fields, and what it holds and needs. Any reader that gives such a view can stand for
the one that reads the bytes of an executable file.
-/

namespace SourceRecovery

structure Version where
  major : Int
  minor : Int
  build : Int
  revision : Int
  deriving DecidableEq, Repr

def Version.text (v : Version) : String := s!"{v.major}.{v.minor}.{v.build}.{v.revision}"

/-- A field of a type, and its integer constant if it has one. -/
structure FieldInfo where
  name : String
  constant : Option Int
  deriving DecidableEq, Repr

structure TypeInfo where
  fullName : String
  fields : List FieldInfo
  deriving DecidableEq, Repr

structure Resource where
  name : String
  embedded : Bool
  data : Option Bytes
  deriving DecidableEq, Repr

structure ImageView where
  moduleName : String
  /-- The full name of the type that declares the entry point. -/
  entryPoint : Option String
  version : Version
  types : List TypeInfo
  resources : List Resource
  references : List String
  /-- The full names of the types that are neither nested nor generated. -/
  typeNames : List String
  deriving DecidableEq, Repr

/-- A way to look into the bytes of an image. -/
abbrev ImageReader := Bytes → Except ImageError ImageView

namespace ImageView

/-- The first type with a full name. -/
def findType? (v : ImageView) (fullName : String) : Option TypeInfo :=
  v.types.find? (·.fullName = fullName)

end ImageView

/-- The first field of a type with a name. -/
def TypeInfo.findField? (t : TypeInfo) (name : String) : Option FieldInfo :=
  t.fields.find? (·.name = name)

end SourceRecovery
