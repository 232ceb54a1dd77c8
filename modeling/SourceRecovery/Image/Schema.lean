/-!
# Schemas of metadata tables

The metadata of a managed image is a set of numbered tables. The schema of a table lists its
columns; how many bytes a column takes depends on the size of the heap or table it points into.
-/

namespace SourceRecovery.Image

inductive Column
  /-- A number of a fixed size in bytes. -/
  | number (size : Nat)
  | string
  | guid
  | blob
  /-- A row of one table. -/
  | row (table : Nat)
  /-- A row of one of several tables, told apart by the lowest bits. -/
  | choice (tagBits : Nat) (tables : List Nat)
  deriving DecidableEq, Repr

namespace Schema

/-! ### Tables by number -/

def module : Nat := 0

/-- The table of the types that the image defines. -/
def typeDef : Nat := 2

def field : Nat := 4

def methodDef : Nat := 6

def constant : Nat := 11

/-- The table of the declared assembly. -/
def assembly : Nat := 32

/-- The table of the assemblies that are needed. -/
def assemblyRef : Nat := 35

def manifestResource : Nat := 40

def nestedClass : Nat := 41

/-! ### Columns that choose between tables -/

/-- A type: defined here, elsewhere, or built from others. -/
def typeDefOrRef : Column := .choice 2 [2, 1, 27]

/-- What a constant belongs to: a field, a parameter or a property. -/
def hasConstant : Column := .choice 2 [4, 8, 23]

/-- What an attribute is attached to. -/
def hasCustomAttribute : Column :=
  .choice 5 [6, 4, 1, 2, 8, 9, 10, 0, 14, 23, 20, 17, 26, 27, 32, 35, 38, 39, 40, 42, 44, 43]

/-- What a native layout belongs to. -/
def hasFieldMarshal : Column := .choice 1 [4, 8]

/-- What a permission belongs to. -/
def hasDeclSecurity : Column := .choice 2 [2, 6, 32]

/-- What a member of another image belongs to. -/
def memberRefParent : Column := .choice 3 [2, 1, 26, 6, 27]

/-- What a method serves: an event or a property. -/
def hasSemantics : Column := .choice 1 [20, 23]

/-- A method: defined here or elsewhere. -/
def methodDefOrRef : Column := .choice 1 [6, 10]

/-- What is implemented by native code. -/
def memberForwarded : Column := .choice 1 [4, 6]

/-- Where a resource or an exported type lies; zero is the image itself. -/
def implementation : Column := .choice 2 [38, 35, 39]

/-- The constructor of an attribute. -/
def customAttributeType : Column := .choice 3 [6, 10]

/-- Where a type of another image lies. -/
def resolutionScope : Column := .choice 2 [0, 26, 35, 1]

/-- What a type parameter belongs to. -/
def typeOrMethodDef : Column := .choice 1 [2, 6]

/-- The columns of each table, by its number. -/
def columns : List (List Column) := [
  /- 0 -/ [.number 2, .string, .guid, .guid, .guid],
  /- 1 -/ [resolutionScope, .string, .string],
  /- 2 -/ [.number 4, .string, .string, typeDefOrRef, .row 4, .row 6],
  /- 3 -/ [.row 4],
  /- 4 -/ [.number 2, .string, .blob],
  /- 5 -/ [.row 6],
  /- 6 -/ [.number 4, .number 2, .number 2, .string, .blob, .row 8],
  /- 7 -/ [.row 8],
  /- 8 -/ [.number 2, .number 2, .string],
  /- 9 -/ [.row 2, typeDefOrRef],
  /- 10 -/ [memberRefParent, .string, .blob],
  /- 11 -/ [.number 1, .number 1, hasConstant, .blob],
  /- 12 -/ [hasCustomAttribute, customAttributeType, .blob],
  /- 13 -/ [hasFieldMarshal, .blob],
  /- 14 -/ [.number 2, hasDeclSecurity, .blob],
  /- 15 -/ [.number 2, .number 4, .row 2],
  /- 16 -/ [.number 4, .row 4],
  /- 17 -/ [.blob],
  /- 18 -/ [.row 2, .row 20],
  /- 19 -/ [.row 20],
  /- 20 -/ [.number 2, .string, typeDefOrRef],
  /- 21 -/ [.row 2, .row 23],
  /- 22 -/ [.row 23],
  /- 23 -/ [.number 2, .string, .blob],
  /- 24 -/ [.number 2, .row 6, hasSemantics],
  /- 25 -/ [.row 2, methodDefOrRef, methodDefOrRef],
  /- 26 -/ [.string],
  /- 27 -/ [.blob],
  /- 28 -/ [.number 2, memberForwarded, .string, .row 26],
  /- 29 -/ [.number 4, .row 4],
  /- 30 -/ [.number 4, .number 4],
  /- 31 -/ [.number 4],
  /- 32 -/ [.number 4, .number 2, .number 2, .number 2, .number 2, .number 4, .blob, .string,
    .string],
  /- 33 -/ [.number 4],
  /- 34 -/ [.number 4, .number 4, .number 4],
  /- 35 -/ [.number 2, .number 2, .number 2, .number 2, .number 4, .blob, .string, .string, .blob],
  /- 36 -/ [.number 4, .row 35],
  /- 37 -/ [.number 4, .number 4, .number 4, .row 35],
  /- 38 -/ [.number 4, .string, .blob],
  /- 39 -/ [.number 4, .number 4, .string, .string, implementation],
  /- 40 -/ [.number 4, .number 4, .string, implementation],
  /- 41 -/ [.row 2, .row 2],
  /- 42 -/ [.number 2, .number 2, typeOrMethodDef, .string],
  /- 43 -/ [methodDefOrRef, .blob],
  /- 44 -/ [.row 42, typeDefOrRef]]

/-- The sizes that the widths of columns depend on: the flags of wide heaps and the number of rows
of each table. -/
structure Sizes where
  wideStrings : Bool
  wideGuids : Bool
  wideBlobs : Bool
  rows : List Nat

/-- The number of rows of a table. -/
def Sizes.rowCount (s : Sizes) (table : Nat) : Nat := s.rows.getD table 0

/-- Two bytes, or four where something is wide. -/
def narrow (wide : Bool) : Nat := if wide then 4 else 2

def width (s : Sizes) : Column → Nat
  | .number size => size
  | .string => narrow s.wideStrings
  | .guid => narrow s.wideGuids
  | .blob => narrow s.wideBlobs
  | .row table => narrow (0x10000 < s.rowCount table)
  | .choice tagBits tables => narrow (tables.any fun t => Nat.pow 2 (16 - tagBits) < s.rowCount t)

end Schema

end SourceRecovery.Image
