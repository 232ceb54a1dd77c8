import SourceRecovery.Catalog.Error
import SourceRecovery.Files.Operations
import SourceRecovery.Template.Expansion
import SourceRecovery.Text.Replace

/-!
# Catalogs

A catalog lists the server builds that can be downloaded, numbered from zero without a gap, and
says by templates where a build is found and what its file is called.
-/

namespace SourceRecovery

/-- A build: its public version and the number of its archive. -/
structure Build where
  version : String
  archive : Option Int
  deriving DecidableEq, Repr

structure Catalog where
  builds : List Build
  urlTemplate : Json
  fileTemplate : Json

namespace Catalog

/-! ### Reading -/

/-- A result of catalog data: what is wrong with a catalog is one fault among others. -/
abbrev Result := Except Fault

def fail {α : Type} (cause : CatalogError) : Result α := .error (.catalog cause)

/-- The archive number that a value gives. -/
def archiveOf : Json → Result (Option Int)
  | .null => .ok none
  | .bool b => .ok (some (if b then 1 else 0))
  | .int n => .ok (some n)
  | .real (.finite x) => .ok (some x.truncate)
  | .real (.infinite _) => .error .outOfRange
  | .real .undefined => .error .undefinedNumber
  | .text s =>
    match Numeral.read s with
    | .ok n => .ok (some n)
    | .error cause => .error (.numeral cause)
  | .list _ => .error .wrongKind
  | .object _ => .error .wrongKind

/-- The text of a version. -/
def versionOf (v : Json) : Result String :=
  match v.shown with
  | .ok text => .ok text
  | .error cause => .error (.numeral cause)

/-- The build that a member of the catalog describes: an object with a version, or a version on
its own. -/
def buildOf (key : Nat) : Json → Result Build
  | .object members =>
    match Json.member? members "version" with
    | none => fail (.noVersion key)
    | some version => do
      let text ← versionOf version
      let archive ← archiveOf ((Json.member? members "archive").getD .null)
      return ⟨text, archive⟩
  | entry => do return ⟨← versionOf entry, none⟩

/-- The number that a key reads as. -/
def keyOf (key : String) : Result Int :=
  match Numeral.read key with
  | .ok n => .ok n
  | .error cause => fail (.badKey cause)

/-- The builds of a catalog by their numbers. Every key reads as a number of its own, and the
numbers go up from zero without a gap. -/
def buildsOf (members : List (String × Json)) : Result (List Build) := do
  let keyed ← members.mapM fun (key, entry) => return (← keyOf key, entry)
  let keys := keyed.map (·.1)
  if keys.eraseDups.length ≠ keys.length then fail .collidingKeys
  let sorted := keys.mergeSort
  if sorted ≠ (List.range keys.length).map Int.ofNat then fail (.gap sorted)
  (List.range keys.length).mapM fun k => buildOf k ((keyed.lookup (k : Int)).getD .null)

/-- The name of a build's file where the catalog does not say it. -/
def defaultFileTemplate : String := "terraria-server-{version}"

/-- The first of two values that is not void. -/
def firstOf (a b : Json) : Option Json :=
  if !a.isVoid then some a else if !b.isVoid then some b else none

/-- The catalog that a value describes. A template of the operator's goes before its own. -/
def ofJson (data : Json) (urlTemplate : Option String) : Result Catalog := do
  match data with
  | .object members =>
    let builds ← match Json.member? members "builds" with
      | some (.object (m :: ms)) => buildsOf (m :: ms)
      | _ => fail .noBuilds
    let given := (urlTemplate.map Json.text).getD .null
    match firstOf given ((Json.member? members "url_template").getD .null) with
    | none => fail .noUrlTemplate
    | some template =>
      return { builds
               urlTemplate := template
               fileTemplate := (Json.member? members "file_template").getD
                 (.text defaultFileTemplate) }
  | _ => .error .noMember

def bundled : Json :=
  let versions := ["1423", "143", "1431", "1432", "1433", "1434", "1435", "1436", "144", "1441",
    "1442", "1443", "1444", "1445", "1446", "1447", "1448", "14481", "1449"]
  .object [
    ("url_template",
      .text "https://terraria.org/api/download/pc-dedicated-server/terraria-server-{version}.zip"),
    ("file_template", .text defaultFileTemplate),
    ("builds", .object (versions.zipIdx.map fun (version, key) =>
      (toString key, .object [("version", .text version)])))]

/-- An object may not repeat a name. -/
def checkNames (members : List (String × Json)) : Except CatalogError Unit :=
  match Json.repeated? members with
  | some key => .error (.repeatedKey key)
  | none => .ok ()

/-- The value that the text of a catalog file writes; `path` is the file's. -/
def parse (path text : String) : Result Json :=
  match Json.read checkNames text with
  | .ok data => .ok data
  | .error (.flawed flaw rest) => fail (.flawed path flaw (Json.Place.of text.toList rest))
  | .error (.numeral cause) => .error (.numeral cause)
  | .error .tooDeep => .error .tooDeep
  | .error (.refused cause) => fail cause

def load (path : Option String) (urlTemplate : Option String) : Action Catalog := do
  let data ← match path with
    | none => pure bundled
    | some p => Action.ofExcept id (parse p (← Files.readText p))
  Action.ofExcept id (ofJson data urlTemplate)

/-! ### Use -/

def build? (c : Catalog) (index : Int) : Option Build :=
  if index < 0 then none else c.builds[index.toNat]?

/-- The build with a number, which has to be there. The fault that it is not names the number. -/
def resolve (c : Catalog) (index : Int) : Result Build :=
  match c.build? index, Numeral.write index with
  | some b, _ => .ok b
  | none, .ok _ => .error (.noBuild index)
  | none, .error cause => .error (.numeral cause)

/-- The start of the field of the archive number. -/
def archiveField : String := "\x7barchive"

/-- Whether a template asks for the archive number: a text that holds the start of its field, or
a container that holds that start as an item or a name. -/
def asksForArchive : Json → Result Bool
  | .text s => .ok (Text.occursIn archiveField.toList s.toList)
  | .list items => .ok (items.any fun
    | .text s => s = archiveField
    | _ => false)
  | .object members => .ok (members.any (·.1 = archiveField))
  | _ => .error .wrongKind

/-- The values of the fields of a template for a build. -/
def values (b : Build) : Template.Values :=
  ("version".toList, .text b.version.toList) ::
    (b.archive.map fun n => ("archive".toList, Template.Value.number n)).toList

variable [Template.Objects]

def expand (template : Json) (b : Build) : Result String := do
  if (← asksForArchive template) && b.archive.isNone then fail (.noArchive b.version)
  match template with
  | .text s =>
    match Template.expand (values b) s with
    | .ok expanded => return expanded
    | .error (.flawed flaw) => fail (.badTemplate s flaw)
    | .error .noMember => throw .noMember
    | .error .wrongKind => throw .wrongKind
    | .error .outOfRange => throw .outOfRange
  | _ => throw .noMember

/-- Where a build is downloaded from. -/
def urlOf (c : Catalog) (b : Build) : Result String := expand c.urlTemplate b

/-- What the file of a build is called, without its extension. -/
def stemOf (c : Catalog) (b : Build) : Result String := expand c.fileTemplate b

end Catalog

end SourceRecovery
