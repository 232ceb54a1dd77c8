import SourceRecovery.Json.Reader
import SourceRecovery.Template.Flaw

/-!
# Invalid catalogs

Why a catalog cannot be used, or has no text for one of its builds.
-/

namespace SourceRecovery

inductive CatalogError
  | flawed (path : String) (flaw : Json.Flaw) (place : Json.Place)
  | repeatedKey (key : String)
  | noBuilds
  | badKey (cause : NumeralError)
  | collidingKeys
  | gap (keys : List Int)
  | noVersion (key : Nat)
  | noUrlTemplate
  | noArchive (version : String)
  | badTemplate (template : String) (flaw : Template.Flaw)
  deriving DecidableEq, Repr

def CatalogError.message : CatalogError → String
  | .flawed path flaw place => s!"Invalid catalog file {path}: {flaw.message}: {place.message}"
  | .repeatedKey key => s!"Duplicate catalog key: {key}"
  | .noBuilds => "Catalog has no builds"
  | .badKey cause => s!"Catalog keys must be integers: {cause.message}"
  | .collidingKeys => "Duplicate catalog key after normalization"
  | .gap keys =>
    "Catalog keys must be contiguous from 0, got [" ++ ", ".intercalate (keys.map toString) ++ "]"
  | .noVersion key => s!"Build {key} has no version"
  | .noUrlTemplate => "Catalog has no url_template"
  | .noArchive version => s!"Build {version} has no archive number"
  | .badTemplate template flaw => s!"Invalid template {Text.quote template}: {flaw.message}"

end SourceRecovery
