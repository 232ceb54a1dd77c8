import SourceRecovery.Image.View

/-!
# Identities of builds

Which build of the game an image is, told from its metadata alone: client or server, the platform
it starts on, its version and its release number.
-/

namespace SourceRecovery

/-- Whether a build is played or served. -/
inductive Side
  | client
  | server
  | unknown
  deriving DecidableEq, Repr

def Side.name : Side → String
  | .client => "Client"
  | .server => "Server"
  | .unknown => "Unknown"

/-- The platform that a build runs on. -/
inductive Platform
  | windows
  | linux
  | mac
  | unknown
  deriving DecidableEq, Repr

def Platform.name : Platform → String
  | .windows => "Windows"
  | .linux => "Linux"
  | .mac => "Mac"
  | .unknown => "Unknown"

/-- The side that a declared name belongs to. -/
def Side.ofModule (name : String) : Side :=
  if name = "Terraria" then .client
  else if name = "TerrariaServer" then .server
  else .unknown

/-- The platform whose launch type has a full name. -/
def Platform.ofLaunchType (fullName : String) : Platform :=
  if fullName = "Terraria.WindowsLaunch" then .windows
  else if fullName = "Terraria.LinuxLaunch" then .linux
  else if fullName = "Terraria.MacLaunch" then .mac
  else .unknown

def releaseType : String := "Terraria.Main"

def releaseField : String := "curRelease"

inductive ReleaseError
  | noType
  | noField
  | noConstant
  deriving DecidableEq, Repr

def ReleaseError.message : ReleaseError → String
  | .noType => s!"Type {releaseType} not found"
  | .noField => s!"Field {releaseType}.{releaseField} not found"
  | .noConstant => s!"Field {releaseType}.{releaseField} has no integer constant"

def ImageView.release (v : ImageView) : Except ReleaseError Int :=
  match v.findType? releaseType with
  | none => .error .noType
  | some t =>
    match t.findField? releaseField with
    | none => .error .noField
    | some field =>
      match field.constant with
      | none => .error .noConstant
      | some n => .ok n

/-- The identity of a classified image, together with the image. -/
structure Identity where
  image : Bytes
  name : String
  side : Side
  platform : Platform
  version : Version
  release : Int
  view : ImageView
  deriving DecidableEq, Repr

inductive ClassifyError
  | image (cause : ImageError)
  /-- The image with this name declares no entry point. -/
  | noEntryPoint (name : String)
  | release (cause : ReleaseError)
  deriving DecidableEq, Repr

def ClassifyError.message : ClassifyError → String
  | .image cause => cause.message
  | .noEntryPoint name => Text.quote name ++ " declares no entry point"
  | .release cause => cause.message

namespace Identity

/-- Classify an image through a reader. The reader may reject it; then the entry point has to be
there, and then the release number. -/
def classify (reader : ImageReader) (image : Bytes) : Except ClassifyError Identity :=
  match reader image with
  | .error cause => .error (.image cause)
  | .ok view =>
    match view.entryPoint with
    | none => .error (.noEntryPoint view.moduleName)
    | some launch =>
      match view.release with
      | .error cause => .error (.release cause)
      | .ok release =>
        .ok { image, view, release
              name := view.moduleName
              side := .ofModule view.moduleName
              platform := .ofLaunchType launch
              version := view.version }

/-- The name of the directory that the source goes to: version, release, platform and side. -/
def directoryName (i : Identity) : String :=
  s!"{i.version.text}-{i.release}-{i.platform.name}-{i.side.name}"

/-- Whether two classifications agree in everything but the view they were read through. -/
def agrees (a b : Identity) : Bool :=
  a.image = b.image && a.name = b.name && a.side = b.side && a.platform = b.platform &&
    a.version = b.version && a.release = b.release

end Identity

end SourceRecovery
