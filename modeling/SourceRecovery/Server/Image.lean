import SourceRecovery.Fault
import SourceRecovery.Text.Blank

/-!
# Images of a server build

Where the image of each platform lies in an extracted build.
-/

namespace SourceRecovery.Server

def imageName : String := "TerrariaServer.exe"

/-- The directories that lead to the image of a platform, and whether references are looked for
beside it. The Windows image has none beside it. -/
def imageDirectory : Platform → Option (List String × Bool)
  | .windows => some (["Windows"], false)
  | .linux => some (["Linux"], true)
  | .mac => some (["Mac", "Terraria Server.app", "Contents", "MacOS"], true)
  | .unknown => none

/-- The path of the image of a platform, and the directories in which to look for its references
besides the usual ones. -/
def imageLocation (common : String) (platform : Platform) :
    Except Fault (String × List String) :=
  match imageDirectory platform with
  | none => .error .noServerImage
  | some (steps, searched) =>
    let directory := Path.joinAll common steps
    .ok (Path.join directory imageName, if searched then [directory] else [])

/-- The platforms that an answer chooses; any other answer chooses Windows. -/
def platformsOf (answer : String) : List Platform :=
  match (Text.trim answer).toLower with
  | "w" => [.windows]
  | "l" => [.linux]
  | "m" => [.mac]
  | "a" => [.windows, .linux, .mac]
  | _ => [.windows]

end SourceRecovery.Server
