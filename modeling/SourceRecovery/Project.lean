import SourceRecovery.Text.Replace

/-!
# Project files

The decompiler writes a project file that does not build with current tools as it is. The text is
fixed up: the client profile is taken out, the framework is raised, and a reference that the
sources need is put in.
-/

namespace SourceRecovery.Project

/-- The element of the client profile. -/
def clientProfile : String := "<TargetFrameworkProfile>Client</TargetFrameworkProfile>"

/-- The element of the framework that is not supported any more. -/
def legacyFramework : String := "<TargetFrameworkVersion>v4.0</TargetFrameworkVersion>"

/-- The element of the framework that replaces it. -/
def targetFramework : String := "<TargetFrameworkVersion>v4.5</TargetFrameworkVersion>"

/-- The reference that the sources need. -/
def xmlReference : String := "<Reference Include=\"System.Xml\" />"

/-- The start of the reference that the needed one is put in front of. -/
def coreReference : String := "<Reference Include=\"System.Core\">"

/-- The needed reference in front of the other one, on a line of its own. -/
def bothReferences : String := xmlReference ++ "\n    " ++ coreReference

/-- The characters of a project file without the client profile and with the framework raised. -/
def retargetChars (cs : List Char) : List Char :=
  Text.replaceAll legacyFramework.toList targetFramework.toList
    (Text.replaceAll clientProfile.toList [] cs)

/-- The characters of a project file with the needed reference, if it can be put in and is not
there already. -/
def referenceChars (cs : List Char) : List Char :=
  if Text.occursIn xmlReference.toList cs then cs
  else Text.replaceFirst coreReference.toList bothReferences.toList cs

/-- The text of a project file, fixed up. -/
def fixUp (s : String) : String := String.ofList (referenceChars (retargetChars s.toList))

end SourceRecovery.Project
