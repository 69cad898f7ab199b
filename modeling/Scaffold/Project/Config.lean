import Scaffold.Endpoint.Catalog
import Scaffold.Text.LetterCase
import Scaffold.Tree.Path

/-!
# Configuration

Where a project keeps its interface document, its manifest and its features, and which names a
feature may have.
-/

namespace Scaffold

/-- The names that no feature may have by default. -/
def defaultRestrictedNames : List Text :=
  ["test", "build", "lib", "android", "ios", "web", "windows", "linux", "macos"]

/-- The places and naming rules of a project; places are relative to its root. -/
structure Config where
  root : Path := []
  specFile : Text := "swagger.json"
  manifestFile : Text := "pubspec.yaml"
  featuresPath : Text := "lib/features"
  restrictedNames : List Text := defaultRestrictedNames

/-- The characters that a feature name may start with. -/
def isNameStart (c : Char) : Bool := 'a' ≤ c && c ≤ 'z'

/-- The characters that a feature name may go on with. -/
def isNamePart (c : Char) : Bool := isNameStart c || ('0' ≤ c && c ≤ '9') || c == '_'

/-- Whether a name is a small letter followed by small letters, digits and underscores; a line end
behind it is let pass. -/
def isFeatureName (name : Text) : Bool :=
  match name with
  | [] => false
  | c :: rest =>
    let tail := rest.dropWhile isNamePart
    isNameStart c && (tail.isEmpty || tail == ['\n'])

namespace Config

/-- The name of the folder for tools, which is not taken for the root. -/
def toolFolder : Text := "tool"

/-- The configuration with a root: the given folder, or the one around it if it is for tools. -/
def atRoot (config : Config) (root : Path) : Config :=
  let root := root.resolve
  { config with root := if root.name = toolFolder then root.parent else root }

/-- The path of the interface document. -/
def specPath (config : Config) : Path := config.root.join config.specFile

/-- The path of the manifest. -/
def manifestPath (config : Config) : Path := config.root.join config.manifestFile

/-- The errors shared by all features, relative to the root. -/
def errorUnionLocation : Text := "lib/core/error/error.dart"

/-- The path of the errors shared by all features. -/
def errorUnionPath (config : Config) : Path := config.root.join errorUnionLocation

/-- The folder of a feature. -/
def featurePath (config : Config) (name : Text) : Path :=
  (config.root.join config.featuresPath).join name

/-- Checks that a feature may have the name. -/
def checkName (config : Config) (name : Text) : Except SelectionError Unit :=
  if name.isEmpty then .error .nameMissing
  else if config.restrictedNames.contains name.lower then .error (.nameRestricted name)
  else if isFeatureName name then .ok ()
  else .error (.nameInvalid name)

/-- The folder of a feature as shown to the user. -/
def location (config : Config) (name : Text) : Text :=
  (config.featuresPath.reverse.dropWhile (· == '/')).reverse ++ "/" ++ name ++ "/"

end Config

end Scaffold
