import Scaffold.Document.Yaml.Basic
import Scaffold.Endpoint.Extraction
import Scaffold.Project.Config
import Scaffold.Tree.Work

/-!
# Loading a project

The project's name from its manifest and the catalog from its interface document. The manifest comes
first; whatever is missing or unreadable refuses the project.
-/

namespace Scaffold

/-- A loaded project. -/
structure Project where
  name : Text
  document : Value
  catalog : Catalog

/-- Why a project cannot be loaded. -/
inductive LoadError
  | manifestMissing (file : Text)
  | manifestUnreadable (file : Text)
  | nameMissing (file : Text)
  | documentMissing (file : Text) (folder : Path)
  | documentUnreadable (file : Text) (isJson : Bool)
  | documentKind (file : Text)
  | extraction (error : ExtractionError)
  | value (fault : ValueFault)
  | work (error : WorkError)

/-- The message for a project that cannot be loaded. -/
def LoadError.message : LoadError → Text
  | manifestMissing file =>
    file ++ " not found in project root. Make sure you're running this from a Flutter project " ++
      "directory."
  | manifestUnreadable file => "Could not parse " ++ file ++ ": <YAMLError>"
  | nameMissing file => "Could not find project name in " ++ file
  | documentMissing file folder => file ++ " not found in project root (" ++ folder.text ++ ")"
  | documentUnreadable file isJson =>
    "Could not decode " ++ file ++ (if isJson then ": <JSONDecodeError>" else ": <YAMLError>")
  | documentKind file => file ++ " does not contain an OpenAPI document"
  | extraction error => error.message
  | value fault => fault.message
  | work error => error.message

/-- Whether anything stands at a path, for the steps of loading. -/
def Tree.holds (tree : Tree) (path : Path) : Except LoadError Bool :=
  (tree.has path).mapError fun error => .work (.file error)

/-- The text of a file, for the steps of loading. -/
def Tree.loadText (tree : Tree) (path : Path) : Except LoadError Text :=
  (tree.readText path).mapError .work

/-- The value of a YAML text; `unreadable` is the error for a text that is none. -/
def loadYaml (unreadable : LoadError) (text : Text) : Except LoadError Value :=
  match Yaml.read text with
  | .ok value => .ok value
  | .error .malformed => .error unreadable
  | .error (.value fault) => .error (.value fault)

/-- The most sequences and mappings around each other in a JSON file. -/
def nestingLimit : Nat := 980

/-- The value of a JSON text; `unreadable` is the error for a text that is none. -/
def loadJson (unreadable : LoadError) (text : Text) : Except LoadError Value :=
  match Json.readWithin nestingLimit text with
  | .ok value => .ok value
  | .error (.malformed _) => .error unreadable
  | .error (.value fault) => .error (.value fault)

/-- The project's name: the trimmed text of the value under `name` in the manifest. -/
def loadName (tree : Tree) (path : Path) : Except LoadError Text := do
  if !(← tree.holds path) then throw (.manifestMissing path.name)
  let manifest ← loadYaml (.manifestUnreadable path.name) (← tree.loadText path)
  match manifest.fields?.bind (Fields.present? · "name") with
  | some name => return (← name.shown.mapError .value).trim
  | none => throw (.nameMissing path.name)

/-- The interface document: JSON if the file says so, else YAML. It has to be a mapping. -/
def loadDocument (tree : Tree) (path : Path) : Except LoadError Value := do
  if !(← tree.holds path) then throw (.documentMissing path.name path.parent)
  let text ← tree.loadText path
  let isJson := path.suffix.lower == ".json"
  let unreadable := LoadError.documentUnreadable path.name isJson
  match ← if isJson then loadJson unreadable text else loadYaml unreadable text with
  | .map fields => return .map fields
  | _ => throw (.documentKind path.name)

/-- The project of a configuration. -/
def loadProject (config : Config) (tree : Tree) : Except LoadError Project := do
  let name ← loadName tree config.manifestPath
  let document ← loadDocument tree config.specPath
  let catalog ← (Catalog.ofDocument document).mapError .extraction
  return ⟨name, document, catalog⟩

end Scaffold
