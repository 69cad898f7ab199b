import Scaffold.Dart.ErrorUnion
import Scaffold.Dart.Screen
import Scaffold.Endpoint.Selection
import Scaffold.Patch.Extension
import Scaffold.Project.Config
import Scaffold.Project.ModelFiles
import Scaffold.Tree.Work

/-!
# Generating features

A new feature is rendered in full. A feature that is there is extended file by file: a missing file
is rendered for the new endpoints, a file without an anchor is skipped with a warning, and each
other file gets the members it lacks.
-/

namespace Scaffold

/-- The parts of the presentation layer. -/
structure Components where
  bloc : Bool := true
  screens : Bool := true
  widgets : Bool := true

/-- The layers that are generated. -/
structure Layers where
  data : Bool := true
  domain : Bool := true
  presentation : Bool := true
  components : Components := {}

/-- Whether any layer is chosen. -/
def Layers.any (layers : Layers) : Bool := layers.data || layers.domain || layers.presentation

/-- What happens to a feature that is there. -/
inductive ExistsAction
  | append
  | overwrite
  | cancel
  deriving DecidableEq

/-- The action of a name. -/
def ExistsAction.ofText? (text : Text) : Option ExistsAction :=
  if text = "append" then some append
  else if text = "overwrite" then some overwrite
  else if text = "cancel" then some cancel
  else none

/-- The message for a value that names no action. -/
def ExistsAction.unknown (value : Value) : Text := value.quoted ++ " is not a valid ExistsAction"

/-- What a run did. -/
structure Outcome where
  feature : Text
  isUpdate : Bool := false
  endpointCount : Nat := 0
  newEndpoints : List Text := []
  filesWritten : List Text := []
  warnings : List Text := []
  nothingToDo : Bool := false
  cancelled : Bool := false

/-- Why a run fails. -/
inductive RunError
  | selection (error : SelectionError)
  | work (error : WorkError)

/-- The message for a failed run. -/
def RunError.message : RunError → Text
  | selection error => error.message
  | work error => error.message

/-- A feature and the folder it lies in. -/
structure Target where
  feature : Feature
  folder : Path

/-- The path of a file or folder of the feature. -/
def Target.path (target : Target) (relative : Text) : Path := target.folder.join relative

/-- The target of a feature. A folder for models that is there is used under its name. -/
def Config.target (config : Config) (project name : Text) (tree : Tree) :
    Except FileError Target := do
  let folder := config.featurePath name
  let models : Text := if ← tree.hasFolder (folder.join "data/models") then "models" else "model"
  return ⟨⟨project, name, models⟩, folder⟩

/-- Whether the feature is there. -/
def Config.featureExists (config : Config) (name : Text) (tree : Tree) : Except FileError Bool :=
  tree.hasFolder (config.featurePath name)

/-! ## Files of a feature -/

/-- A file of a feature: where it lies, its full text, and what becomes of a text that is there. -/
structure Part where
  path : Text
  full : Text
  extend : Text → Except MissingAnchor Text

/-- The part of a class file. -/
def ClassFile.part (file : ClassFile) (feature : Feature) (endpoints : List Endpoint) : Part where
  path := file.path feature.name
  full := file.render feature endpoints
  extend content := file.extend feature content endpoints

/-- The class files of the data layer. -/
def dataParts (feature : Feature) (endpoints : List Endpoint) : List Part :=
  [ClassFile.service, .source, .sourceImpl, .repositoryImpl].map (·.part feature endpoints)

/-- The files of the domain layer. -/
def domainParts (feature : Feature) (endpoints : List Endpoint) : List Part :=
  [ClassFile.repository, .useCases].map (·.part feature endpoints)

/-- The events of the feature. -/
def eventPart (feature : Feature) (endpoints : List Endpoint) : Part where
  path := eventPath feature.name
  full := renderEvent feature endpoints
  extend content := extendEvents feature content endpoints

/-- The state of the feature. -/
def statePart (feature : Feature) (endpoints : List Endpoint) : Part where
  path := statePath feature.name
  full := renderState feature endpoints
  extend content := extendState feature content endpoints

/-- The bloc of the feature. -/
def blocPart (feature : Feature) (endpoints : List Endpoint) : Part where
  path := blocPath feature.name
  full := renderBloc feature endpoints
  extend content := extendBloc feature content endpoints

/-- The files of a part list in full. -/
def fullFiles (parts : List Part) : List FeatureFile := parts.map fun part => (part.path, part.full)

/-- All files of a new feature. -/
def featureFiles (feature : Feature) (endpoints : List Endpoint) (layers : Layers) :
    List FeatureFile :=
  let components := layers.components
  (if layers.data then
    modelFiles feature.modelFolder endpoints ++ fullFiles (dataParts feature endpoints)
   else []) ++
  (if layers.domain then fullFiles (domainParts feature endpoints) else []) ++
  (if layers.presentation then
    (if components.bloc then
      fullFiles [blocPart feature endpoints, eventPart feature endpoints,
        statePart feature endpoints]
     else []) ++
    (if components.screens then [(screenPath feature.name, renderScreen feature)] else [])
   else [])

/-- The folders of a new feature that are made even without a file in them. -/
def featureFolders (feature : Feature) (layers : Layers) : List Text :=
  (if layers.data then dataFolders feature.modelFolder else []) ++
  (if layers.domain then domainFolders else []) ++
  (if layers.presentation && layers.components.widgets then [widgetFolder] else [])

/-! ## Writing -/

/-- Checks that the models of all endpoints can be written. -/
def checkModels (endpoints : List Endpoint) : Work WorkError Unit :=
  if endpoints.all (·.hasShowableModels) then pure () else throw (.value .longToShow)

/-- Writes a file, making its folder. -/
def writeFile (path : Path) (text : Text) : Work WorkError Unit := do
  makeFolders path.parent
  writeText path text

/-- Writes a file that is new. -/
def createFile (target : Target) (file : FeatureFile) : Work WorkError Unit := do
  writeFile (target.path file.1) file.2
  Work.say ("  Created " ++ file.1)

/-- Writes the errors shared by all features, unless they are there. -/
def ensureErrorUnion (config : Config) : Work WorkError Unit := do
  if !(← ask (·.has config.errorUnionPath)) then
    writeFile config.errorUnionPath errorUnionFile
    Work.say ("  Created " ++ Config.errorUnionLocation)

/-- Generates a feature in full. -/
def generateFull (config : Config) (project name : Text) (endpoints : List Endpoint)
    (layers : Layers) : Work WorkError Outcome := do
  let target ← ask (config.target project name)
  Work.say ("Generating feature: " ++ name)
  if layers.data then checkModels endpoints
  let files := featureFiles target.feature endpoints layers
  (featureFolders target.feature layers).forM fun folder => makeFolders (target.path folder)
  files.forM (createFile target)
  ensureErrorUnion config
  Work.say ("Feature '" ++ name ++ "' generated with " ++ Text.ofNat endpoints.length ++
    " endpoint(s) at " ++ config.location name)
  return {
    feature := name
    endpointCount := endpoints.length
    newEndpoints := endpoints.map (·.describe)
    filesWritten := files.map (·.1) }

/-! ## Extending -/

/-- What extending files did. -/
structure Report where
  written : List Text := []
  warnings : List Text := []

/-- The report on several steps. -/
def Report.concat (reports : List Report) : Report :=
  ⟨reports.flatMap (·.written), reports.flatMap (·.warnings)⟩

/-- Extends one file, or renders it in full if it is missing. -/
def appendPart (target : Target) (part : Part) : Work WorkError Report := do
  let path := target.path part.path
  if !(← ask (·.has path)) then
    createFile target (part.path, part.full)
    return { written := [part.path] }
  let content ← readText path
  match part.extend content with
  | .error anchor =>
    let message := "Skipped " ++ part.path ++ ": " ++ anchor.message
    Work.warn ("  Warning: " ++ message)
    return { warnings := [message] }
  | .ok updated =>
    if updated = content then
      Work.say ("  No new members for " ++ part.path)
      return {}
    else
      writeFile path updated
      Work.say ("  Updated " ++ part.path)
      return { written := [part.path] }

/-- Extends several files. -/
def appendParts (target : Target) (parts : List Part) : Work WorkError Report := do
  return .concat (← parts.mapM (appendPart target))

/-- Writes the models that are missing. -/
def appendModel (target : Target) (file : FeatureFile) : Work WorkError Report := do
  if ← ask (·.has (target.path file.1)) then return {}
  createFile target file
  return { written := [file.1] }

/-- Writes the screen, unless it is there. -/
def appendScreen (target : Target) : Work WorkError Report := do
  let path := screenPath target.feature.name
  if ← ask (·.has (target.path path)) then
    Work.say ("  " ++ path ++ " already exists (no changes)")
    return {}
  createFile target (path, renderScreen target.feature)
  return { written := [path] }

/-- Extends the data layer. -/
def appendData (target : Target) (endpoints : List Endpoint) : Work WorkError Report := do
  checkModels endpoints
  let models ←
    (modelFiles target.feature.modelFolder endpoints).mapM (appendModel target)
  let parts ← appendParts target (dataParts target.feature endpoints)
  return .concat (models ++ [parts])

/-- Extends the presentation layer. -/
def appendPresentation (target : Target) (endpoints : List Endpoint) (components : Components) :
    Work WorkError Report := do
  let feature := target.feature
  let bloc ←
    if components.bloc then
      appendParts target
        [eventPart feature endpoints, statePart feature endpoints, blocPart feature endpoints]
    else pure {}
  let screen ← if components.screens then appendScreen target else pure {}
  if components.widgets then makeFolders (target.path widgetFolder)
  return .concat [bloc, screen]

/-- Extends the chosen layers. -/
def appendLayers (target : Target) (endpoints : List Endpoint) (layers : Layers) :
    Work WorkError Report := do
  let data ← if layers.data then appendData target endpoints else pure {}
  let domain ←
    if layers.domain then appendParts target (domainParts target.feature endpoints) else pure {}
  let presentation ←
    if layers.presentation then appendPresentation target endpoints layers.components
    else pure {}
  return .concat [data, domain, presentation]

/-- The endpoints that are taken into a feature, and a warning for each one that is not. -/
structure Admission where
  admitted : List Endpoint := []
  warnings : List Text := []

/-- The owner of a method name: an endpoint taken before, or else the service file. -/
def nameOwner? (service content : Text) (admitted : List Endpoint) (name : Text) : Option Text :=
  match admitted.find? fun endpoint => endpoint.methodName == name with
  | some endpoint => some endpoint.describe
  | none => if hasMember content name then some service else none

/-- Takes an endpoint unless its method name has an owner. -/
def consider (service content : Text) (admission : Admission) (endpoint : Endpoint) : Admission :=
  let name := endpoint.methodName
  match nameOwner? service content admission.admitted name with
  | none => { admission with admitted := admission.admitted ++ [endpoint] }
  | some owner =>
    let warning := "Skipped " ++ endpoint.describe ++ ": method name " ++ name ++
      " is already used by " ++ owner
    { admission with warnings := admission.warnings ++ [warning] }

/-- The endpoints that are new to a service file and whose names are free. -/
def admission (service content : Text) (endpoints : List Endpoint) : Admission :=
  let known := annotatedKeys content
  let fresh := endpoints.filter fun endpoint => !known.contains endpoint.key
  fresh.foldl (consider service content) {}

/-- The text of the service file, empty if it is missing. -/
def serviceText (target : Target) : Work WorkError Text := do
  let path := target.path (ClassFile.service.path target.feature.name)
  if ← ask (·.has path) then readText path else return []

/-- Extends a feature that is there. -/
def generateAppend (config : Config) (project name : Text) (endpoints : List Endpoint)
    (layers : Layers) : Work WorkError Outcome := do
  let target ← ask (config.target project name)
  let content ← serviceText target
  let admission := admission (ClassFile.service.path name) content endpoints
  admission.warnings.forM fun warning => Work.warn ("  Warning: " ++ warning)
  if admission.admitted.isEmpty then
    Work.say "All selected endpoints already exist in this feature. Nothing to do."
    return {
      feature := name, isUpdate := true, nothingToDo := true, warnings := admission.warnings }
  let count := Text.ofNat admission.admitted.length
  Work.say ("Appending " ++ count ++ " new endpoint(s) to feature: " ++ name)
  let report ← appendLayers target admission.admitted layers
  ensureErrorUnion config
  Work.say ("Feature '" ++ name ++ "' updated with " ++ count ++ " new endpoint(s)")
  return {
    feature := name
    isUpdate := true
    endpointCount := admission.admitted.length
    newEndpoints := admission.admitted.map (·.describe)
    filesWritten := report.written
    warnings := admission.warnings ++ report.warnings }

/-- Checks name, layers and endpoints of a run. -/
def checkRun (config : Config) (name : Text) (endpoints : List Endpoint) (layers : Layers) :
    Except SelectionError Unit := do
  config.checkName name
  if !layers.any then throw .layerMissing
  if endpoints.isEmpty then throw .nothingSelected

/-- Generates a feature, or does with a feature that is there as `action` says. A refused run
changes nothing. -/
def generate (config : Config) (project name : Text) (endpoints : List Endpoint)
    (layers : Layers := {}) (action : ExistsAction := .append) : Work RunError Outcome := do
  match checkRun config name endpoints layers with
  | .error error => throw (.selection error)
  | .ok () =>
    if !(← (ask (config.featureExists name)).adapt .work) then
      (generateFull config project name endpoints layers).adapt .work
    else
      match action with
      | .cancel => do
        Work.say "Operation cancelled."
        return { feature := name, cancelled := true }
      | .append => (generateAppend config project name endpoints layers).adapt .work
      | .overwrite => (generateFull config project name endpoints layers).adapt .work

/-- The keys that the service file of a feature declares. -/
def existingKeys (config : Config) (name : Text) : Work WorkError (List EndpointKey) := do
  let target ← ask (config.target [] name)
  return annotatedKeys (← serviceText target)

end Scaffold
