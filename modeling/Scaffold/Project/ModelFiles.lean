import Scaffold.Dart.Model
import Scaffold.Naming.Derived
import Scaffold.Project.Layout

/-!
# Model files

One file for each model that the endpoints need. Of two models with one path the first counts.
-/

namespace Scaffold

/-- A file of a feature: its path relative to the feature's folder, and its text. -/
abbrev FeatureFile := Text × Text

/-- The files of the models of one endpoint. -/
def Endpoint.modelFiles (folder : Text) (endpoint : Endpoint) : List FeatureFile :=
  (match endpoint.body with
    | some body =>
      [(modelPath folder endpoint.requestModel,
        renderModel endpoint.requestModel body.schema false)]
    | none => []) ++
  (match endpoint.responseSchema? with
    | some schema =>
      [(modelPath folder endpoint.responseModel,
        renderModel endpoint.responseModel (some schema) true)]
    | none => [])

/-- Whether the models of an endpoint can be written. -/
def Endpoint.hasShowableModels (endpoint : Endpoint) : Bool :=
  ((endpoint.body.bind (·.schema)).toList ++ endpoint.responseSchema?.toList).all hasShowableNames

/-- Adds a file unless there is one with its path. -/
def addFile (files : List FeatureFile) (file : FeatureFile) : List FeatureFile :=
  if files.any fun other => other.1 == file.1 then files else files ++ [file]

/-- The files of the models of all endpoints. -/
def modelFiles (folder : Text) (endpoints : List Endpoint) : List FeatureFile :=
  (endpoints.flatMap (·.modelFiles folder)).foldl addFile []

end Scaffold
