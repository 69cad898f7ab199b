import Scaffold.Naming.Derived

/-!
# Features and their imports

The project and feature that code is generated for, with the import paths that follow from them.
-/

namespace Scaffold

/-- The feature that code is generated for. -/
structure Feature where
  project : Text
  name : Text
  modelFolder : Text := "model"

/-- What an import line starts with. -/
def importToken : Text := "import '"

/-- One import without the line's end. -/
def importClause (path : Text) : Text := importToken ++ path ++ "';"

/-- One import on each line. -/
def renderImports (paths : List Text) : Text := Text.join "\n" (paths.map importClause)

namespace Feature

/-- The feature's name in class names. -/
def pascal (feature : Feature) : Text := feature.name.pascal

/-- The feature's name in field names. -/
def camel (feature : Feature) : Text := feature.name.camel

/-- The import path of the feature's folder. -/
def package (feature : Feature) : Text :=
  "package:" ++ feature.project ++ "/features/" ++ feature.name

/-- The import path of the errors shared by all features. -/
def errorImport (feature : Feature) : Text :=
  "package:" ++ feature.project ++ "/core/error/error.dart"

/-- The import path of a model. -/
def modelImport (feature : Feature) (model : Text) : Text :=
  feature.package ++ "/data/" ++ feature.modelFolder ++ "/" ++ modelFile model

/-- The import paths of the models that the endpoints need. -/
def modelImports (feature : Feature) (endpoints : List Endpoint) : List Text :=
  (endpoints.flatMap fun endpoint => endpoint.requiredModels.map feature.modelImport).eraseDups

def serviceClass (feature : Feature) : Text := feature.pascal ++ "RemoteService"

def sourceClass (feature : Feature) : Text := feature.pascal ++ "RemoteDataSource"

def serviceField (feature : Feature) : Text := feature.camel ++ "Service"

def repositoryClass (feature : Feature) : Text := feature.pascal ++ "Repository"

def useCasesClass (feature : Feature) : Text := feature.pascal ++ "UseCases"

def blocClass (feature : Feature) : Text := feature.pascal ++ "Bloc"

def eventClass (feature : Feature) : Text := feature.pascal ++ "Event"

def stateClass (feature : Feature) : Text := feature.pascal ++ "State"

def screenClass (feature : Feature) : Text := feature.pascal ++ "Screen"

end Feature

end Scaffold
