import Scaffold.Dart.ClassFile

/-!
# Layout of a feature

Where the files of a feature lie, relative to the feature's folder.
-/

namespace Scaffold

/-- The path of a file of one class. -/
def ClassFile.path (name : Text) : ClassFile → Text
  | service => "data/remote/service/" ++ name ++ "_service.dart"
  | source => "data/remote/source/" ++ name ++ "_source.dart"
  | sourceImpl => "data/remote/source/" ++ name ++ "_source_impl.dart"
  | repositoryImpl => "data/repository/" ++ name ++ "_repository_impl.dart"
  | repository => "domain/repository/" ++ name ++ "_repository.dart"
  | useCases => "domain/usecase/" ++ name ++ "_usecase.dart"

def blocPath (name : Text) : Text := "presentation/bloc/" ++ name ++ "_bloc.dart"

def eventPath (name : Text) : Text := "presentation/bloc/" ++ name ++ "_event.dart"

def statePath (name : Text) : Text := "presentation/bloc/" ++ name ++ "_state.dart"

def screenPath (name : Text) : Text := "presentation/screen/" ++ name ++ "_screen.dart"

/-- The folder of the models. -/
def modelFolderPath (folder : Text) : Text := "data/" ++ folder

/-- The path of a model. -/
def modelPath (folder model : Text) : Text := modelFolderPath folder ++ "/" ++ modelFile model

/-- The folders of the data layer. -/
def dataFolders (folder : Text) : List Text :=
  [modelFolderPath folder, "data/remote/service", "data/remote/source", "data/repository"]

/-- The folders of the domain layer. -/
def domainFolders : List Text := ["domain/repository", "domain/usecase"]

/-- The folder of the widgets. -/
def widgetFolder : Text := "presentation/widget"

end Scaffold
