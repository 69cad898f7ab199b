import Scaffold.Proofs.Project.ModelFiles

/-!
# The files that are extended

`SourceFile` numbers the files of a feature whose text depends on the endpoints. All files of a
feature lie at different places (`featureFiles_places`), and none of them where the errors shared by
all features lie (`errorUnion_mem_places`).
-/

namespace Scaffold

/-- The files of a feature whose text depends on the endpoints, the models apart. -/
inductive SourceFile
  | ofClass (file : ClassFile)
  | event
  | state
  | bloc
  deriving DecidableEq

namespace SourceFile

variable {name : Text}

/-- The file as a part for the given endpoints. -/
def part (feature : Feature) (endpoints : List Endpoint) : SourceFile → Part
  | ofClass file => file.part feature endpoints
  | event => eventPart feature endpoints
  | state => statePart feature endpoints
  | bloc => blocPart feature endpoints

/-- The path of the file below the feature's folder. -/
def path (name : Text) : SourceFile → Text
  | ofClass file => file.path name
  | event => eventPath name
  | state => statePath name
  | bloc => blocPath name

/-- The folder of the file, name by name. -/
def folder : SourceFile → List Text
  | ofClass .service => ["data", "remote", "service"]
  | ofClass .source => ["data", "remote", "source"]
  | ofClass .sourceImpl => ["data", "remote", "source"]
  | ofClass .repositoryImpl => ["data", "repository"]
  | ofClass .repository => ["domain", "repository"]
  | ofClass .useCases => ["domain", "usecase"]
  | event => ["presentation", "bloc"]
  | state => ["presentation", "bloc"]
  | bloc => ["presentation", "bloc"]

/-- The folder of the file as a text. -/
def folderText : SourceFile → Text
  | ofClass .service => "data/remote/service"
  | ofClass .source => "data/remote/source"
  | ofClass .sourceImpl => "data/remote/source"
  | ofClass .repositoryImpl => "data/repository"
  | ofClass .repository => "domain/repository"
  | ofClass .useCases => "domain/usecase"
  | _ => "presentation/bloc"

/-- What follows the feature's name in the name of the file. -/
def ending : SourceFile → Text
  | ofClass .service => "_service.dart"
  | ofClass .source => "_source.dart"
  | ofClass .sourceImpl => "_source_impl.dart"
  | ofClass .repositoryImpl => "_repository_impl.dart"
  | ofClass .repository => "_repository.dart"
  | ofClass .useCases => "_usecase.dart"
  | event => "_event.dart"
  | state => "_state.dart"
  | bloc => "_bloc.dart"

/-- The names on the way from the feature's folder to the file. -/
def row (name : Text) (file : SourceFile) : List Text := file.folder ++ [name ++ file.ending]

/-- The part that extends a file stands at the path of the file. -/
theorem part_path (file : SourceFile) (feature : Feature) (endpoints : List Endpoint) :
    (file.part feature endpoints).path = file.path feature.name := by
  cases file <;> rfl

/-- No two files of a feature end alike. -/
theorem ending_injective : Function.Injective ending := by
  intro first second h
  unfold ending at h
  repeat rw [String.toList_ofList] at h
  -- nine endings, compared pair by pair
  cases first with
  | ofClass first =>
      cases second with
      | ofClass second => revert h; cases first <;> cases second <;> decide
      | _ => revert h; cases first <;> decide
  | _ =>
      cases second with
      | ofClass second => revert h; cases second <;> decide
      | _ => revert h; decide

/-- No two files of a feature lie at one place. -/
theorem row_injective : Function.Injective (row name) := by
  intro first second h
  have hlast := (List.append_inj' h rfl).2
  rw [List.cons.injEq] at hlast
  exact ending_injective (List.append_cancel_left hlast.1)

end SourceFile

/-- The name of a file of a feature: the feature's name and an ending. -/
theorem FeatureName.isName_append {name ending : Text} (h : FeatureName name)
    (hslash : '/' ∉ ending) (hlast : ending.getLast? = some 't') : Path.IsName (name ++ ending) := by
  have hlast' : (name ++ ending).getLast? = some 't' := by simp [hlast]
  refine ⟨by simp [h.ne_nil], by simp [h.noSlash, hslash], ?_, ?_⟩
  · intro heq
    rw [heq] at hlast'
    exact absurd hlast' (by decide)
  · intro heq
    rw [heq] at hlast'
    exact absurd hlast' (by decide)

/-- A file of a feature lies where its folder and its ending say. -/
theorem FeatureName.relative_file {name folder ending : Text} {row : List Text}
    (h : FeatureName name) (hfolder : Path.Relative folder row) (hne : folder ≠ [])
    (hslash : '/' ∉ ending) (hlast : ending.getLast? = some 't') (hbar : '_' ∈ ending) :
    Path.Relative (folder ++ '/' :: (name ++ ending)) (row ++ [name ++ ending]) := by
  refine hfolder.concat hne (h.isName_append hslash hlast) fun heq => ?_
  have hmem : '_' ∈ name ++ ending := List.mem_append_right _ hbar
  rw [heq] at hmem
  exact absurd hmem (by decide)

namespace SourceFile

/-- The folder of a file is written as the names on the way to it. -/
theorem relative_folder (file : SourceFile) : Path.Relative file.folderText file.folder := by
  unfold folderText folder
  repeat rw [String.toList_ofList]
  cases file with
  | ofClass file => cases file <;> decide
  | _ => decide

/-- The path of a file is its folder, the feature's name and its ending. -/
theorem path_eq (file : SourceFile) (name : Text) :
    file.path name = file.folderText ++ '/' :: (name ++ file.ending) := by
  have hjoin : ∀ folder opening ending : Text, opening = folder ++ ['/'] →
      opening ++ name ++ ending = folder ++ '/' :: (name ++ ending) := by
    intro folder opening ending h
    rw [h, List.append_assoc, List.append_assoc]
    rfl
  cases file with
  | ofClass file => cases file <;> exact hjoin _ _ _ (Text.literal_append rfl)
  | _ => exact hjoin _ _ _ (Text.literal_append rfl)

/-- An ending has no slash, ends with the last letter of `dart` and holds an underscore. So a name
that it ends is neither that of the folder above nor that of the error union. -/
theorem ending_shape (file : SourceFile) :
    '/' ∉ file.ending ∧ file.ending.getLast? = some 't' ∧ '_' ∈ file.ending := by
  unfold ending
  repeat rw [String.toList_ofList]
  cases file with
  | ofClass file => cases file <;> decide
  | _ => decide

/-- Every file lies in a folder of the feature. -/
theorem folderText_ne_nil (file : SourceFile) : file.folderText ≠ [] := by
  unfold folderText
  repeat rw [String.toList_ofList]
  cases file with
  | ofClass file => cases file <;> decide
  | _ => decide

/-- The path of a file leads to the place that its row names. -/
theorem relative {name : Text} (h : FeatureName name) (file : SourceFile) :
    Path.Relative (file.path name) (file.row name) := by
  obtain ⟨hslash, hlast, hbar⟩ := file.ending_shape
  rw [path_eq]
  exact h.relative_file file.relative_folder file.folderText_ne_nil hslash hlast hbar

end SourceFile

/-- The names on the way from the feature's folder to the screen. -/
def screenRow (name : Text) : List Text := ["presentation", "screen", name ++ "_screen.dart"]

/-- The path of the screen leads to the place that its row names. -/
theorem relative_screen {name : Text} (h : FeatureName name) :
    Path.Relative (screenPath name) (screenRow name) := by
  have hfolder : Path.Relative "presentation/screen" ["presentation", "screen"] := by
    repeat rw [String.toList_ofList]
    decide
  have hpath : screenPath name =
      ("presentation/screen" : Text) ++ '/' :: (name ++ ("_screen.dart" : Text)) := by
    have hopening : ("presentation/screen/" : Text) = "presentation/screen" ++ ['/'] :=
      Text.literal_append rfl
    unfold screenPath
    rw [hopening]
    simp -implicitDefEqProofs only [List.append_assoc, List.cons_append, List.nil_append]
  have hending : '/' ∉ ("_screen.dart" : Text) ∧ ("_screen.dart" : Text).getLast? = some 't' ∧
      '_' ∈ ("_screen.dart" : Text) := by
    repeat rw [String.toList_ofList]
    decide
  rw [hpath]
  exact h.relative_file hfolder (by decide) hending.1 hending.2.1 hending.2.2

/-- The names on the way from the feature's folder to a model. -/
def modelRow (folder model : Text) : List Text := ["data", folder, modelFile model]

/-- The path of a model leads to the place that its row names, unless the model's name has a slash.
-/
theorem relative_modelPath {folder model : Text} (hfolder : IsModelFolder folder)
    (hmodel : '/' ∉ model) (hother : modelFile model ≠ ("error.dart" : Text)) :
    Path.Relative (modelPath folder model) (modelRow folder model) := by
  have hpath : modelPath folder model = modelFolderPath folder ++ '/' :: modelFile model := by
    simp [modelPath]
  rw [hpath]
  exact (relative_modelFolder hfolder).concat (by simp [modelFolderPath]) (isName_modelFile hmodel) hother

end Scaffold
