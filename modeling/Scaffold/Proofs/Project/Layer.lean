import Scaffold.Proofs.Project.Full

/-!
# Layers

Each layer has a folder of its own in the feature's folder, and everything that is made for a layer
lies in it (`own_of_mem_featureFiles`, `own_of_mem_featureFolders`).
-/

namespace Scaffold

/-- The layers of a feature. -/
inductive Layer
  | data
  | domain
  | presentation
  deriving DecidableEq

/-- The folder of a layer in the feature's folder. -/
def Layer.folder : Layer → Text
  | data => "data"
  | domain => "domain"
  | presentation => "presentation"

theorem Layer.folder_injective : Function.Injective Layer.folder := by
  intro first second h
  revert h
  cases first <;> cases second <;> decide

/-- Whether a layer is chosen. -/
def Layers.includes (layers : Layers) : Layer → Bool
  | .data => layers.data
  | .domain => layers.domain
  | .presentation => layers.presentation

/-- The layer that a source file belongs to. -/
def SourceFile.layer : SourceFile → Layer
  | ofClass .repository => .domain
  | ofClass .useCases => .domain
  | ofClass _ => .data
  | _ => .presentation

theorem Layers.includes_of_mem_sourceFiles {layers : Layers} {source : SourceFile}
    (h : source ∈ layers.sourceFiles) : layers.includes source.layer = true := by
  rw [Layers.sourceFiles, List.mem_append, List.mem_append] at h
  rcases h with (h | h) | h
  · split at h
    · next hdata =>
      have hlayer : ∀ source ∈ SourceFile.dataFiles, source.layer = .data := by decide
      rw [hlayer source h]
      exact hdata
    · cases h
  · split at h
    · next hdomain =>
      have hlayer : ∀ source ∈ SourceFile.domainFiles, source.layer = .domain := by decide
      rw [hlayer source h]
      exact hdomain
    · cases h
  · split at h
    · next hpresentation =>
      have hlayer : ∀ source ∈ [SourceFile.bloc, .event, .state], source.layer = .presentation := by
        decide
      rw [hlayer source h]
      exact (Bool.and_eq_true_iff.1 hpresentation).1
    · cases h

/-! ## Places -/

/-- The relative path leads into the folder of a layer, but not to where the models would be looked
for. -/
structure Path.IsOwn (rel : Text) (layer : Layer) (row : List Text) : Prop where
  relative : Path.Relative rel row
  head : row.head? = some layer.folder
  second : ∃ second, row[1]? = some second ∧ second ≠ ("models" : Text)

variable {feature : Feature} {endpoints : List Endpoint} {layers : Layers} {name : Text}
  {file : FeatureFile} {folder : Text}

theorem own_source (hname : FeatureName name) (source : SourceFile) :
    Path.IsOwn (source.path name) source.layer (source.row name) where
  relative := source.relative hname
  head := by
    cases source with
    | ofClass kind => cases kind <;> rfl
    | _ => rfl
  second := by
    cases source with
    | ofClass kind => cases kind <;> exact ⟨_, rfl, by decide⟩
    | _ => exact ⟨_, rfl, by decide⟩

theorem own_screen (hname : FeatureName name) :
    Path.IsOwn (screenPath name) .presentation (screenRow name) :=
  ⟨relative_screen hname, rfl, "screen", rfl, by decide⟩

theorem own_model (hplaced : Placed feature endpoints)
    (hmodels : feature.modelFolder = ("model" : Text))
    (h : file ∈ modelFiles feature.modelFolder endpoints) :
    ∃ model, Path.IsOwn file.1 .data (modelRow feature.modelFolder model) := by
  obtain ⟨model, -, hrel⟩ := relative_of_mem_models hplaced h
  refine ⟨model, hrel, rfl, feature.modelFolder, rfl, ?_⟩
  rw [hmodels]
  decide

/-- The files of the feature lie in the folders of the chosen layers. -/
theorem own_of_mem_featureFiles (hplaced : Placed feature endpoints)
    (hmodels : feature.modelFolder = ("model" : Text))
    (h : file ∈ featureFiles feature endpoints layers) :
    ∃ layer row, layers.includes layer = true ∧ Path.IsOwn file.1 layer row := by
  rw [featureFiles_eq, List.mem_append, List.mem_append] at h
  rcases h with (h | h) | h
  · rw [Layers.models] at h
    split at h
    · next hdata =>
      obtain ⟨model, hown⟩ := own_model hplaced hmodels h
      exact ⟨.data, _, hdata, hown⟩
    · cases h
  · obtain ⟨part, hpart, rfl⟩ := List.mem_map.1 h
    obtain ⟨source, hsource, rfl⟩ := List.mem_map.1 hpart
    refine ⟨source.layer, source.row feature.name, Layers.includes_of_mem_sourceFiles hsource, ?_⟩
    have hpath : (source.part feature endpoints).path = source.path feature.name :=
      source.part_path feature endpoints
    rw [hpath]
    exact own_source hplaced.name source
  · rw [Layers.screen] at h
    split at h
    · next hpresentation =>
      rw [List.mem_singleton.1 h]
      exact ⟨.presentation, _, (Bool.and_eq_true_iff.1 hpresentation).1, own_screen hplaced.name⟩
    · cases h

/-- The folders of the feature lie in the folders of the chosen layers. -/
theorem own_of_mem_featureFolders (hmodels : feature.modelFolder = ("model" : Text))
    (h : folder ∈ featureFolders feature layers) :
    ∃ layer row, layers.includes layer = true ∧ Path.IsOwn folder layer row := by
  rw [featureFolders, List.mem_append, List.mem_append] at h
  rcases h with (h | h) | h
  · split at h
    · next hdata =>
      rw [hmodels] at h
      have hown : ∀ folder ∈ dataFolders "model", Path.Relative folder (Path.names folder) ∧
          (Path.names folder).head? = some Layer.data.folder ∧
          ∃ second ∈ (Path.names folder)[1]?, second ≠ ("models" : Text) := by
        unfold dataFolders modelFolderPath
        repeat rw [String.toList_ofList]
        decide
      obtain ⟨hrel, hhead, hsecond⟩ := hown folder h
      exact ⟨.data, _, hdata, hrel, hhead, hsecond⟩
    · cases h
  · split at h
    · next hdomain =>
      have hown : ∀ folder ∈ domainFolders, Path.Relative folder (Path.names folder) ∧
          (Path.names folder).head? = some Layer.domain.folder ∧
          ∃ second ∈ (Path.names folder)[1]?, second ≠ ("models" : Text) := by
        unfold domainFolders
        repeat rw [String.toList_ofList]
        decide
      obtain ⟨hrel, hhead, hsecond⟩ := hown folder h
      exact ⟨.domain, _, hdomain, hrel, hhead, hsecond⟩
    · cases h
  · split at h
    · next hpresentation =>
      rw [List.mem_singleton.1 h]
      exact ⟨.presentation, ["presentation", "widget"], (Bool.and_eq_true_iff.1 hpresentation).1,
        by decide, rfl, "widget", rfl, by decide⟩
    · cases h

end Scaffold
