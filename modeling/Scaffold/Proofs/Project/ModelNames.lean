import Mathlib.Data.List.Forall2
import Scaffold.Proofs.Naming.Recasing
import Scaffold.Proofs.Project.ModelFiles
import Scaffold.Proofs.Text.EraseDups

/-!
# Models and their files

The models that endpoints require, the files of these models and the imports of these files are in
step (`modelFiles_match_models`): one file for each name, in the order of the names, and one import
for each file. It rests on the names of models being found again in the names of their files
(`modelFile_inj`), though these drop underscores and capitals.
-/

namespace Scaffold

variable {feature : Feature} {endpoint other : Endpoint} {endpoints : List Endpoint}
  {folder model : Text} {file : FeatureFile}

/-! ## Names -/

namespace Endpoint

theorem not_small_of_head?_append {c : Char} {ending : Text}
    (hending : ending.head?.all (fun c => !isSmall c) = true)
    (h : c ∈ (endpoint.baseName ++ ending).head?) : isSmall c = false := by
  cases hbase : endpoint.baseName with
  | nil =>
      have hhead : ending.head? = some c := by simpa [hbase] using h
      simpa [hhead] using hending
  | cons d rest =>
      have hhead : d = c := by simpa [hbase] using h
      exact Text.not_small_of_head?_pascal (hhead ▸ hbase ▸ rfl : c ∈ endpoint.baseName.head?)

/-- The name of a model has no separators. -/
theorem solid_of_mem_requiredModels (h : model ∈ endpoint.requiredModels) : Solid model := by
  have hbase : Solid endpoint.baseName := Text.solid_pascal endpoint.methodName
  rcases endpoint.eq_of_mem_requiredModels h with rfl | rfl
  · exact hbase.append (by decide)
  · exact hbase.append (by decide)

/-- The name of a model does not start with a small ASCII letter. -/
theorem not_small_of_mem_requiredModels (h : model ∈ endpoint.requiredModels) :
    ∀ c ∈ model.head?, isSmall c = false := by
  intro c hc
  rcases endpoint.eq_of_mem_requiredModels h with rfl | rfl
  · exact not_small_of_head?_append rfl hc
  · exact not_small_of_head?_append rfl hc

end Endpoint

/-- Different models have different files. -/
theorem modelFile_inj {model' : Text} (h : model ∈ endpoint.requiredModels)
    (h' : model' ∈ other.requiredModels) (heq : modelFile model = modelFile model') :
    model = model' := by
  have hsnake : model.snake = model'.snake := List.append_cancel_right heq
  exact Text.snake_inj (Endpoint.solid_of_mem_requiredModels h).noUnderscore
    (Endpoint.solid_of_mem_requiredModels h').noUnderscore
    (Endpoint.not_small_of_mem_requiredModels h) (Endpoint.not_small_of_mem_requiredModels h') hsnake

theorem modelPath_inj {model' : Text} (h : model ∈ endpoint.requiredModels)
    (h' : model' ∈ other.requiredModels) (heq : modelPath folder model = modelPath folder model') :
    model = model' :=
  modelFile_inj h h' (List.append_cancel_left heq)

/-- The models that the endpoints require, each at its first place. -/
def distinctModels (endpoints : List Endpoint) : List Text :=
  (endpoints.flatMap (·.requiredModels)).eraseDups

theorem mem_distinctModels :
    model ∈ distinctModels endpoints ↔ ∃ endpoint ∈ endpoints, model ∈ endpoint.requiredModels := by
  rw [distinctModels, List.mem_eraseDups, List.mem_flatMap]

/-- A renaming that tells the models of all endpoints apart keeps which of them come first. -/
theorem eraseDups_map_models {f : Text → Text}
    (hf : ∀ one other : Endpoint, ∀ a ∈ one.requiredModels, ∀ b ∈ other.requiredModels,
      f a = f b → a = b) (endpoints : List Endpoint) :
    ((endpoints.flatMap (·.requiredModels)).map f).eraseDups = (distinctModels endpoints).map f := by
  refine eraseDups_map fun a ha b hb heq => ?_
  obtain ⟨one, -, ha⟩ := List.mem_flatMap.1 ha
  obtain ⟨other, -, hb⟩ := List.mem_flatMap.1 hb
  exact hf one other a ha b hb heq

/-! ## Files -/

/-- The endpoint requires a model, and gives it a schema: that of its body, or that of its
response. -/
inductive Endpoint.Requires (endpoint : Endpoint) :
    (model : Text) → (schema : Option Fields) → (isResponse : Bool) → Prop
  | request {body : Body} (h : endpoint.body = some body) :
      Requires endpoint endpoint.requestModel body.schema false
  | response {schema : Fields} (h : endpoint.responseSchema? = some schema) :
      Requires endpoint endpoint.responseModel (some schema) true

theorem Endpoint.Requires.mem {schema : Option Fields} {isResponse : Bool}
    (h : endpoint.Requires model schema isResponse) : model ∈ endpoint.requiredModels := by
  rw [requiredModels, List.mem_append]
  cases h with
  | request hbody => exact .inl (by simp [hbody])
  | response hschema => exact .inr (by simp [hschema])

theorem Endpoint.requires_of_mem_modelFiles (h : file ∈ endpoint.modelFiles folder) :
    ∃ model schema isResponse, endpoint.Requires model schema isResponse ∧
      file = (modelPath folder model, renderModel model schema isResponse) := by
  rw [modelFiles, List.mem_append] at h
  rcases h with h | h
  · split at h
    · next body hbody => exact ⟨_, _, _, .request hbody, List.mem_singleton.1 h⟩
    · cases h
  · split at h
    · next schema hschema => exact ⟨_, _, _, .response hschema, List.mem_singleton.1 h⟩
    · cases h

theorem Endpoint.map_path_modelFiles (folder : Text) (endpoint : Endpoint) :
    (endpoint.modelFiles folder).map (·.1) = endpoint.requiredModels.map (modelPath folder) := by
  rw [modelFiles, requiredModels, List.map_append, List.map_append]
  cases endpoint.body <;> cases endpoint.responseSchema? <;> rfl

/-- Of the files with one path the first is kept, in its place. -/
theorem map_path_foldl_addFile (files : List FeatureFile) :
    (files.foldl addFile []).map (·.1) = (files.map (·.1)).eraseDups := by
  induction files using List.reverseRecOn with
  | nil => rfl
  | append_singleton files last ih =>
      have hmem : ((files.foldl addFile []).any fun other => other.1 == last.1) = true ↔
          last.1 ∈ files.map (·.1) := by
        rw [List.any_eq_true, ← List.mem_eraseDups, ← ih, List.mem_map]
        simp only [beq_iff_eq]
      rw [List.foldl_concat, addFile, List.map_append, List.map_singleton]
      split
      · next hany => rw [eraseDups_concat_of_mem (hmem.1 hany), ih]
      · next hany =>
        rw [eraseDups_concat_of_not_mem fun h => hany (hmem.2 h), List.map_append, ih,
          List.map_singleton]

/-- The paths of the model files are those of the models, in their order. -/
theorem map_path_modelFiles (folder : Text) (endpoints : List Endpoint) :
    (modelFiles folder endpoints).map (·.1) =
      (distinctModels endpoints).map (modelPath folder) := by
  have hflat : (endpoints.flatMap (·.modelFiles folder)).map (·.1) =
      (endpoints.flatMap (·.requiredModels)).map (modelPath folder) := by
    rw [List.map_flatMap, List.map_flatMap]
    exact List.flatMap_congr fun endpoint _ => endpoint.map_path_modelFiles folder
  rw [modelFiles, map_path_foldl_addFile, hflat]
  exact eraseDups_map_models (fun _ _ _ ha _ hb => modelPath_inj ha hb) endpoints

/-- The text of a model's file comes from the first endpoint that requires the model. -/
theorem text_of_first (hfile : file ∈ modelFiles folder endpoints)
    (hmodel : model ∈ distinctModels endpoints) (hpath : file.1 = modelPath folder model) :
    ∃ endpoint schema isResponse,
      endpoints.find? (fun endpoint => endpoint.requiredModels.contains model) = some endpoint ∧
        endpoint.Requires model schema isResponse ∧
          file.2 = renderModel model schema isResponse := by
  obtain ⟨other, -, hother⟩ := mem_distinctModels.1 hmodel
  have hfirst := mem_modelFiles.1 hfile
  rw [List.find?_flatMap] at hfirst
  obtain ⟨before, endpoint, behind, rfl, hfound, hbefore⟩ := List.findSome?_eq_some_iff.1 hfirst
  obtain ⟨name, schema, isResponse, hrequires, heq⟩ :=
    Endpoint.requires_of_mem_modelFiles (List.mem_of_find?_eq_some hfound)
  have hsame : modelPath folder name = modelPath folder model := by
    rw [← hpath, heq]
  obtain rfl : name = model := modelPath_inj hrequires.mem hother hsame
  refine ⟨endpoint, schema, isResponse, ?_, hrequires, by rw [heq]⟩
  refine List.find?_eq_some_iff_append.2
    ⟨List.contains_iff_mem.2 hrequires.mem, before, behind, rfl, fun earlier hearlier => ?_⟩
  rw [Bool.not_eq_true', ← Bool.not_eq_true, List.contains_iff_mem]
  intro hmem
  obtain ⟨known, hknown, hsame⟩ := exists_mem_endpoint_modelFiles folder hmem
  have hnone := List.find?_eq_none.1 (hbefore earlier hearlier) known hknown
  exact hnone (by rw [hsame, hpath]; exact BEq.rfl)

/-! ## Imports -/

/-- The import of a model is the path of its file behind that of the feature's folder. -/
theorem Feature.modelImport_eq (feature : Feature) (model : Text) :
    feature.modelImport model =
      feature.package ++ "/" ++ modelPath feature.modelFolder model := by
  simp only [modelImport, modelPath, modelFolderPath, List.append_assoc]
  rfl

theorem Feature.modelImports_eq (feature : Feature) (endpoints : List Endpoint) :
    feature.modelImports endpoints = (distinctModels endpoints).map feature.modelImport := by
  rw [modelImports, ← List.map_flatMap]
  refine eraseDups_map_models (fun _ _ a ha b hb heq => ?_) endpoints
  rw [modelImport_eq, modelImport_eq] at heq
  exact modelPath_inj ha hb (List.append_cancel_left heq)

/-- The files of the models are, in order, those of the different models that the endpoints
require, each with the text that the first of these endpoints gives it. Different models never share
a file, and the imports of the models lead, in order, to their files. -/
theorem modelFiles_match_models (feature : Feature) (endpoints : List Endpoint) :
    List.Forall₂ (fun model file =>
        file.1 = modelPath feature.modelFolder model ∧
          ∃ endpoint schema isResponse,
            endpoints.find? (fun endpoint => endpoint.requiredModels.contains model) =
                some endpoint ∧
              endpoint.Requires model schema isResponse ∧
                file.2 = renderModel model schema isResponse)
      (endpoints.flatMap (·.requiredModels)).eraseDups (modelFiles feature.modelFolder endpoints) ∧
    (∀ one other : Endpoint, ∀ a ∈ one.requiredModels, ∀ b ∈ other.requiredModels,
      modelFile a = modelFile b → a = b) ∧
    feature.modelImports endpoints =
      (modelFiles feature.modelFolder endpoints).map fun file =>
        feature.package ++ "/" ++ file.1 := by
  have hpaths := map_path_modelFiles feature.modelFolder endpoints
  refine ⟨?_, fun one other a ha b hb => modelFile_inj ha hb, ?_⟩
  · refine List.forall₂_iff_zip.2 ⟨?_, fun {model file} hzip => ?_⟩
    · have hlength := congrArg List.length hpaths
      rw [List.length_map, List.length_map] at hlength
      exact hlength.symm
    · obtain ⟨hmodel, hfile⟩ := List.of_mem_zip hzip
      have hpath : modelPath feature.modelFolder model = file.1 := by
        have hall : List.Forall₂ (fun model file => modelPath feature.modelFolder model = file.1)
            (distinctModels endpoints) (modelFiles feature.modelFolder endpoints) := by
          have hsame : List.Forall₂ Eq ((distinctModels endpoints).map (modelPath feature.modelFolder))
              ((modelFiles feature.modelFolder endpoints).map (·.1)) := by
            rw [hpaths]
            exact List.forall₂_refl _
          exact List.forall₂_map_right_iff.1 (List.forall₂_map_left_iff.1 hsame)
        exact (List.forall₂_iff_zip.1 hall).2 hzip
      exact ⟨hpath.symm, text_of_first hfile hmodel hpath.symm⟩
  · have himport : feature.modelImport =
        (feature.package ++ "/" ++ ·) ∘ modelPath feature.modelFolder :=
      funext feature.modelImport_eq
    rw [feature.modelImports_eq, himport, ← List.map_map, ← hpaths, List.map_map]
    rfl

end Scaffold
