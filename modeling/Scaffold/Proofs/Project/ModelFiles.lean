import Scaffold.Proofs.Project.Layout

/-!
# The model files

Of the files of several models with one path the first one is kept (`mem_modelFiles`), so the files
of more endpoints are those of the first ones and those with other paths
(`mem_modelFiles_append`).
-/

namespace Scaffold

variable {files : List FeatureFile} {file : FeatureFile} {folder path : Text}
  {endpoints others : List Endpoint}

theorem not_any_path_iff :
    ¬ (files.any fun other => other.1 == path) = true ↔ ∀ known ∈ files, known.1 ≠ path := by
  simp only [Bool.not_eq_true, List.any_eq_false, beq_iff_eq]

theorem mem_addFile {other : FeatureFile} :
    file ∈ addFile files other ↔
      file ∈ files ∨ file = other ∧ ∀ known ∈ files, known.1 ≠ other.1 := by
  rw [addFile]
  split
  · next hany =>
    obtain ⟨known, hknown, heq⟩ := List.any_eq_true.1 hany
    rw [beq_iff_eq] at heq
    constructor
    · exact .inl
    · rintro (h | ⟨-, hnew⟩)
      · exact h
      · exact absurd heq (hnew known hknown)
  · next hany =>
    have hnew := not_any_path_iff.1 hany
    simp only [List.mem_append, List.mem_singleton]
    exact or_congr_right ⟨fun h => ⟨h, hnew⟩, fun h => h.1⟩

/-- Adding files one after the other keeps the first one of each path. -/
theorem mem_foldl_addFile :
    file ∈ files.foldl addFile [] ↔ files.find? (fun other => other.1 == file.1) = some file := by
  induction files using List.reverseRecOn generalizing file with
  | nil => simp
  | append_singleton files last ih =>
      rw [List.foldl_concat, mem_addFile, ih, List.find?_append, List.find?_singleton]
      cases hfind : files.find? (fun other => other.1 == file.1) with
      | some found =>
          have hpath : found.1 = file.1 := by simpa using List.find?_some hfind
          have hkept : found ∈ files.foldl addFile [] := by
            rw [ih, hpath, hfind]
          constructor
          · rintro (h | ⟨rfl, hnew⟩)
            · simpa using h
            · exact absurd hpath (hnew found hkept)
          · intro h
            exact .inl (by simpa using h)
      | none =>
          have hnone : ∀ other ∈ files, other.1 ≠ file.1 := by simpa using hfind
          have hold : ∀ known ∈ files.foldl addFile [], known ∈ files := fun known hknown =>
            List.mem_of_find?_eq_some (ih.1 hknown)
          constructor
          · rintro (h | ⟨rfl, -⟩)
            · cases h
            · simp
          · intro h
            by_cases hlast : last.1 = file.1
            · simp only [hlast, BEq.rfl, if_true, Option.none_or, Option.some.injEq] at h
              subst h
              exact .inr ⟨rfl, fun known hknown => hnone known (hold known hknown)⟩
            · simp [hlast] at h

theorem mem_modelFiles :
    file ∈ modelFiles folder endpoints ↔
      (endpoints.flatMap (·.modelFiles folder)).find? (fun other => other.1 == file.1) =
        some file :=
  mem_foldl_addFile

/-- The files for more endpoints are those of the first ones, and those of the others with new
paths. -/
theorem mem_modelFiles_append :
    file ∈ modelFiles folder (endpoints ++ others) ↔
      file ∈ modelFiles folder endpoints ∨
        file ∈ modelFiles folder others ∧
          ∀ known ∈ modelFiles folder endpoints, known.1 ≠ file.1 := by
  simp only [mem_modelFiles, List.flatMap_append, List.find?_append, Option.or_eq_some_iff]
  refine or_congr_right ⟨fun ⟨hnone, h⟩ => ⟨h, fun known hknown heq => ?_⟩, fun ⟨h, hnew⟩ => ⟨?_, h⟩⟩
  · rw [heq, hnone] at hknown
    cases hknown
  · cases hfind : (endpoints.flatMap (·.modelFiles folder)).find? (fun other => other.1 == file.1) with
    | none => rfl
    | some found =>
        have hpath : found.1 = file.1 := by simpa using List.find?_some hfind
        exact absurd hpath (hnew found (by rw [hpath, hfind]))

/-- Every model has a file with its path. -/
theorem exists_mem_modelFiles (h : file ∈ endpoints.flatMap (·.modelFiles folder)) :
    ∃ kept ∈ modelFiles folder endpoints, kept.1 = file.1 := by
  cases hfind : (endpoints.flatMap (·.modelFiles folder)).find? (fun other => other.1 == file.1) with
  | none => exact absurd BEq.rfl (List.find?_eq_none.1 hfind file h)
  | some kept =>
      have hpath : kept.1 = file.1 := by simpa using List.find?_some hfind
      exact ⟨kept, mem_modelFiles.2 (by rw [hpath, hfind]), hpath⟩

theorem pairwise_foldl_addFile (files : List FeatureFile) :
    (files.foldl addFile []).Pairwise fun a b => a.1 ≠ b.1 := by
  induction files using List.reverseRecOn with
  | nil => simp
  | append_singleton files last ih =>
      rw [List.foldl_concat, addFile]
      split
      · exact ih
      · next hany =>
        refine List.pairwise_append.2 ⟨ih, List.pairwise_singleton .., ?_⟩
        simpa only [List.mem_singleton, forall_eq] using not_any_path_iff.1 hany

theorem mem_endpoint_modelFiles {endpoint : Endpoint} (h : file ∈ endpoint.modelFiles folder) :
    ∃ model ∈ endpoint.requiredModels, file.1 = modelPath folder model := by
  simp only [Endpoint.modelFiles, Endpoint.requiredModels, List.mem_append] at h ⊢
  rcases h with h | h
  · cases hbody : endpoint.body with
    | none => simp [hbody] at h
    | some body =>
        simp only [hbody, List.mem_singleton] at h
        exact ⟨endpoint.requestModel, by simp, by rw [h]⟩
  · cases hschema : endpoint.responseSchema? with
    | none => simp [hschema] at h
    | some schema =>
        simp only [hschema, List.mem_singleton] at h
        exact ⟨endpoint.responseModel, by simp, by rw [h]⟩

theorem exists_of_mem_modelFiles (h : file ∈ modelFiles folder endpoints) :
    ∃ endpoint ∈ endpoints, ∃ model ∈ endpoint.requiredModels, file.1 = modelPath folder model := by
  obtain ⟨endpoint, hendpoint, hfile⟩ :=
    List.mem_flatMap.1 (List.mem_of_find?_eq_some (mem_modelFiles.1 h))
  exact ⟨endpoint, hendpoint, mem_endpoint_modelFiles hfile⟩

/-- Each model of an endpoint is among the files of its models. -/
theorem exists_mem_endpoint_modelFiles {endpoint : Endpoint} {model : Text} (folder : Text)
    (h : model ∈ endpoint.requiredModels) :
    ∃ file ∈ endpoint.modelFiles folder, file.1 = modelPath folder model := by
  rw [Endpoint.requiredModels, List.mem_append] at h
  rw [Endpoint.modelFiles]
  rcases h with h | h
  · cases hbody : endpoint.body with
    | none => simp [hbody] at h
    | some body =>
        obtain rfl : model = endpoint.requestModel := by simpa [hbody] using h
        exact ⟨_, List.mem_append_left _ List.mem_cons_self, rfl⟩
  · cases hschema : endpoint.responseSchema? with
    | none => simp [hschema] at h
    | some schema =>
        obtain rfl : model = endpoint.responseModel := by simpa [hschema] using h
        exact ⟨_, List.mem_append_right _ List.mem_cons_self, rfl⟩

theorem text_of_mem_modelFiles (h : file ∈ modelFiles folder endpoints) :
    ∃ name schema isResponse, file.2 = renderModel name schema isResponse := by
  obtain ⟨endpoint, -, hfile⟩ :=
    List.mem_flatMap.1 (List.mem_of_find?_eq_some (mem_modelFiles.1 h))
  rw [Endpoint.modelFiles, List.mem_append] at hfile
  rcases hfile with hfile | hfile
  · split at hfile
    · obtain rfl := List.mem_singleton.1 hfile
      exact ⟨_, _, _, rfl⟩
    · cases hfile
  · split at hfile
    · obtain rfl := List.mem_singleton.1 hfile
      exact ⟨_, _, _, rfl⟩
    · cases hfile

/-! ## Places -/

/-- The name of the folder for models. -/
def IsModelFolder (folder : Text) : Prop := folder = ("model" : Text) ∨ folder = ("models" : Text)

theorem wordy_of_mem_requiredModels {endpoint : Endpoint} {model : Text}
    (h : Wordy endpoint.methodName) (hmodel : model ∈ endpoint.requiredModels) : Wordy model := by
  rcases endpoint.eq_of_mem_requiredModels hmodel with rfl | rfl
  · exact Endpoint.wordy_requestModel h
  · exact Endpoint.wordy_responseModel h

/-- The signs in the names of an endpoint's models are those of the name of its method. -/
theorem not_mem_of_mem_requiredModels {endpoint : Endpoint} {model : Text} {c : Char}
    (hascii : c.toNat < 0x80) (hword : isWordChar c = false) (h : c ∉ endpoint.methodName)
    (hmodel : model ∈ endpoint.requiredModels) : c ∉ model := by
  have hbase : c ∉ endpoint.baseName := fun hmem =>
    h (Text.mem_of_mem_pascal hascii hword hmem)
  have hending : ∀ ending : Text, Wordy ending → c ∉ ending := fun ending hending =>
    hending.not_mem hascii hword
  rcases endpoint.eq_of_mem_requiredModels hmodel with rfl | rfl
  · exact List.not_mem_append hbase (hending _ (by decide))
  · exact List.not_mem_append hbase (hending _ (by decide))

/-- A name without a slash gives models without one. -/
theorem noSlash_of_mem_requiredModels {endpoint : Endpoint} {model : Text}
    (h : '/' ∉ endpoint.methodName) (hmodel : model ∈ endpoint.requiredModels) : '/' ∉ model :=
  not_mem_of_mem_requiredModels (by decide) (by decide) h hmodel

theorem isName_modelFile {model : Text} (h : '/' ∉ model) : Path.IsName (modelFile model) := by
  have hlast : (modelFile model).getLast? = some 't' := by simp [modelFile]
  refine ⟨?_, ?_, ?_, ?_⟩
  · simp [modelFile]
  · have hslash : '/' ∉ model.snake := fun hmem => h (Text.mem_of_mem_snake (by decide) hmem)
    simp [modelFile, hslash]
  · intro heq
    simp [heq] at hlast
  · intro heq
    rw [heq] at hlast
    exact absurd hlast (by decide)

theorem relative_modelFolder (h : IsModelFolder folder) :
    Path.Relative (modelFolderPath folder) ["data", folder] := by
  rcases h with rfl | rfl
  · decide
  · decide

end Scaffold
