import Scaffold.Proofs.Project.SourceFiles

/-!
# Full generation

What a full generation makes: the folders of the layers, all files of the layers, and the errors
shared by all features (`generateFull_makes`). It returns on every tree below one that has all of
this (`generateFull_runOn`).
-/

namespace Scaffold

variable {desk desk' : Desk} {target : Target} {config : Config} {feature : Feature}
  {endpoints : List Endpoint} {layers : Layers} {project name : Text} {file : FeatureFile}

namespace SourceFile

/-- The files of the data layer. -/
def dataFiles : List SourceFile :=
  [ofClass .service, ofClass .source, ofClass .sourceImpl, ofClass .repositoryImpl]

/-- The files of the domain layer. -/
def domainFiles : List SourceFile := [ofClass .repository, ofClass .useCases]

end SourceFile

/-- The files of the layers that depend on the endpoints, the models apart. -/
def Layers.sourceFiles (layers : Layers) : List SourceFile :=
  (if layers.data then SourceFile.dataFiles else []) ++
  (if layers.domain then SourceFile.domainFiles else []) ++
  (if layers.presentation && layers.components.bloc then [.bloc, .event, .state] else [])

/-- The files of the models that the layers ask for. -/
def Layers.models (layers : Layers) (folder : Text) (endpoints : List Endpoint) :
    List FeatureFile :=
  if layers.data then modelFiles folder endpoints else []

/-- The screen, if the layers ask for it. -/
def Layers.screen (layers : Layers) (feature : Feature) : List FeatureFile :=
  if layers.presentation && layers.components.screens then
    [(screenPath feature.name, renderScreen feature)]
  else []

theorem featureFiles_eq (feature : Feature) (endpoints : List Endpoint) (layers : Layers) :
    featureFiles feature endpoints layers =
      layers.models feature.modelFolder endpoints ++
        fullFiles (layers.sourceFiles.map (·.part feature endpoints)) ++ layers.screen feature := by
  obtain ⟨data, domain, presentation, bloc, screens, widgets⟩ := layers
  rw [featureFiles, Layers.models, Layers.sourceFiles, Layers.screen]
  cases data <;> cases domain <;> cases presentation <;> cases bloc <;> cases screens <;>
    simp [fullFiles, dataParts, domainParts, SourceFile.dataFiles, SourceFile.domainFiles,
      SourceFile.part]

theorem ite_sublist {α : Type} (condition : Prop) [Decidable condition] (list : List α) :
    (if condition then list else []).Sublist list := by
  split
  · exact List.Sublist.refl _
  · exact List.nil_sublist _

theorem Layers.nodup_sourceFiles (layers : Layers) : layers.sourceFiles.Nodup := by
  have hall : (SourceFile.dataFiles ++ SourceFile.domainFiles ++
      [SourceFile.bloc, SourceFile.event, SourceFile.state]).Nodup := by
    decide
  exact (((ite_sublist _ _).append (ite_sublist _ _)).append (ite_sublist _ _)).nodup hall

/-- The names that the files of a feature are made of. -/
structure Placed (feature : Feature) (endpoints : List Endpoint) : Prop where
  name : FeatureName feature.name
  folder : IsModelFolder feature.modelFolder
  methods : ∀ endpoint ∈ endpoints, '/' ∉ endpoint.methodName

/-! ## Places -/

theorem length_snake_append {ending : Text} (c : Char) (first base : Text) (hc : c ≠ '_')
    (hending : ending.flatMap Text.snakeChar = '_' :: c :: first) :
    first.length + 1 ≤ (base ++ ending).snake.length := by
  rw [Text.snake, List.flatMap_append, hending, List.dropWhile_append]
  split
  · simp [hc]
  · simp only [List.length_append, List.length_cons]
    omega

/-- A model's file is longer than that of the errors. -/
theorem modelFile_ne_error {endpoint : Endpoint} {model : Text}
    (hmodel : model ∈ endpoint.requiredModels) : modelFile model ≠ ("error.dart" : Text) := by
  have hlong : 7 ≤ model.snake.length := by
    rcases endpoint.eq_of_mem_requiredModels hmodel with rfl | rfl
    · exact length_snake_append 'r' "equest" _ (by decide) (by decide)
    · exact Nat.le_trans (by decide) (length_snake_append 'r' "esponse" _ (by decide) (by decide))
  intro heq
  have hlength := congrArg List.length heq
  have hdart : (".dart" : Text).length = 5 := by decide
  have herror : ("error.dart" : Text).length = 10 := by decide
  rw [modelFile, List.length_append, hdart, herror] at hlength
  omega

/-- The names on the way to a file of the feature from the feature's folder. -/
theorem relative_of_mem_models (hplaced : Placed feature endpoints)
    (h : file ∈ modelFiles feature.modelFolder endpoints) :
    ∃ model, file.1 = modelPath feature.modelFolder model ∧
      Path.Relative file.1 (modelRow feature.modelFolder model) := by
  obtain ⟨endpoint, hendpoint, model, hmodel, hpath⟩ := exists_of_mem_modelFiles h
  have hslash := noSlash_of_mem_requiredModels (hplaced.methods endpoint hendpoint) hmodel
  refine ⟨model, hpath, ?_⟩
  rw [hpath]
  exact relative_modelPath hplaced.folder hslash (modelFile_ne_error hmodel)

theorem SourceFile.folder_second (source : SourceFile) :
    2 ≤ source.folder.length ∧ source.folder[1]? ≠ some ("model" : Text) ∧
      source.folder[1]? ≠ some ("models" : Text) := by
  cases source with
  | ofClass kind => cases kind <;> decide
  | _ => decide

theorem SourceFile.row_ne_modelRow {folder model : Text} (hfolder : IsModelFolder folder)
    (source : SourceFile) : source.row name ≠ modelRow folder model := by
  intro h
  obtain ⟨hlength, hmodel, hmodels⟩ := source.folder_second
  have hsecond : source.folder[1]? = some folder := by
    have hrow : (source.row name)[1]? = some folder := by
      rw [h]
      rfl
    rwa [row, List.getElem?_append_left (Nat.lt_of_lt_of_le Nat.one_lt_two hlength)] at hrow
  rcases hfolder with rfl | rfl
  · exact hmodel hsecond
  · exact hmodels hsecond

theorem SourceFile.row_ne_screenRow (source : SourceFile) : source.row name ≠ screenRow name := by
  intro h
  have hlast := congrArg List.getLast? h
  have hending : source.ending ≠ ("_screen.dart" : Text) := by
    unfold ending
    repeat rw [String.toList_ofList]
    cases source with
    | ofClass kind => cases kind <;> decide
    | _ => decide
  rw [row, List.getLast?_concat, show (screenRow name).getLast? = some (name ++ ("_screen.dart" : Text)) from rfl,
    Option.some.injEq] at hlast
  exact hending (List.append_cancel_left hlast)

theorem screenRow_ne_modelRow {folder model : Text} : screenRow name ≠ modelRow folder model := by
  intro h
  exact absurd (List.cons.inj h).1 (by decide)

/-- A file of the feature lies below the feature's folder, in folders whose names have no dot. -/
structure Sited (file : FeatureFile) (folder : List Text) (last : Text) : Prop where
  relative : Path.Relative file.1 (folder ++ [last])
  folders : ∀ name ∈ folder, '.' ∉ name
  dotted : '.' ∈ last

theorem SourceFile.sited (hname : FeatureName feature.name) (source : SourceFile) (text : Text) :
    Sited ((source.part feature endpoints).path, text) source.folder
      (feature.name ++ source.ending) := by
  have hdots : (∀ name ∈ source.folder, '.' ∉ name) ∧ '.' ∈ source.ending := by
    unfold folder ending
    repeat rw [String.toList_ofList]
    cases source with
    | ofClass kind => cases kind <;> decide
    | _ => decide
  refine ⟨?_, hdots.1, List.mem_append_right _ hdots.2⟩
  rw [source.part_path]
  exact source.relative hname

theorem sited_screen (hname : FeatureName feature.name) (text : Text) :
    Sited (screenPath feature.name, text) ["presentation", "screen"]
      (feature.name ++ "_screen.dart") := by
  have hdots : (∀ name ∈ (["presentation", "screen"] : List Text), '.' ∉ name) ∧
      '.' ∈ ("_screen.dart" : Text) := by
    decide
  exact ⟨relative_screen hname, hdots.1, List.mem_append_right _ hdots.2⟩

theorem sited_model (hplaced : Placed feature endpoints)
    (h : file ∈ modelFiles feature.modelFolder endpoints) :
    ∃ model, file.1 = modelPath feature.modelFolder model ∧
      Sited file ["data", feature.modelFolder] (modelFile model) := by
  obtain ⟨model, hpath, hrow⟩ := relative_of_mem_models hplaced h
  refine ⟨model, hpath, hrow, ?_, ?_⟩
  · rcases hplaced.folder with hfolder | hfolder
    · rw [hfolder]
      decide
    · rw [hfolder]
      decide
  · exact List.mem_append_right _ (by decide)

/-- The files of a feature lie at different relative paths. -/
theorem featureFiles_apart (hplaced : Placed feature endpoints) :
    (featureFiles feature endpoints layers).Pairwise fun a b =>
      Path.names a.1 ≠ Path.names b.1 := by
  have hsource : ∀ source : SourceFile, Path.names (source.part feature endpoints).path =
      source.row feature.name := fun source => (source.sited hplaced.name []).relative.names
  have hmodels : (layers.models feature.modelFolder endpoints).Sublist
      (modelFiles feature.modelFolder endpoints) := ite_sublist _ _
  have hscreen : ∀ file ∈ layers.screen feature, Path.names file.1 = screenRow feature.name := by
    intro file hfile
    rw [List.mem_singleton.1 ((ite_sublist _ _).subset hfile)]
    exact (relative_screen hplaced.name).names
  have hmodel : ∀ file ∈ layers.models feature.modelFolder endpoints,
      ∃ model, file.1 = modelPath feature.modelFolder model ∧
        Path.names file.1 = modelRow feature.modelFolder model := by
    intro file hfile
    obtain ⟨model, hpath, hrow⟩ := relative_of_mem_models hplaced (hmodels.subset hfile)
    exact ⟨model, hpath, hrow.names⟩
  rw [featureFiles_eq]
  refine List.pairwise_append.2 ⟨List.pairwise_append.2 ⟨?_, ?_, ?_⟩, ?_, ?_⟩
  · refine List.Pairwise.imp_of_mem ?_ ((pairwise_foldl_addFile _).sublist hmodels)
    intro a b ha hb hne
    obtain ⟨model, hpath, hrow⟩ := hmodel a ha
    obtain ⟨model', hpath', hrow'⟩ := hmodel b hb
    rw [hrow, hrow']
    intro heq
    have hfile : modelFile model = modelFile model' := by
      simpa [modelRow] using heq
    exact hne (by rw [hpath, hpath', modelPath, modelPath, hfile])
  · rw [fullFiles, List.map_map, List.pairwise_map]
    refine layers.nodup_sourceFiles.imp fun {first second} hne => ?_
    show Path.names (first.part feature endpoints).path ≠
      Path.names (second.part feature endpoints).path
    rw [hsource, hsource]
    exact fun heq => hne (SourceFile.row_injective heq)
  · intro model hmem file hfile
    obtain ⟨part, hpart, rfl⟩ := List.mem_map.1 hfile
    obtain ⟨source, -, rfl⟩ := List.mem_map.1 hpart
    obtain ⟨_, -, hrow⟩ := hmodel model hmem
    rw [hrow, hsource]
    exact (source.row_ne_modelRow hplaced.folder).symm
  · exact List.Pairwise.sublist (ite_sublist _ _) (List.pairwise_singleton ..)
  · intro file hfile screen hmem
    rw [hscreen screen hmem]
    rcases List.mem_append.1 hfile with hfile | hfile
    · obtain ⟨_, -, hrow⟩ := hmodel file hfile
      rw [hrow]
      exact screenRow_ne_modelRow.symm
    · obtain ⟨part, hpart, rfl⟩ := List.mem_map.1 hfile
      obtain ⟨source, -, rfl⟩ := List.mem_map.1 hpart
      rw [hsource]
      exact source.row_ne_screenRow

theorem sited_of_mem_featureFiles (hplaced : Placed feature endpoints)
    (h : file ∈ featureFiles feature endpoints layers) : ∃ folder last, Sited file folder last := by
  rw [featureFiles_eq, List.mem_append, List.mem_append] at h
  rcases h with (h | h) | h
  · obtain ⟨_, -, hsited⟩ := sited_model hplaced ((ite_sublist _ _).subset h)
    exact ⟨_, _, hsited⟩
  · obtain ⟨part, hpart, rfl⟩ := List.mem_map.1 h
    obtain ⟨source, -, rfl⟩ := List.mem_map.1 hpart
    exact ⟨_, _, source.sited hplaced.name _⟩
  · rw [List.mem_singleton.1 ((ite_sublist _ _).subset h)]
    exact ⟨_, _, sited_screen hplaced.name _⟩

/-- The files of a feature lie at different places. -/
theorem featureFiles_places (hplaced : Placed feature endpoints) (target : Target) :
    (featureFiles feature endpoints layers).Pairwise fun a b =>
      (target.path a.1).resolve ≠ (target.path b.1).resolve := by
  refine List.Pairwise.imp_of_mem ?_ (featureFiles_apart hplaced)
  intro a b ha hb hne
  obtain ⟨folder, last, hsited⟩ := sited_of_mem_featureFiles hplaced ha
  obtain ⟨folder', last', hsited'⟩ := sited_of_mem_featureFiles hplaced hb
  rw [Target.path, Target.path, Path.resolve_join hsited.relative, Path.resolve_join hsited'.relative]
  rw [hsited.relative.names, hsited'.relative.names] at hne
  exact fun h => hne (List.append_cancel_left h)

/-! ## Runs -/

/-- The folder of a feature with models under the given name. -/
def Config.targetWith (config : Config) (project name folder : Text) : Target :=
  ⟨⟨project, name, folder⟩, config.featurePath name⟩

/-- The path of the folder that is used for models if it is there. -/
def Config.modelsPath (config : Config) (name : Text) : Path :=
  (config.featurePath name).join "data/models"

/-- The name of the folder for models. -/
def modelFolderFor (hasModels : Bool) : Text := if hasModels then "models" else "model"

theorem isModelFolder_modelFolderFor (hasModels : Bool) :
    IsModelFolder (modelFolderFor hasModels) := by
  cases hasModels
  · exact .inl rfl
  · exact .inr rfl

theorem Config.target_eq_ok_iff {tree : Tree} :
    config.target project name tree = .ok target ↔
      ∃ hasModels, tree.hasFolder (config.modelsPath name) = .ok hasModels ∧
        target = config.targetWith project name (modelFolderFor hasModels) := by
  rw [Config.target]
  show (do
    let hasModels ← tree.hasFolder (config.modelsPath name)
    return config.targetWith project name (modelFolderFor hasModels)) = Except.ok target ↔ _
  cases tree.hasFolder (config.modelsPath name) with
  | error error => exact ⟨nofun, fun ⟨_, h, _⟩ => nomatch h⟩
  | ok hasModels =>
      constructor
      · intro h
        exact ⟨hasModels, rfl, (Except.ok.inj h).symm⟩
      · rintro ⟨_, ⟨⟩, rfl⟩
        rfl

theorem checkModels_eq_ok :
    (checkModels endpoints).runOn desk = (.ok (), desk') ↔
      endpoints.all (·.hasShowableModels) = true ∧ desk' = desk := by
  rw [checkModels]
  split
  · next h => simp [h, eq_comm]
  · next h => simp [h]

/-- The items that a full generation makes, the errors shared by all features apart. -/
def Target.fullItems (target : Target) (endpoints : List Endpoint) (layers : Layers) : List Item :=
  target.folderItems (featureFolders target.feature layers) ++
    target.fileItems (featureFiles target.feature endpoints layers)

/-- A file that is made is one of the feature's files. -/
theorem mem_featureFiles_of_item {path : Path} {text : Text}
    (h : .file path text ∈ target.fullItems endpoints layers) :
    ∃ file ∈ featureFiles target.feature endpoints layers,
      target.path file.1 = path ∧ file.2 = text := by
  rcases List.mem_append.1 h with hmem | hmem
  · obtain ⟨folder, -, heq⟩ := List.mem_map.1 hmem
    cases heq
  · obtain ⟨file, hfile, heq⟩ := List.mem_map.1 hmem
    exact ⟨file, hfile, (Item.file.inj heq).1, (Item.file.inj heq).2⟩

/-- Writing the folders and files of a feature makes them. -/
theorem writeFeature_makes (hplaced : Placed target.feature endpoints) {middle : Desk}
    (hfolders : ((featureFolders target.feature layers).forM fun folder =>
      makeFolders (target.path folder)).runOn desk = (.ok (), middle))
    (hfiles : ((featureFiles target.feature endpoints layers).forM (createFile target)).runOn
      middle = (.ok (), desk')) :
    desk.tree.Makes (target.fullItems endpoints layers) desk'.tree := by
  refine (makeAllFolders_makes hfolders).append
    (createFiles_makes (featureFiles_places hplaced target) hfiles) ?_
  intro path text hitem
  obtain ⟨folder, -, heq⟩ := List.mem_map.1 hitem
  cases heq

/-- A full generation makes the folders and files of the layers, and then the errors shared by all
features. -/
theorem generateFull_makes {outcome : Outcome} (hname : FeatureName name)
    (hmethods : ∀ endpoint ∈ endpoints, '/' ∉ endpoint.methodName)
    (h : (generateFull config project name endpoints layers).runOn desk = (.ok outcome, desk')) :
    ∃ target middle, config.target project name desk.tree = .ok target ∧
      (layers.data = true → endpoints.all (·.hasShowableModels) = true) ∧
      desk.tree.Makes (target.fullItems endpoints layers) middle ∧
      middle.Makes (errorItems config middle) desk'.tree ∧
      desk'.tree.has config.errorUnionPath = .ok true ∧
      outcome.filesWritten = (featureFiles target.feature endpoints layers).map (·.1) := by
  obtain ⟨target, first, hask, hrest⟩ := Work.runOn_bind_eq_ok.1 h
  obtain ⟨htarget, rfl⟩ := runOn_ask_eq_ok.1 hask
  obtain ⟨⟨⟩, second, hsay, hchecked⟩ := Work.runOn_bind_eq_ok.1 hrest
  have hsecond : second.tree = first.tree := (congrArg (·.2.tree) hsay).symm
  have hplaced : Placed target.feature endpoints := by
    obtain ⟨hasModels, -, rfl⟩ := Config.target_eq_ok_iff.1 htarget
    exact ⟨hname, isModelFolder_modelFolderFor hasModels, hmethods⟩
  -- the models are checked only if the data layer is chosen
  have hwritten : (layers.data = true → endpoints.all (·.hasShowableModels) = true) ∧
      ∃ made, ((featureFolders target.feature layers).forM fun folder =>
        makeFolders (target.path folder)).runOn second = (.ok (), made) ∧
      ∃ written, ((featureFiles target.feature endpoints layers).forM (createFile target)).runOn
        made = (.ok (), written) ∧
      ∃ ensured, (ensureErrorUnion config).runOn written = (.ok (), ensured) ∧
        ensured.tree = desk'.tree ∧
        outcome.filesWritten = (featureFiles target.feature endpoints layers).map (·.1) := by
    have houtcome : ∀ {ensured : Desk} {report : Outcome}, (do
          Work.say ("Feature '" ++ name ++ "' generated with " ++ Text.ofNat endpoints.length ++
            " endpoint(s) at " ++ config.location name)
          return report : Work WorkError Outcome).runOn ensured = (.ok outcome, desk') →
        ensured.tree = desk'.tree ∧ outcome.filesWritten = report.filesWritten := by
      intro ensured report hlast
      obtain ⟨heq, rfl⟩ := Prod.mk.injEq .. ▸ hlast
      obtain rfl := Except.ok.inj heq
      exact ⟨rfl, rfl⟩
    by_cases hdata : layers.data = true
    · rw [if_pos hdata] at hchecked
      obtain ⟨⟨⟩, checked, hcheck, hwrite⟩ := Work.runOn_bind_eq_ok.1 hchecked
      obtain ⟨hshowable, rfl⟩ := checkModels_eq_ok.1 hcheck
      obtain ⟨⟨⟩, made, hmade, hwrite⟩ := Work.runOn_bind_eq_ok.1 hwrite
      obtain ⟨⟨⟩, written, hwritten, hwrite⟩ := Work.runOn_bind_eq_ok.1 hwrite
      obtain ⟨⟨⟩, ensured, hensured, hlast⟩ := Work.runOn_bind_eq_ok.1 hwrite
      exact ⟨fun _ => hshowable, made, hmade, written, hwritten, ensured, hensured, houtcome hlast⟩
    · rw [if_neg hdata] at hchecked
      obtain ⟨⟨⟩, made, hmade, hwrite⟩ := Work.runOn_bind_eq_ok.1 hchecked
      obtain ⟨⟨⟩, written, hwritten, hwrite⟩ := Work.runOn_bind_eq_ok.1 hwrite
      obtain ⟨⟨⟩, ensured, hensured, hlast⟩ := Work.runOn_bind_eq_ok.1 hwrite
      exact ⟨fun h => absurd h hdata, made, hmade, written, hwritten, ensured, hensured, houtcome hlast⟩
  obtain ⟨hshowable, made, hmade, written, hwritten, ensured, hensured, hlast, hreport⟩ := hwritten
  obtain ⟨herrors, hhas⟩ := ensureErrorUnion_makes hensured
  rw [hlast] at herrors hhas
  have hmakes := writeFeature_makes hplaced hmade hwritten
  rw [hsecond] at hmakes
  exact ⟨target, written.tree, htarget, hshowable, hmakes, herrors, hhas, hreport⟩

/-- A full generation returns below a tree that has all it makes. -/
theorem generateFull_runOn {third : Tree}
    (htarget : config.target project name desk.tree = .ok target)
    (hshowable : layers.data = true → endpoints.all (·.hasShowableModels) = true)
    (hbelow : desk.tree.Below third)
    (hitems : ∀ item ∈ target.fullItems endpoints layers, third.HasLike item)
    (herrors : ∀ middle, desk.tree.Makes (target.fullItems endpoints layers) middle →
      middle.has config.errorUnionPath = .ok true ∨
        middle.has config.errorUnionPath = .ok false ∧ third.HoldsFile config.errorUnionPath)
    (hplaced : Placed target.feature endpoints) :
    ∃ outcome desk', (generateFull config project name endpoints layers).runOn desk =
      (.ok outcome, desk') := by
  have hstart : desk.tree = (desk.tell ("Generating feature: " ++ name ++ ['\n'])).tree := rfl
  have hfolders : ∀ folder ∈ featureFolders target.feature layers,
      third.Holds (.folder (target.path folder)) := by
    intro folder hfolder
    exact hitems _ (List.mem_append_left _ (List.mem_map_of_mem hfolder))
  have hfiles : ∀ file ∈ featureFiles target.feature endpoints layers,
      third.HoldsFile (target.path file.1) := by
    intro file hfile
    exact hitems (.file (target.path file.1) file.2)
      (List.mem_append_right _ (List.mem_map.2 ⟨file, hfile, rfl⟩))
  obtain ⟨made, hmade, hmadeBelow⟩ := makeAllFolders_runOn (hstart ▸ hbelow) hfolders
  obtain ⟨written, hwritten, hwrittenBelow⟩ := createFiles_runOn hmadeBelow hfiles
  have hmakes := writeFeature_makes hplaced hmade hwritten
  rw [← hstart] at hmakes
  obtain ⟨ensured, hensured⟩ := ensureErrorUnion_runOn hwrittenBelow (herrors written.tree hmakes)
  rw [generateFull, Work.runOn_bind_of_ok (runOn_ask_of_ok htarget),
    Work.runOn_bind_of_ok (Work.runOn_say _ _)]
  by_cases hdata : layers.data = true
  · rw [if_pos hdata, Work.runOn_bind_of_ok (checkModels_eq_ok.2 ⟨hshowable hdata, rfl⟩)]
    exact ⟨_, _, (Work.runOn_bind_of_ok hmade).trans ((Work.runOn_bind_of_ok hwritten).trans
      ((Work.runOn_bind_of_ok hensured).trans rfl))⟩
  · rw [if_neg hdata]
    exact ⟨_, _, (Work.runOn_bind_of_ok hmade).trans ((Work.runOn_bind_of_ok hwritten).trans
      ((Work.runOn_bind_of_ok hensured).trans rfl))⟩

end Scaffold
