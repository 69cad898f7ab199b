import Scaffold.Proofs.Dart.ImportDirectives
import Scaffold.Proofs.Project.Start

/-!
# Where imports lead

A generated file imports packages, the container of the project, the errors shared by all features
and files of its own feature (`Feature.Uses`). What it imports from its own feature is always there
(`import_leads`), but the imports name it below `lib/features`: where the features lie elsewhere they
miss it (`import_misses_file`).
-/

namespace Scaffold

variable {config : Config} {project name : Text} {feature : Feature} {endpoint : Endpoint}
  {endpoints : List Endpoint} {file : FeatureFile} {path p text : Text}

/-! ## What is imported -/

/-- The imports of the files of a feature. -/
inductive Feature.Uses (feature : Feature) (endpoints : List Endpoint) : Text → Prop
  | foreign {path : Text} (h : path ∈ foreignImports) : Uses feature endpoints path
  | container : Uses feature endpoints ("package:" ++ feature.project ++ "/di/di_container.dart")
  | errors : Uses feature endpoints feature.errorImport
  | file {file : FeatureFile} (h : file ∈ featureFiles feature endpoints {}) :
      Uses feature endpoints (feature.package ++ '/' :: file.1)

namespace Feature.Uses

theorem foreignPackage : ∀ path ∈ foreignPackages, feature.Uses endpoints path := fun _ hpath =>
  .foreign (List.mem_cons_of_mem _ hpath)

theorem source (source : SourceFile) :
    feature.Uses endpoints (feature.fileImport source.folderText source.ending) := by
  have hmem : source ∈ Layers.sourceFiles {} := by
    cases source with
    | ofClass kind => cases kind <;> decide
    | _ => decide
  have hfile : ((source.part feature endpoints).path, (source.part feature endpoints).full) ∈
      featureFiles feature endpoints {} := by
    rw [featureFiles_eq]
    refine List.mem_append_left _ (List.mem_append_right _ ?_)
    exact List.mem_map.2 ⟨_, List.mem_map_of_mem hmem, rfl⟩
  have himport : feature.fileImport source.folderText source.ending =
      feature.package ++ '/' :: (source.part feature endpoints).path := by
    rw [source.part_path, source.path_eq]
    simp [Feature.fileImport]
  rw [himport]
  exact .file hfile

theorem modelImport {model : Text} (hendpoint : endpoint ∈ endpoints)
    (hmodel : model ∈ endpoint.requiredModels) :
    feature.Uses endpoints (feature.modelImport model) := by
  obtain ⟨file, hfile, hpath⟩ := exists_mem_endpoint_modelFiles feature.modelFolder hmodel
  obtain ⟨kept, hkept, hkeptPath⟩ :=
    exists_mem_modelFiles (List.mem_flatMap.2 ⟨endpoint, hendpoint, hfile⟩)
  have himport : feature.modelImport model = feature.package ++ '/' :: kept.1 := by
    rw [hkeptPath, hpath]
    simp [Feature.modelImport, modelPath, modelFolderPath]
  rw [himport]
  refine .file ?_
  rw [featureFiles_eq]
  exact List.mem_append_left _ (List.mem_append_left _ hkept)

theorem modelImports : ∀ path ∈ feature.modelImports endpoints, feature.Uses endpoints path := by
  intro path hpath
  obtain ⟨endpoint, hendpoint, hpath⟩ := List.mem_flatMap.1 (List.mem_eraseDups.1 hpath)
  obtain ⟨model, hmodel, rfl⟩ := List.mem_map.1 hpath
  exact .modelImport hendpoint hmodel

theorem classImports (file : ClassFile) :
    ∀ path ∈ file.imports feature endpoints, feature.Uses endpoints path := by
  have hfixed : ∀ path ∈ file.fixedImports feature, feature.Uses endpoints path :=
    file.forall_fixedImports foreignPackage .errors (source (.ofClass .service))
      (source (.ofClass .source)) (source (.ofClass .repository))
  intro path hpath
  rcases List.mem_append.1 (List.mem_eraseDups.1 hpath) with hpath | hpath
  · exact hfixed path hpath
  · exact modelImports path hpath

theorem blocImports : ∀ path ∈ blocImports feature endpoints, feature.Uses endpoints path := by
  have hfixed : ∀ path ∈ blocFixedImports feature, feature.Uses endpoints path :=
    forall_blocFixedImports foreignPackage .errors (.foreign List.mem_cons_self) (source (.ofClass .useCases))
  intro path hpath
  rcases List.mem_append.1 (List.mem_eraseDups.1 hpath) with hpath | hpath
  · exact hfixed path hpath
  · exact modelImports path hpath

theorem screenImports : ∀ path ∈ screenImports feature, feature.Uses endpoints path := by
  have hbloc : feature.Uses endpoints feature.blocImport := source .bloc
  have herrors : feature.Uses endpoints feature.errorImport := .errors
  have hcontainer : feature.Uses endpoints
    ("package:" ++ feature.project ++ "/di/di_container.dart") := .container
  have hforeign : ∀ path ∈ foreignPackages, feature.Uses endpoints path := foreignPackage
  simp only [foreignPackages, List.forall_mem_cons] at hforeign
  simp only [Scaffold.screenImports, List.forall_mem_cons]
  exact ⟨hforeign.2.2.1, hforeign.2.2.2.1, hcontainer, herrors, hbloc, List.forall_mem_nil _⟩

end Feature.Uses

theorem freezedImport_mem : freezedImport ∈ foreignPackages :=
  .tail _ (.tail _ (.tail _ (.tail _ (.head _))))

/-- Each file of a feature opens with imports of these kinds. -/
theorem opensWith_of_mem_featureFiles (h : file ∈ featureFiles feature endpoints {}) :
    ∃ paths, OpensWith file.2 paths ∧ ∀ path ∈ paths, feature.Uses endpoints path := by
  have hfreezed : ∀ path ∈ [freezedImport], feature.Uses endpoints path :=
    List.forall_mem_singleton.2 (.foreignPackage _ freezedImport_mem)
  rw [featureFiles_eq] at h
  rcases List.mem_append.1 h with h | h
  · rcases List.mem_append.1 h with h | h
    · obtain ⟨name, schema, isResponse, hfile⟩ := text_of_mem_modelFiles h
      exact ⟨_, hfile ▸ opensWith_renderModel name schema isResponse, hfreezed⟩
    · obtain ⟨part, hpart, rfl⟩ := List.mem_map.1 h
      obtain ⟨source, -, rfl⟩ := List.mem_map.1 hpart
      cases source with
      | ofClass kind => exact ⟨_, kind.opensWith_render, .classImports kind⟩
      | event => exact ⟨[], opensWith_renderEvent, List.forall_mem_nil _⟩
      | state => exact ⟨[], opensWith_renderState, List.forall_mem_nil _⟩
      | bloc => exact ⟨_, opensWith_renderBloc, .blocImports⟩
  · obtain rfl := List.mem_singleton.1 h
    exact ⟨_, opensWith_renderScreen, .screenImports⟩

/-! ## Imports of the project itself -/

/-- The import path of a file in the library of a project. -/
def libraryImport (project p : Text) : Text := "package:" ++ project ++ "/" ++ p

/-- The path of a file in the library of the project. -/
def Config.libraryPath (config : Config) (p : Text) : Path := config.root.join ("lib/" ++ p)

/-- The path leads into one of the two folders that the generator writes to. -/
def IsGeneratedPath (p : Text) : Prop :=
  p.startsWith "features/" = true ∨ p.startsWith "core/" = true

instance (p : Text) : Decidable (IsGeneratedPath p) := inferInstanceAs (Decidable (_ ∨ _))

theorem IsGeneratedPath.slash_mem (h : IsGeneratedPath p) : '/' ∈ p := by
  rcases h with h | h
  · exact (List.isPrefixOf_iff_prefix.1 h).subset (by decide)
  · exact (List.isPrefixOf_iff_prefix.1 h).subset (by decide)

theorem libraryImport_injective (project : Text) : Function.Injective (libraryImport project) := by
  intro first second h
  unfold libraryImport at h
  exact List.append_cancel_left h

theorem libraryImport_cons {head : Char} {rest : Text} :
    "package:" ++ project ++ ('/' :: head :: rest) = libraryImport project (head :: rest) := by
  unfold libraryImport
  rw [List.append_assoc _ ("/" : Text)]
  rfl

/-- No import from another project has the slashes of a path into one of the two folders. -/
theorem libraryImport_not_mem_foreignImports (h : IsGeneratedPath p) :
    libraryImport project p ∉ foreignImports := by
  intro hmem
  have hfew : ∀ path ∈ foreignImports, path.count '/' ≤ 1 := by
    unfold foreignImports foreignPackages freezedImport injectableImport eitherImport
    repeat rw [String.toList_ofList]
    decide
  have hcount := hfew _ hmem
  have hmany : 0 < p.count '/' := List.count_pos_iff.2 h.slash_mem
  have hslash : ("/" : Text).count '/' = 1 := by decide
  unfold libraryImport at hcount
  rw [List.count_append, List.count_append, hslash] at hcount
  omega

theorem Feature.Uses.eq_of_generated (h : feature.Uses endpoints (libraryImport feature.project p))
    (hp : IsGeneratedPath p) :
    p = ("core/error/error.dart" : Text) ∨
      ∃ file ∈ featureFiles feature endpoints {},
        p = "features/" ++ feature.name ++ "/" ++ file.1 := by
  generalize himport : libraryImport feature.project p = path at h
  cases h with
  | foreign hforeign =>
      rw [← himport] at hforeign
      exact absurd hforeign (libraryImport_not_mem_foreignImports hp)
  | container =>
      have hsame : p = ("di/di_container.dart" : Text) :=
        libraryImport_injective _ (himport.trans libraryImport_cons)
      rw [hsame] at hp
      exact absurd hp (by decide)
  | errors => exact .inl (libraryImport_injective _ (himport.trans libraryImport_cons))
  | file hfile =>
      refine .inr ⟨_, hfile, libraryImport_injective _ (himport.trans ?_)⟩
      unfold Feature.package libraryImport
      simp only [List.append_assoc]
      rfl

/-! ## Lines -/

/-- No name that imports are made of goes over the end of a line. -/
structure Feature.Unbroken (feature : Feature) (endpoints : List Endpoint) : Prop where
  project : '\n' ∉ feature.project
  name : '\n' ∉ feature.name
  folder : IsModelFolder feature.modelFolder
  methods : ∀ endpoint ∈ endpoints, '\n' ∉ endpoint.methodName

namespace Feature.Unbroken

variable (h : feature.Unbroken endpoints)

include h

theorem package : '\n' ∉ feature.package := by
  unfold Feature.package
  exact List.not_mem_append (List.not_mem_append (List.not_mem_append (by decide) h.project)
    (by decide)) h.name

theorem modelPath {model : Text} (hendpoint : endpoint ∈ endpoints)
    (hmodel : model ∈ endpoint.requiredModels) : '\n' ∉ modelPath feature.modelFolder model := by
  have hbreak := not_mem_of_mem_requiredModels (by decide) (by decide)
    (h.methods endpoint hendpoint) hmodel
  have hfile : '\n' ∉ modelFile model := by
    unfold modelFile
    exact List.not_mem_append (fun hmem => hbreak (Text.mem_of_mem_snake (by decide) hmem))
      (by decide)
  have hfolder : '\n' ∉ modelFolderPath feature.modelFolder := by
    rcases h.folder with hfolder | hfolder
    · rw [hfolder]
      decide
    · rw [hfolder]
      decide
  unfold Scaffold.modelPath
  exact List.not_mem_append (List.not_mem_append hfolder (by decide)) hfile

theorem sourcePath (source : SourceFile) : '\n' ∉ source.path feature.name := by
  have hfixed : '\n' ∉ source.folderText ∧ '\n' ∉ source.ending := by
    unfold SourceFile.folderText SourceFile.ending
    repeat rw [String.toList_ofList]
    cases source with
    | ofClass kind => cases kind <;> decide
    | _ => decide
  rw [source.path_eq]
  exact List.not_mem_append hfixed.1 (List.not_mem_cons_of_ne_of_not_mem (by decide)
    (List.not_mem_append h.name hfixed.2))

theorem featureFiles (hfile : file ∈ featureFiles feature endpoints {}) : '\n' ∉ file.1 := by
  rw [featureFiles_eq] at hfile
  rcases List.mem_append.1 hfile with hfile | hfile
  · rcases List.mem_append.1 hfile with hfile | hfile
    · obtain ⟨endpoint, hendpoint, model, hmodel, hpath⟩ := exists_of_mem_modelFiles hfile
      exact hpath ▸ h.modelPath hendpoint hmodel
    · obtain ⟨part, hpart, rfl⟩ := List.mem_map.1 hfile
      obtain ⟨source, -, rfl⟩ := List.mem_map.1 hpart
      rw [source.part_path]
      exact h.sourcePath source
  · obtain rfl := List.mem_singleton.1 hfile
    unfold screenPath
    exact List.not_mem_append (List.not_mem_append (by decide) h.name) (by decide)

theorem uses (huses : feature.Uses endpoints path) : '\n' ∉ path := by
  cases huses with
  | foreign hforeign => exact (pathChars_foreignImports path hforeign).not_mem (by decide)
  | container => exact List.not_mem_append (List.not_mem_append (by decide) h.project) (by decide)
  | errors =>
      unfold Feature.errorImport
      exact List.not_mem_append (List.not_mem_append (by decide) h.project) (by decide)
  | file hfile =>
      exact List.not_mem_append h.package
        (List.not_mem_cons_of_ne_of_not_mem (by decide) (h.featureFiles hfile))

end Feature.Unbroken

/-- What a file imports from the project itself, below one of the two folders, are the errors or
files of the feature. -/
theorem eq_of_imports {paths : List Text} (h : feature.Unbroken endpoints)
    (hopens : OpensWith text paths) (huses : ∀ path ∈ paths, feature.Uses endpoints path)
    (himports : Imports text (libraryImport feature.project p)) (hp : IsGeneratedPath p) :
    p = ("core/error/error.dart" : Text) ∨
      ∃ file ∈ featureFiles feature endpoints {},
        p = "features/" ++ feature.name ++ "/" ++ file.1 := by
  have hmem := (hopens.imports_iff fun path hpath => h.uses (huses path hpath)).1 himports
  exact (huses _ hmem).eq_of_generated hp

/-! ## Runs -/

/-- A run has written at the place: it reports a file there, or what stands there has changed. -/
def Outcome.Wrote (outcome : Outcome) (folder : Path) (tree other : Tree) (place : Path) : Prop :=
  (∃ file ∈ outcome.filesWritten, place = (folder.join file).resolve) ∨
    other.get? place ≠ tree.get? place

variable {desk desk' : Desk} {target : Target} {outcome : Outcome} {middle : Tree} {place : Path}

/-- The texts that a full generation leaves where it has written. -/
theorem text_of_wrote
    (hmakes : desk.tree.Makes (target.fullItems endpoints {} ++ errorItems config middle) desk'.tree)
    (hreport : outcome.filesWritten = (featureFiles target.feature endpoints {}).map (·.1))
    (hwrote : outcome.Wrote target.folder desk.tree desk'.tree place)
    (htext : desk'.tree.get? place = some (.file (.text text))) :
    text = errorUnionFile ∨ ∃ file ∈ featureFiles target.feature endpoints {}, text = file.2 := by
  have hheld : ∀ item ∈ target.fullItems endpoints {} ++ errorItems config middle,
      place ∈ item.path.places → ∃ path, item = .file path text := by
    intro item hitem hplace
    have hholds := hmakes.holds item hitem
    rcases List.mem_append.1 hplace with hpassed | hlast
    · rw [hholds.passed place hpassed] at htext
      cases htext
    · obtain rfl : place = item.place := List.mem_singleton.1 hlast
      rw [hholds.get] at htext
      cases item with
      | folder path => cases htext
      | file path content =>
          obtain rfl : content = text := by simpa [Item.entry] using htext
          exact ⟨path, rfl⟩
  rcases hwrote with ⟨path, hpath, rfl⟩ | hchanged
  · rw [hreport] at hpath
    obtain ⟨file, hfile, rfl⟩ := List.mem_map.1 hpath
    have hitem : Item.file (target.path file.1) file.2 ∈
        target.fullItems endpoints {} ++ errorItems config middle :=
      List.mem_append_left _ (List.mem_append_right _ (List.mem_map.2 ⟨file, hfile, rfl⟩))
    obtain ⟨path, heq⟩ := hheld _ hitem (Path.resolve_mem_places _)
    cases heq
    exact .inr ⟨file, hfile, rfl⟩
  · obtain ⟨item, hitem, hplace⟩ :
        ∃ item ∈ target.fullItems endpoints {} ++ errorItems config middle,
          place ∈ item.path.places := by
      by_contra hnone
      exact hchanged (hmakes.rest place fun item hitem hplace => hnone ⟨item, hitem, hplace⟩)
    obtain ⟨path, rfl⟩ := hheld item hitem hplace
    rcases List.mem_append.1 hitem with hitem | hitem
    · rcases List.mem_append.1 hitem with hitem | hitem
      · obtain ⟨folder, -, heq⟩ := List.mem_map.1 hitem
        cases heq
      · obtain ⟨file, hfile, heq⟩ := List.mem_map.1 hitem
        cases heq
        exact .inr ⟨file, hfile, rfl⟩
    · rw [errorItems] at hitem
      split at hitem
      · cases hitem
      · cases List.mem_singleton.1 hitem
        exact .inl rfl

/-- Where features lie in `lib/features`, the imports of the files of a feature name these files. -/
theorem Config.libraryPath_file (hfeatures : config.featuresPath = ("lib/features" : Text))
    (hname : FeatureName name) {row : List Text} {relative : Text} (h : Path.Relative relative row) :
    config.libraryPath ("features/" ++ name ++ "/" ++ relative) =
      (config.featurePath name).join relative := by
  have hstart : Text.startsWith ("lib/" ++ ("features/" ++ name ++ "/" ++ relative)) "/" = false :=
    rfl
  have hsplit : ("lib/" ++ ("features/" ++ name ++ "/" ++ relative) : Text) =
      (("lib/features" : Text) ++ '/' :: name) ++ '/' :: relative := by
    simp only [List.append_assoc]
    rfl
  have hlib : Text.startsWith ("lib/features" : Text) "/" = false := by decide
  rw [Config.libraryPath, Config.featurePath, hfeatures, Path.join_of_relative hstart, hsplit,
    Path.join_of_relative h.relative, Path.join_of_relative hname.relative.relative,
    Path.join_of_relative hlib, Path.names_append_slash, Path.names_append_slash]
  simp only [List.append_assoc]

/-- The errors that a full generation ensures are there as a file, unless there is a folder. -/
theorem Tree.holdsFile_or_folder {tree : Tree} {path : Path} (h : tree.has path = .ok true) :
    tree.HoldsFile path ∨ tree.Holds (.folder path) := by
  obtain ⟨hfind, hsome⟩ := Tree.has_eq_true_iff.1 h
  obtain ⟨entry, hentry⟩ := Option.isSome_iff_exists.1 hsome
  cases entry with
  | folder => exact .inr ⟨hfind, hentry⟩
  | file content => exact .inl ⟨hfind, content, hentry⟩

/-- A run on a feature that is not there, or that is overwritten, generates it in full. -/
theorem generateFull_of_generate {layers : Layers} {action : ExistsAction}
    (hfull : config.featureExists name desk.tree = .ok false ∨ action = .overwrite)
    (hrun : (generate config project name endpoints layers action).runOn desk =
      (.ok outcome, desk')) :
    (generateFull config project name endpoints layers).runOn desk = (.ok outcome, desk') := by
  rcases (generate_eq_ok hrun).2 with ⟨-, hrun⟩ | ⟨⟨hexists, hact⟩, -⟩ | ⟨⟨hexists, hact⟩, -⟩
  · exact hrun
  · exact absurd hfull (by simp [hexists, hact])
  · exact absurd hfull (by simp [hexists, hact])

theorem featureName_of_generate {layers : Layers} {action : ExistsAction}
    (hrun : (generate config project name endpoints layers action).runOn desk =
      (.ok outcome, desk')) : FeatureName name :=
  .of_isFeatureName (Config.isFeatureName_of_checkName (checkRun_eq_ok.1 (generate_eq_ok hrun).1).1)

section

variable {action : ExistsAction} (hbreak : '\n' ∉ name)
  (hmethods : ∀ endpoint ∈ endpoints, '/' ∉ endpoint.methodName ∧ '\n' ∉ endpoint.methodName)
  (hfull : config.featureExists name desk.tree = .ok false ∨ action = .overwrite)
  (hrun : (generate config project name endpoints {} action).runOn desk = (.ok outcome, desk'))

include hbreak hmethods hfull hrun

/-- Wherever the features lie, a full generation leaves all that is imported from the feature in the
feature's folder. -/
theorem import_leads (hwrote : outcome.Wrote (config.featurePath name) desk.tree desk'.tree place)
    (htext : desk'.tree.get? place = some (.file (.text text))) (hp : IsGeneratedPath p)
    (himports : Imports text (libraryImport project p)) :
    p = ("core/error/error.dart" : Text) ∧ desk'.tree.has config.errorUnionPath = .ok true ∨
      ∃ file row, p = "features/" ++ name ++ "/" ++ file ∧ Path.Relative file row ∧
        desk'.tree.HoldsFile ((config.featurePath name).join file) := by
  have hname := featureName_of_generate hrun
  have hslash := fun endpoint hendpoint => (hmethods endpoint hendpoint).1
  obtain ⟨target, middle, htarget, -, hmakes, herrors, hhas, hreport⟩ :=
    generateFull_makes hname hslash (generateFull_of_generate hfull hrun)
  have hplaced : Placed target.feature endpoints := .of_target hname hslash htarget
  obtain ⟨hasModels, -, rfl⟩ := Config.target_eq_ok_iff.1 htarget
  have hall := hmakes.append_errors hplaced herrors
  have hunbroken : Feature.Unbroken ⟨project, name, modelFolderFor hasModels⟩ endpoints := by
    have himport := himports.unbroken
    unfold libraryImport at himport
    simp only [List.mem_append, not_or] at himport
    exact ⟨himport.1.1.2, hbreak, hplaced.folder, fun endpoint hendpoint =>
      (hmethods endpoint hendpoint).2⟩
  have hleads : p = ("core/error/error.dart" : Text) ∨
      ∃ file ∈ featureFiles ⟨project, name, modelFolderFor hasModels⟩ endpoints {},
        p = "features/" ++ name ++ "/" ++ file.1 := by
    rcases text_of_wrote hall hreport hwrote htext with rfl | ⟨file, hfile, rfl⟩
    · refine eq_of_imports hunbroken opensWith_errorUnionFile
        (List.forall_mem_singleton.2 (.foreignPackage _ freezedImport_mem)) himports hp
    · obtain ⟨paths, hopens, huses⟩ := opensWith_of_mem_featureFiles hfile
      exact eq_of_imports hunbroken hopens huses himports hp
  rcases hleads with hcore | ⟨file, hfile, hpath⟩
  · exact .inl ⟨hcore, hhas⟩
  · obtain ⟨folder, last, hsited⟩ := sited_of_mem_featureFiles hplaced hfile
    have hholds := hall.holds (.file ((config.featurePath name).join file.1) file.2)
      (List.mem_append_left _ (List.mem_append_right _ (List.mem_map.2 ⟨file, hfile, rfl⟩)))
    exact .inr ⟨file.1, _, hpath, hsited.relative, hholds.holdsFile⟩

end

/-- Where features lie in `lib/features`, every import of a written file from the project's own
features and core names a file of the project after a full generation. A folder that stands in place
of the errors shared by all features is left there. -/
theorem imports_name_files {action : ExistsAction}
    (hfeatures : config.featuresPath = ("lib/features" : Text)) (hbreak : '\n' ∉ name)
    (hmethods : ∀ endpoint ∈ endpoints, '/' ∉ endpoint.methodName ∧ '\n' ∉ endpoint.methodName)
    (hfull : config.featureExists name desk.tree = .ok false ∨ action = .overwrite)
    (hrun : (generate config project name endpoints {} action).runOn desk = (.ok outcome, desk')) :
    ∀ place text, outcome.Wrote (config.featurePath name) desk.tree desk'.tree place →
      desk'.tree.get? place = some (.file (.text text)) →
      ∀ p, IsGeneratedPath p → Imports text (libraryImport project p) →
        desk'.tree.HoldsFile (config.libraryPath p) ∨
          config.libraryPath p = config.errorUnionPath ∧
            desk'.tree.Holds (.folder config.errorUnionPath) := by
  intro place text hwrote htext p hp himports
  rcases import_leads hbreak hmethods hfull hrun hwrote htext hp himports with
    ⟨rfl, hhas⟩ | ⟨file, row, rfl, hrelative, hholds⟩
  · have herrors : config.libraryPath "core/error/error.dart" = config.errorUnionPath := rfl
    rw [herrors]
    exact (Tree.holdsFile_or_folder hhas).imp_right fun hfolder => ⟨rfl, hfolder⟩
  · rw [Config.libraryPath_file hfeatures (featureName_of_generate hrun) hrelative]
    exact .inl hholds

/-- An operation with a body, which has a model. -/
def articleEndpoint : Endpoint where
  path := "/articles"
  method := "post"
  operationId := some "create"
  body := some {}

theorem imports_name_files_article :
    let run := (generate {} "shop" "news" [articleEndpoint]).runOn ⟨{}, []⟩
    returns run = true ∧
      run.2.tree.HoldsFile
        (Config.libraryPath {} "features/news/data/model/create_request.dart") := by
  intro run
  have hreturns : returns run = true := by decide +kernel
  obtain ⟨outcome, desk', hrun⟩ := exists_of_returns hreturns
  have htext : run.2.tree.get?
      ["lib", "features", "news", "data", "remote", "service", "news_service.dart"] =
        some (.file (.text (ClassFile.service.render ⟨"shop", "news", "model"⟩
          [articleEndpoint]))) := by
    decide +kernel
  rw [hrun] at htext ⊢
  refine ⟨rfl, ?_⟩
  have hnames := imports_name_files (show ({} : Config).featuresPath = _ from rfl) (by decide)
    (List.forall_mem_singleton.2 (by decide)) (.inl rfl) hrun _ _ (.inr (by rw [htext]; decide))
    htext
  rcases hnames "features/news/data/model/create_request.dart" (by decide) (by decide +kernel) with
    hholds | ⟨hsame, -⟩
  · exact hholds
  · exact absurd hsame (by decide)

/-- In an empty project, a full generation of the feature writes a file with an import from the
project's own features that names no file. -/
def Config.MissesImport (config : Config) (name : Text) : Prop :=
  let run := (generate config "shop" name [articleEndpoint]).runOn ⟨{}, []⟩
  returns run = true ∧ ∃ text p,
    run.2.tree.get? ((config.featurePath name).join (ClassFile.service.path name)).resolve =
        some (.file (.text text)) ∧
      Imports text (libraryImport "shop" p) ∧ IsGeneratedPath p ∧
      ¬ run.2.tree.HoldsFile (config.libraryPath p)

/-- The service file imports a model, so it is enough that the model is not where the import says. -/
theorem Config.MissesImport.of_model
    (h : let run := (generate config "shop" name [articleEndpoint]).runOn ⟨{}, []⟩
      let service := ClassFile.service.render ⟨"shop", name, "model"⟩ [articleEndpoint]
      let model := "features/" ++ name ++ "/data/model/create_request.dart"
      returns run = true ∧
        run.2.tree.get? ((config.featurePath name).join (ClassFile.service.path name)).resolve =
          some (.file (.text service)) ∧
        Imports service (libraryImport "shop" model) ∧
        run.2.tree.get? (config.libraryPath model).resolve = none) :
    config.MissesImport name := by
  obtain ⟨hreturns, htext, himports, hnone⟩ := h
  refine ⟨hreturns, _, _, htext, himports, .inl rfl, fun hholds => ?_⟩
  obtain ⟨content, hcontent⟩ := hholds.get
  rw [hnone] at hcontent
  cases hcontent

/-- Where features lie elsewhere, the imports of their files name no files. -/
theorem import_misses_file :
    Config.MissesImport { featuresPath := "lib/modules" } "news" ∧
      Config.MissesImport { featuresPath := "lib/features/data" } "data" :=
  ⟨.of_model (by decide +kernel), .of_model (by decide +kernel)⟩

end Scaffold
