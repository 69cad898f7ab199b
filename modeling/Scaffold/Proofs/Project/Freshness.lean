import Scaffold.Proofs.Patch.BlocVocabulary
import Scaffold.Proofs.Patch.NewMembers
import Scaffold.Proofs.Project.Detection
import Scaffold.Proofs.Project.ImportTargets
import Scaffold.Proofs.Project.Surroundings

/-!
# Fresh endpoints

An endpoint whose names are unclaimed comes into every file of a feature that has been generated in
full (`generate_takes`). An endpoint that has a key and a method name of its own may be left out all
the same, because the name of an argument in front of a comma passes for a member
(`not_generate_takes`).
-/

namespace Scaffold

variable {config : Config} {target : Target} {project name : Text} {known endpoints : List Endpoint}
  {layers : Layers} {endpoint : Endpoint} {tree : Tree} {desk desk' : Desk} {outcome : Outcome}
  {path text content : Text} {file : FeatureFile}

/-! ## Features that have been generated in full -/

/-- What a full generation of all layers for endpoints has made is there. -/
structure Config.Standing (config : Config) (target : Target) (known : List Endpoint) (tree : Tree) :
    Prop where
  sound : tree.Sound
  found : config.target target.feature.project target.feature.name tree = .ok target
  holds : ∀ item ∈ target.fullItems known {}, tree.Holds item
  errors : tree.has config.errorUnionPath = .ok true

/-- All source files belong to all layers. -/
theorem SourceFile.mem_sourceFiles (source : SourceFile) : source ∈ ({} : Layers).sourceFiles := by
  cases source with
  | ofClass file => cases file <;> decide
  | _ => decide

/-- Where all that is made is there, so is the feature's folder. -/
theorem Target.holds_folder (h : ∀ item ∈ target.fullItems known {}, tree.Holds item) :
    tree.Holds (.folder target.folder) := by
  have hwidgets := h (.folder (target.path widgetFolder))
    (mem_fullItems.2 (.inl ⟨widgetFolder, by simp [featureFolders], rfl⟩))
  have hfind := hwidgets.find
  rw [Item.place, Item.path, Target.path,
    Path.join_of_relative relative_widgetFolder.relative] at hfind
  exact Tree.holds_of_find (by decide) hfind

/-- A full generation of all layers, of a feature that may be there already. -/
theorem Config.Standing.of_generateFull (hsound : desk.tree.Sound)
    (hroot : desk.tree.Holds (.folder config.root))
    (hplain : upName ∉ Path.names config.featuresPath) (hname : FeatureName name)
    (hmethods : ∀ endpoint ∈ known, '/' ∉ endpoint.methodName)
    (htarget : config.target project name desk.tree = .ok target)
    (hrun : (generateFull config project name known {}).runOn desk = (.ok outcome, desk')) :
    config.Standing target known desk'.tree := by
  obtain ⟨target', middle, htarget', -, hmakes, herrors, hhas, -⟩ :=
    generateFull_makes hname hmethods hrun
  obtain rfl : target = target' := Except.ok.inj (htarget.symm.trans htarget')
  have hplaced : Placed target.feature known := .of_target hname hmethods htarget
  have hall := hmakes.append_errors hplaced herrors
  have hholds : ∀ item ∈ target.fullItems known {}, desk'.tree.Holds item :=
    fun item hitem => hall.holds item (List.mem_append_left _ hitem)
  have hfits : (config.featurePath name).Fits := by
    rw [← (Config.name_of_target htarget).2]
    exact (Target.holds_folder hholds).fits
  obtain ⟨hasModels, -, heq⟩ := Config.target_eq_ok_iff.1 htarget
  have hfound : config.target project name desk'.tree = .ok target := by
    by_cases hget : desk.tree.get? (config.featurePath name).resolve = some .folder
    · have hready : Ready target desk.tree := by
        refine ⟨hsound, ?_⟩
        rw [(Config.name_of_target htarget).2]
        exact Config.holds_featurePath hsound hroot hplain hname hfits hget
      exact Config.target_eq_of_makes hplaced hready hroot htarget hmakes herrors
    · have hitems : (config.freshTarget project name).fullItems known {} ≠ [] :=
        List.append_ne_nil_of_left_ne_nil (by simp [Target.folderItems, featureFolders]) _
      obtain ⟨hbegins, hfresh, -, hgrown⟩ :=
        generateFull_first ⟨hsound, hroot, hplain, hget⟩ hname hmethods hitems hrun
      obtain rfl : target = config.freshTarget project name :=
        Except.ok.inj (htarget.symm.trans hfresh)
      obtain ⟨_, hmodels, -⟩ := Config.target_eq_ok_iff.1 htarget
      exact hgrown.target_eq_of_models hbegins (Config.fits_modelsPath hfits hmodels)
  refine ⟨hall.sound hsound, ?_, hholds, hhas⟩
  rwa [heq] at hfound ⊢

/-- A file that is left alone is so whatever stands at its place. -/
theorem Slot.allows_of_there {third : Tree} {entry : Entry}
    (hfind : third.find (target.path file.1) = .ok (target.path file.1).resolve)
    (hget : tree.get? (target.path file.1).resolve = some entry) :
    (onceSlot file).Allows target tree third := by
  refine ⟨hfind, ?_⟩
  have hplace : tree.get? ((onceSlot file).place target) = some entry := hget
  unfold onceSlot at hplace ⊢
  dsimp only
  rw [hplace]
  split
  · next heq => cases heq
  · trivial
  · rfl

namespace Config.Standing

variable (h : config.Standing target known tree)

include h

theorem holds_source (source : SourceFile) : tree.Holds (target.sourceItem known source) :=
  h.holds _ (mem_fullItems.2 (.inr (.inl ⟨source, source.mem_sourceFiles, rfl⟩)))

theorem holds_folder {folder : Text} (hmem : folder ∈ featureFolders target.feature {}) :
    tree.Holds (.folder (target.path folder)) :=
  h.holds _ (mem_fullItems.2 (.inl ⟨folder, hmem, rfl⟩))

/-- The feature's folder is there. -/
theorem folder : tree.Holds (.folder (config.featurePath target.feature.name)) :=
  (Config.name_of_target h.found).2 ▸ Target.holds_folder h.holds

theorem readService (hfeature : target.feature.Plain) (hfed : ∀ other ∈ known, other.Fed) :
    target.readService tree = .ok (ClassFile.service.render target.feature known) := by
  have hfull := (SourceFile.ofClass .service).fed_full hfeature.toFed hfed
  rw [target.readService_of_holds (h.holds_source (.ofClass .service)),
    universalNewlines_of_not_mem hfull.no_return]
  rfl

/-- The way to a model of another endpoint is open. -/
theorem find_model (hplaced : Placed target.feature [endpoint])
    (hfits : ∀ model ∈ endpoint.requiredModels,
      (target.path (modelPath target.feature.modelFolder model)).Fits)
    (hfile : file ∈ modelFiles target.feature.modelFolder [endpoint]) :
    tree.find (target.path file.1) = .ok (target.path file.1).resolve := by
  have hfitsFile : (target.path file.1).Fits := by
    obtain ⟨other, hother, model, hmodel, hpath⟩ := exists_of_mem_modelFiles hfile
    obtain rfl := List.mem_singleton.1 hother
    exact hpath ▸ hfits model hmodel
  obtain ⟨model, -, hrel⟩ := relative_of_mem_models hplaced hfile
  have hparent := relative_modelFolder hplaced.folder
  have hpath : target.path file.1 =
      target.path (modelFolderPath target.feature.modelFolder) ++ [modelFile model] := by
    rw [Target.path, Target.path, Path.join_of_relative hrel.relative, hrel.names,
      Path.join_of_relative hparent.relative, hparent.names, List.append_assoc]
    rfl
  have hfolder : tree.Holds (.folder (target.path (modelFolderPath target.feature.modelFolder))) :=
    h.holds_folder (by simp [featureFolders, dataFolders])
  refine Tree.find_eq_ok_iff.2 ⟨hfitsFile, fun place hplace => ?_, rfl⟩
  rw [hpath, Path.passed_concat] at hplace
  rcases List.mem_append.1 hplace with hplace | hplace
  · exact hfolder.passed _ hplace
  · rw [List.mem_singleton.1 hplace]
    exact hfolder.get

/-- Above the tree there is one that has the models of another endpoint that are missing. -/
theorem exists_above_models (hplaced : Placed target.feature [endpoint])
    (hfits : ∀ model ∈ endpoint.requiredModels,
      (target.path (modelPath target.feature.modelFolder model)).Fits) :
    ∃ third, tree.Below third ∧ ∀ file ∈ modelFiles target.feature.modelFolder [endpoint],
      tree.get? (target.path file.1).resolve = none → third.HoldsFile (target.path file.1) := by
  let items := ((modelFiles target.feature.modelFolder [endpoint]).filter fun file =>
    (tree.get? (target.path file.1).resolve).isNone).map fun file =>
      Item.file (target.path file.1) file.2
  have hitems : ∀ item ∈ items, tree.find item.path = .ok item.place ∧
      tree.get? item.place = none ∧ ∃ path text, item = .file path text := by
    intro item hitem
    obtain ⟨file, hfile, rfl⟩ := List.mem_map.1 hitem
    obtain ⟨hmem, hnone⟩ := List.mem_filter.1 hfile
    exact ⟨h.find_model hplaced hfits hmem, Option.isNone_iff_eq_none.1 hnone, _, _, rfl⟩
  have hways : ∀ item ∈ items, item.path.Fits ∧
      ∀ place ∈ item.path.passed, tree.get? place = some .folder := by
    intro item hitem
    obtain ⟨hfits, hpassed, -⟩ := Tree.find_eq_ok_iff.1 (hitems item hitem).1
    exact ⟨hfits, hpassed⟩
  obtain ⟨third, hbelow, hlike⟩ : ∃ third, tree.Below third ∧ ∀ item ∈ items, third.HasLike item := by
    refine Tree.exists_above (fun item hitem => ?_) (fun item hitem => ?_)
      fun item hitem hnone other hother => ?_
    · exact ⟨(hways item hitem).1, fun place hplace => .inr ((hways item hitem).2 place hplace)⟩
    · obtain ⟨-, hnone, path, text, rfl⟩ := hitems item hitem
      exact fun hfolder => absurd (hnone.symm.trans hfolder) nofun
    · obtain ⟨-, -, path, text, rfl⟩ := hitems item hitem
      obtain ⟨-, -, path', text', rfl⟩ := hitems other hother
      refine ⟨fun _ hway => ?_, fun _ => iff_of_false nofun nofun⟩
      exact absurd (hnone.symm.trans ((hways _ hother).2 _ hway)) nofun
  refine ⟨third, hbelow, fun file hfile hnone => hlike _ (List.mem_map.2 ⟨file, ?_, rfl⟩)⟩
  exact List.mem_filter.2 ⟨hfile, Option.isNone_iff_eq_none.2 hnone⟩

/-- Above the tree there is one that allows the slots of one more endpoint. -/
theorem exists_above (hplaced : Placed target.feature [endpoint])
    (hfits : ∀ model ∈ endpoint.requiredModels,
      (target.path (modelPath target.feature.modelFolder model)).Fits) :
    ∃ third, tree.Below third ∧
      ∀ slot ∈ appendSlots target.feature [endpoint] {}, slot.Allows target tree third := by
  obtain ⟨third, hbelow, hmodels⟩ := h.exists_above_models hplaced hfits
  refine ⟨third, hbelow, fun slot hslot => ?_⟩
  rcases mem_appendSlots.1 hslot with hslot | hslot | hslot
  · obtain ⟨part, hpart, rfl⟩ := List.mem_map.1 hslot
    obtain ⟨source, -, rfl⟩ := mem_extendedParts.1 hpart
    have hheld := h.holds_source source
    rw [Target.sourceItem, ← source.part_path target.feature [endpoint]] at hheld
    exact Slot.allows_of_text (hbelow.find hheld.find) hheld.get
  · obtain ⟨file, hfile, rfl⟩ := List.mem_map.1 hslot
    rcases List.mem_append.1 hfile with hmodel | hscreen
    · cases hget : tree.get? (target.path file.1).resolve with
      | none => exact Slot.allows_once (hmodels file hmodel hget)
      | some entry =>
          exact Slot.allows_of_there (hbelow.find (h.find_model hplaced hfits hmodel)) hget
    · have hheld := h.holds (.file (target.path file.1) file.2)
        (mem_fullItems.2 (.inr (.inr ⟨file, List.mem_append_right _ hscreen, rfl⟩)))
      exact Slot.allows_once (hbelow.holdsFile hheld.holdsFile)
  · obtain ⟨folder, hfolder, rfl⟩ := List.mem_map.1 hslot
    have hheld := hbelow.holds_folder (h.holds_folder (List.mem_append_right _ hfolder))
    exact ⟨hheld.find, hheld.get⟩

end Config.Standing

/-! ## One more endpoint -/

/-- An endpoint that the service file does not annotate is taken in if it has no member there. -/
theorem admission_singleton (service : Text) (hkey : endpoint.key ∉ annotatedKeys content)
    (hmember : hasMember content endpoint.methodName = false) :
    admission service content [endpoint] = ⟨[endpoint], []⟩ := by
  have hfresh : [endpoint].filter (fun endpoint => !(annotatedKeys content).contains endpoint.key) =
      [endpoint] := by
    simp [hkey]
  rw [admission, hfresh, List.foldl_cons, List.foldl_nil, consider, nameOwner?, hmember]
  rfl

theorem SourceFile.Takes.ne {source : SourceFile} {feature : Feature} {result : Text}
    (h : source.Takes feature known endpoint result) : result ≠ (source.part feature known).full := by
  rintro rfl
  exact absurd (h.has.symm.trans h.lacked) nofun

/-- An endpoint comes into every file of a feature that has been generated in full, if no file has
its member. -/
theorem Config.Standing.takes (h : config.Standing target known desk.tree)
    (hname : FeatureName target.feature.name) (hfeature : target.feature.Plain)
    (hknown : ∀ other ∈ known, other.Named ∧ '\r' ∉ other.path) (hne : known ≠ [])
    (hnamed : endpoint.Named)
    (hkey : endpoint.key ∉ annotatedKeys (ClassFile.service.render target.feature known))
    (hlacks : ∀ source : SourceFile, hasMember (source.part target.feature known).full
      (source.memberName endpoint) = false)
    (hshowable : endpoint.hasShowableModels = true)
    (hfits : ∀ model ∈ endpoint.requiredModels,
      (target.path (modelPath target.feature.modelFolder model)).Fits) :
    ∃ outcome desk', (generateAppend config target.feature.project target.feature.name [endpoint]
        {}).runOn desk = (.ok outcome, desk') ∧
      outcome.newEndpoints = [endpoint.describe] ∧ outcome.warnings = [] ∧
      ∀ source : SourceFile, ∃ text,
        desk'.tree.Holds (.file (target.path (source.path target.feature.name)) text) ∧
        source.Takes target.feature known endpoint text := by
  have hfed : ∀ other ∈ known, other.Fed := fun other hother =>
    (hknown other hother).1.toPlain.toFed (hknown other hother).2
  have hslash : ∀ other ∈ [endpoint], '/' ∉ other.methodName :=
    List.forall_mem_singleton.2 (hnamed.methodName.consists.not_mem (by decide))
  have hplaced : Placed target.feature [endpoint] := .of_target hname hslash h.found
  have hcontent := h.readService hfeature hfed
  have hadmission : target.admission (ClassFile.service.render target.feature known) [endpoint] =
      ⟨[endpoint], []⟩ := admission_singleton _ hkey (hlacks (.ofClass .service))
  -- what becomes of each file
  have hfiles : ∀ source : SourceFile, ∃ result, (source.part target.feature [endpoint]).extend
      (universalNewlines (source.part target.feature known).full) = .ok result ∧
      source.Takes target.feature known endpoint result := by
    intro source
    rw [universalNewlines_of_not_mem (source.fed_full hfeature.toFed hfed).no_return]
    exact source.exists_takes hfeature
      (fun other hother => ⟨(hknown other hother).1.toPlain, (hknown other hother).1.methodName_ne⟩)
      hne hnamed.toPlain hnamed.methodName_ne (hlacks source)
  have hget : ∀ source : SourceFile, desk.tree.get?
      (target.path (source.part target.feature [endpoint]).path).resolve =
        some (.file (.text (source.part target.feature known).full)) := by
    intro source
    rw [source.part_path]
    exact (h.holds_source source).get
  obtain ⟨third, hbelow, hallows⟩ := h.exists_above hplaced hfits
  obtain ⟨outcome, desk', hrun⟩ := generateAppend_runOn hname hslash h.sound h.folder h.found
    hcontent (by rw [hadmission]; exact List.cons_ne_nil _ _) hbelow
    (fun _ => by rw [hadmission]; simpa using hshowable) (by rw [hadmission]; exact hallows)
    fun middle hmiddle => .inl (hmiddle.below.has h.errors)
  obtain ⟨target', content', htarget, hread, ⟨-, hnew⟩, hcases⟩ :=
    generateAppend_makes hname hslash h.sound h.folder hrun
  obtain rfl : target = target' := Except.ok.inj (h.found.symm.trans htarget)
  obtain rfl := Except.ok.inj (hcontent.symm.trans hread)
  rw [hadmission] at hnew hcases
  obtain ⟨hempty, -⟩ | ⟨-, ⟨middle, hextended⟩, -, hwarnings⟩ := hcases
  · cases hempty
  refine ⟨outcome, desk', hrun, hnew, ?_, fun source => ?_⟩
  · rw [hwarnings, List.nil_append, List.filterMap_eq_nil_iff]
    intro part hpart
    obtain ⟨source, -, rfl⟩ := mem_extendedParts.1 hpart
    obtain ⟨result, hextend, -⟩ := hfiles source
    rw [Part.warningIn?, Part.settleIn, Tree.textAt?_of_get (hget source), Part.settle, hextend]
    dsimp only
    split <;> rfl
  · obtain ⟨result, hextend, htakes⟩ := hfiles source
    refine ⟨result, ?_, htakes⟩
    refine (hextended.makes h.errors).holds _ (List.mem_filterMap.2
      ⟨(source.part target.feature [endpoint]).slot, ?_, ?_⟩)
    · exact slot_mem_appendSlots (mem_extendedParts.2 ⟨source, source.mem_sourceFiles, rfl⟩)
    · show ((source.part target.feature [endpoint]).slot.text? (desk.tree.get?
        (target.path (source.part target.feature [endpoint]).path).resolve)).map
          (Item.file (target.path (source.part target.feature [endpoint]).path)) = _
      rw [hget source]
      show ((source.part target.feature [endpoint]).update (universalNewlines _)).map _ = _
      rw [Part.update, hextend]
      dsimp only
      rw [universalNewlines_of_not_mem (source.fed_full hfeature.toFed hfed).no_return,
        if_neg htakes.ne, source.part_path]
      rfl

/-! ## Runs -/

/-- A run generates a feature in full, with all layers, in a project where the path of the features
does not go up. The feature may be there before. -/
structure FullRun (config : Config) (project name : Text) (target : Target) (known : List Endpoint)
    (desk desk' : Desk) : Prop where
  sound : desk.tree.Sound
  root : desk.tree.Holds (.folder config.root)
  plain : upName ∉ Path.names config.featuresPath
  ofProject : AsciiWordy project
  word : AsciiWordy name
  found : config.target project name desk.tree = .ok target
  run : ∃ action outcome,
    (config.featureExists name desk.tree = .ok false ∨ action = .overwrite) ∧
    (generate config project name known {} action).runOn desk = (.ok outcome, desk')

/-- Behind a full generation with all layers, a run on an endpoint with a key and a method name of
its own returns, reports it without a warning, and adds its member to every file that has members,
as long as its names are unclaimed and its models can be written. -/
theorem generate_takes {middle : Desk}
    (hfull : FullRun config project name target known desk middle)
    (hknown : ∀ other ∈ known, other.Named ∧ '"' ∉ other.path ∧ '\r' ∉ other.path)
    (hnamed : endpoint.Named)
    (hfresh : ∀ other ∈ known, other.key ≠ endpoint.key ∧ other.methodName ≠ endpoint.methodName)
    (hunclaimed : Unclaimed known endpoint) (hshowable : endpoint.hasShowableModels = true)
    (hfits : ∀ model ∈ endpoint.requiredModels,
      (target.path (modelPath target.feature.modelFolder model)).Fits) :
    ∃ outcome last, (generate config project name [endpoint] {} .append).runOn middle =
        (.ok outcome, last) ∧
      outcome.newEndpoints = [endpoint.describe] ∧ outcome.warnings = [] ∧
      ∀ source : SourceFile, middle.tree.Holds (target.sourceItem known source) ∧
        ∃ text, last.tree.Holds (.file (target.path (source.path name)) text) ∧
          source.Takes target.feature known endpoint text := by
  obtain ⟨action, first, hexists, hrun⟩ := hfull.run
  obtain ⟨hchecked, hany, hne⟩ := checkRun_eq_ok.1 (generate_eq_ok hrun).1
  have hvalid := Config.isFeatureName_of_checkName hchecked
  have hname := FeatureName.of_isFeatureName hvalid
  have hstanding : config.Standing target known middle.tree :=
    .of_generateFull hfull.sound hfull.root hfull.plain hname
      (fun other hother => (hknown other hother).1.methodName.consists.not_mem (by decide))
      hfull.found (generateFull_of_generate hexists hrun)
  have hfeature := Config.plain_of_target hfull.ofProject hfull.word hfull.found
  obtain ⟨hasModels, -, rfl⟩ := Config.target_eq_ok_iff.1 hfull.found
  have hkey : endpoint.key ∉ annotatedKeys
      (ClassFile.service.render (config.targetWith project name (modelFolderFor hasModels)).feature
        known) := by
    intro hmem
    obtain ⟨other, hother, heq⟩ := List.mem_map.1 (annotatedKeys_render_subset hfeature
      (fun other hother => ⟨(hknown other hother).1.toPlain, (hknown other hother).2.1⟩) hmem)
    exact (hfresh other hother).1 heq
  have hlacks := fun source : SourceFile => source.not_hasMember_full hfeature
    (isTitled_pascal hvalid) (fun other hother => (hknown other hother).1) hnamed
    (fun other hother => (hfresh other hother).2) hunclaimed
  obtain ⟨outcome, last, happend, hnew, hwarnings, hfiles⟩ := hstanding.takes hname hfeature
    (fun other hother => ⟨(hknown other hother).1, (hknown other hother).2.2⟩) hne hnamed hkey
    hlacks hshowable hfits
  have hcheck := checkRun_eq_ok.2 ⟨hchecked, hany, List.cons_ne_nil endpoint []⟩
  exact ⟨outcome, last, generate_of_present hcheck hstanding.folder.hasFolder happend, hnew,
    hwarnings, fun source => ⟨hstanding.holds_source source, hfiles source⟩⟩

/-- An operation on users with two parameters, and one on a path that is named like the first of
them. -/
def searchDocument : Value :=
  .map [(.text "paths", .map [
    (.text "/users", .map [(.text "get", .map [(.text "parameters", .list [
      .map [(.text "name", .text "search"), (.text "in", .text "query")],
      .map [(.text "name", .text "page"), (.text "in", .text "query")]])])]),
    (.text "/search", .map [(.text "get", .map [(.text "operationId", .text "search")])])])]

/-- Users, page by page. -/
def pagedEndpoint : Endpoint where
  path := "/users"
  method := "get"
  parameters := [⟨"search", "query", false, "String", none⟩, ⟨"page", "query", false, "String", none⟩]

/-- A search in everything. -/
def searchEndpoint : Endpoint where
  path := "/search"
  method := "get"
  operationId := some "search"

theorem extracted_search : ∀ endpoint ∈ [pagedEndpoint, searchEndpoint], Extracted endpoint :=
  fun _ hmem => ⟨searchDocument, _, rfl, hmem⟩

theorem named_paged : pagedEndpoint.Named where
  method_mem := by decide
  type_mem := by decide
  methodName := by decide
  parameterName := by decide
  methodName_ne := by decide
  argument_ne := by decide

theorem named_search : searchEndpoint.Named where
  method_mem := by decide
  type_mem := by decide
  methodName := by decide
  parameterName := by decide
  methodName_ne := by decide
  argument_ne := by decide

theorem named_item : itemEndpoint.Named where
  toPlain := itemEndpoint_detectable.toPlain
  methodName_ne := by decide
  argument_ne := by decide

/-- What a run reports as new, and its warnings, if it returns. -/
def reported? (answer : Except RunError Outcome × Desk) : Option (List Text × List Text) :=
  answer.1.toOption.map fun outcome => (outcome.newEndpoints, outcome.warnings)

/-- The warning about an endpoint whose method name is found in the service file. -/
def searchSkipped : Text :=
  "Skipped GET /search: method name search is already used by data/remote/service/news_service.dart"

theorem search_runs :
    returns ((generate {} "shop" "news" [pagedEndpoint]).runOn ⟨{}, []⟩) = true ∧
      reported? ((generate {} "shop" "news" [searchEndpoint]).runOn
        ((generate {} "shop" "news" [pagedEndpoint]).runOn ⟨{}, []⟩).2) =
          some ([], [searchSkipped]) := by
  decide +kernel

/-- The users are generated in an empty project. -/
theorem fullRun_paged : ∃ outcome middle, (generate {} "shop" "news" [pagedEndpoint]).runOn
    ⟨{}, []⟩ = (.ok outcome, middle) ∧
    FullRun {} "shop" "news" (Config.freshTarget {} "shop" "news") [pagedEndpoint] ⟨{}, []⟩ middle := by
  obtain ⟨outcome, middle, hrun⟩ := exists_of_returns search_runs.1
  exact ⟨outcome, middle, hrun, lacks_news.sound, lacks_news.root, lacks_news.plain, by decide,
    by decide, rfl, .append, outcome, .inl rfl, hrun⟩

/-- Items come in beside the users. -/
theorem generate_takes_items : ∃ middle outcome last,
    FullRun {} "shop" "news" (Config.freshTarget {} "shop" "news") [pagedEndpoint] ⟨{}, []⟩ middle ∧
      Unclaimed [pagedEndpoint] itemEndpoint ∧
      (generate {} "shop" "news" [itemEndpoint]).runOn middle = (.ok outcome, last) ∧
      outcome.newEndpoints = [itemEndpoint.describe] ∧ outcome.warnings = [] := by
  obtain ⟨-, middle, -, hfull⟩ := fullRun_paged
  have hunclaimed : Unclaimed [pagedEndpoint] itemEndpoint :=
    ⟨by decide, by decide, by decide, by decide +kernel⟩
  obtain ⟨outcome, last, hrun, hnew, hwarnings, -⟩ := generate_takes hfull
    (List.forall_mem_singleton.2 ⟨named_paged, by decide, by decide⟩) named_item (by decide)
    hunclaimed (by decide) (by decide +kernel)
  exact ⟨middle, outcome, last, hfull, hunclaimed, hrun, hnew, hwarnings⟩

/-- The search is left out: a parameter of the users' method is named like it. -/
theorem not_generate_takes :
    (∀ endpoint ∈ [pagedEndpoint, searchEndpoint], Extracted endpoint ∧ endpoint.Named) ∧
      pagedEndpoint.key ≠ searchEndpoint.key ∧
      pagedEndpoint.methodName ≠ searchEndpoint.methodName ∧
      ∃ middle outcome last,
        FullRun {} "shop" "news" (Config.freshTarget {} "shop" "news") [pagedEndpoint] ⟨{}, []⟩
          middle ∧
        (generate {} "shop" "news" [searchEndpoint]).runOn middle = (.ok outcome, last) ∧
        outcome.newEndpoints = [] ∧ outcome.warnings = [searchSkipped] := by
  refine ⟨fun endpoint hmem => ⟨extracted_search endpoint hmem, ?_⟩, by decide, by decide, ?_⟩
  · revert endpoint
    exact List.forall_mem_cons.2 ⟨named_paged, List.forall_mem_singleton.2 named_search⟩
  · obtain ⟨first, middle, hfirst, hfull⟩ := fullRun_paged
    have hreported := search_runs.2
    rw [hfirst] at hreported
    obtain ⟨outcome, houtcome, heq⟩ := Option.map_eq_some_iff.1 hreported
    refine ⟨middle, outcome, _, hfull, Prod.ext (toOption_eq_some_iff.1 houtcome) rfl, ?_⟩
    exact Prod.mk.inj heq

end Scaffold
