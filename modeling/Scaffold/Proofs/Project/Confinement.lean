import Scaffold.Proofs.Endpoint.Extracted
import Scaffold.Proofs.Project.Start
import Scaffold.Proofs.Project.Steps

/-!
# Where runs write

The names of files come from the operation ids and paths of a document. Paths are cut at slashes, so
without an operation id that has one no file is named by more than one name, and a run writes below
the folder of its feature (`writes_below_feature`). An operation id with a slash leads elsewhere
(`writes_beside_feature`).
-/

namespace Scaffold

variable {config : Config} {project name : Text} {endpoints : List Endpoint} {layers : Layers}
  {feature : Feature} {target : Target} {path : Text}

/-! ## Names without slashes -/

/-- The name of a method has a slash only if the operation id has one. -/
theorem Endpoint.Regular.noSlash_methodName {endpoint : Endpoint} (h : endpoint.Regular)
    (hid : ∀ id, endpoint.operationId = some id → '/' ∉ id) : '/' ∉ endpoint.methodName := by
  have hpath : '/' ∉ endpoint.pathMethodName := by
    have hverbs : ∀ verb ∈ supportedVerbs, '/' ∉ verb.lower ∧ '/' ∉ (verbWord? verb.lower).getD [] := by
      decide +kernel
    obtain ⟨hverb, hword⟩ := hverbs _ h.method_mem
    rw [Endpoint.pathMethodName]
    split
    · exact hverb
    · next segment hlast =>
      have hsegment : '/' ∉ segment :=
        Text.not_mem_of_mem_splitOn (List.mem_of_mem_filter (List.mem_of_getLast? hlast))
      split
      · next word hfound =>
        rw [hfound] at hword
        exact List.not_mem_append hword fun hmem =>
          hsegment (Text.mem_of_mem_pascal (by decide) (by decide) hmem)
      · exact fun hmem => hsegment (Text.mem_of_mem_camel (by decide) (by decide) hmem)
  rw [Endpoint.methodName]
  split
  · next c rest hsome =>
    exact fun hmem => hid _ hsome (Text.mem_of_mem_camel (by decide) (by decide) hmem)
  · exact hpath

/-! ## Paths below the feature -/

/-- The path leads to a place below the folder at `base` once every `..` has been followed. -/
def Path.LeadsBelow (base : Path) (relative : Text) : Prop :=
  ∃ row, row ≠ [] ∧ (base.join relative).resolve = base.resolve ++ row

/-- The folders of a feature lie at relative paths. -/
theorem relative_of_mem_featureFolders (hfolder : IsModelFolder feature.modelFolder)
    (h : path ∈ featureFolders feature layers) : ∃ row, row ≠ [] ∧ Path.Relative path row := by
  rw [featureFolders, List.mem_append, List.mem_append] at h
  rcases h with (h | h) | h
  · have h := (ite_sublist _ _).subset h
    rw [dataFolders, List.mem_cons] at h
    rcases h with rfl | h
    · exact ⟨_, by simp, relative_modelFolder hfolder⟩
    · repeat rw [String.toList_ofList] at h
      simp only [List.mem_cons, List.not_mem_nil, or_false] at h
      rcases h with rfl | rfl | rfl
      · exact ⟨["data", "remote", "service"], by decide, by decide⟩
      · exact ⟨["data", "remote", "source"], by decide, by decide⟩
      · exact ⟨["data", "repository"], by decide, by decide⟩
  · have h := (ite_sublist _ _).subset h
    simp only [domainFolders, List.mem_cons, List.not_mem_nil, or_false] at h
    rcases h with rfl | rfl
    · exact ⟨["domain", "repository"], by decide, by decide⟩
    · exact ⟨["domain", "usecase"], by decide, by decide⟩
  · rw [List.mem_singleton.1 ((ite_sublist _ _).subset h)]
    exact ⟨["presentation", "widget"], by decide, relative_widgetFolder⟩

/-- The files of a feature lie at relative paths. -/
theorem relative_of_mem_featureFiles {file : FeatureFile} (hplaced : Placed feature endpoints)
    (h : file ∈ featureFiles feature endpoints layers) :
    ∃ row, row ≠ [] ∧ Path.Relative file.1 row := by
  obtain ⟨folder, last, hsited⟩ := sited_of_mem_featureFiles hplaced h
  exact ⟨folder ++ [last], by simp, hsited.relative⟩

/-- Whatever a feature has lies at a relative path. -/
theorem relative_of_mem_paths (hplaced : Placed feature endpoints)
    (h : path ∈ feature.paths endpoints layers) : ∃ row, row ≠ [] ∧ Path.Relative path row := by
  rcases List.mem_append.1 h with h | h
  · exact relative_of_mem_featureFolders hplaced.folder h
  · obtain ⟨file, hfile, rfl⟩ := List.mem_map.1 h
    exact relative_of_mem_featureFiles hplaced hfile

/-- Whatever a feature has lies below its folder. -/
theorem leadsBelow_of_mem_paths (hplaced : Placed feature endpoints)
    (h : path ∈ feature.paths endpoints layers) (base : Path) : base.LeadsBelow path := by
  obtain ⟨row, hne, hrel⟩ := relative_of_mem_paths hplaced h
  exact ⟨row, hne, Path.resolve_join hrel⟩

/-! ## What is reported -/

section

open Work

variable {paths : List Text} {admitted : List Endpoint}

/-- A report names no other paths than the given ones. -/
def Report.Names (paths : List Text) (report : Report) : Prop := report.written ⊆ paths

/-- Several reports name what each of them names. -/
theorem Report.names_concat {reports : List Report} (h : ∀ report ∈ reports, report.Names paths) :
    (Report.concat reports).Names paths := by
  intro path hpath
  obtain ⟨report, hreport, hmem⟩ := List.mem_flatMap.1 hpath
  exact h report hreport hmem

/-- The empty report names nothing. -/
theorem Report.names_nil : Report.Names paths {} := List.nil_subset paths

/-- Extending a file reports that file at most. -/
theorem appendPart_answers (part : Part) :
    (appendPart target part).Answers (Report.Names [part.path]) := by
  refine .bind fun known => ?_
  split
  · exact .bind fun _ => .pure (List.Subset.refl _)
  · refine .bind fun content => ?_
    split
    · exact .bind fun _ => .pure Report.names_nil
    · split
      · exact .bind fun _ => .pure Report.names_nil
      · exact .bind fun _ => .bind fun _ => .pure (List.Subset.refl _)

/-- Adding a model reports its file at most. -/
theorem appendModel_answers (file : FeatureFile) :
    (appendModel target file).Answers (Report.Names [file.1]) := by
  refine .bind fun known => ?_
  split
  · exact .pure Report.names_nil
  · exact .bind fun _ => .pure (List.Subset.refl _)

/-- Adding the screen reports its file at most. -/
theorem appendScreen_answers :
    (appendScreen target).Answers (Report.Names [screenPath target.feature.name]) := by
  refine .bind fun known => ?_
  split
  · exact .bind fun _ => .pure Report.names_nil
  · exact .bind fun _ => .pure (List.Subset.refl _)

/-- Extending files reports those files at most. -/
theorem appendParts_answers {parts : List Part} (h : ∀ slot ∈ parts.map Part.slot, slot.path ∈ paths) :
    (appendParts target parts).Answers (Report.Names paths) := by
  refine .bind_of (.mapM fun part _ => appendPart_answers part) fun reports hreports =>
    .pure (Report.names_concat fun report hreport path hpath => ?_)
  obtain ⟨part, hpart, hnames⟩ := hreports report hreport
  rw [List.mem_singleton.1 (hnames hpath)]
  exact h part.slot (List.mem_map_of_mem hpart)

/-- What is left out reports nothing. -/
theorem ite_answers {condition : Prop} [Decidable condition] {work : Work WorkError Report}
    (h : condition → work.Answers (Report.Names paths)) :
    (if condition then work else pure {} : Work WorkError Report).Answers (Report.Names paths) := by
  split
  · next hcondition => exact h hcondition
  · exact .pure Report.names_nil

/-- Extending the data layer reports its slots at most. -/
theorem appendData_answers
    (h : ∀ slot ∈ dataSlots target.feature endpoints, slot.path ∈ paths) :
    (appendData target endpoints).Answers (Report.Names paths) := by
  refine .bind fun _ => .bind_of (.mapM fun file _ => appendModel_answers file) fun models hmodels =>
    .bind_of (appendParts_answers fun slot hslot => h slot (List.mem_append_right _ hslot))
      fun parts hparts => .pure (Report.names_concat fun report hreport => ?_)
  rcases List.mem_append.1 hreport with hreport | hreport
  · obtain ⟨file, hfile, hnames⟩ := hmodels report hreport
    intro path hpath
    rw [List.mem_singleton.1 (hnames hpath)]
    exact h (onceSlot file) (List.mem_append_left _ (List.mem_map_of_mem hfile))
  · rw [List.mem_singleton.1 hreport]
    exact hparts

/-- Extending the presentation layer reports its slots at most. -/
theorem appendPresentation_answers {components : Components}
    (h : ∀ slot ∈ presentationSlots target.feature endpoints components, slot.path ∈ paths) :
    (appendPresentation target endpoints components).Answers (Report.Names paths) := by
  rw [presentationSlots, List.append_assoc] at h
  have hbloc : (if components.bloc then appendParts target [eventPart target.feature endpoints,
      statePart target.feature endpoints, blocPart target.feature endpoints]
      else pure {} : Work WorkError Report).Answers (Report.Names paths) := by
    refine ite_answers fun hbloc => appendParts_answers fun slot hslot => ?_
    refine h slot (List.mem_append_left _ ?_)
    rwa [if_pos hbloc]
  have hscreen : (if components.screens then appendScreen target
      else pure {} : Work WorkError Report).Answers (Report.Names paths) := by
    refine ite_answers fun hscreens => appendScreen_answers.mono fun report hreport path hpath => ?_
    rw [List.mem_singleton.1 (hreport hpath)]
    refine h (onceSlot (screenPath target.feature.name, renderScreen target.feature))
      (List.mem_append_right _ (List.mem_append_left _ ?_))
    rw [if_pos hscreens]
    exact List.mem_singleton.2 rfl
  rw [appendPresentation_eq]
  refine .bind_of hbloc fun bloc hbloc => .bind_of hscreen fun screen hscreen =>
    .bind fun _ => .pure (Report.names_concat ?_)
  simp [hbloc, hscreen]

/-- Extending the layers reports their slots at most. -/
theorem appendLayers_answers
    (h : ∀ slot ∈ appendSlots target.feature endpoints layers, slot.path ∈ paths) :
    (appendLayers target endpoints layers).Answers (Report.Names paths) := by
  rw [appendSlots, List.append_assoc] at h
  have hdata : (if layers.data then appendData target endpoints
      else pure {} : Work WorkError Report).Answers (Report.Names paths) := by
    refine ite_answers fun hdata => appendData_answers fun slot hslot => ?_
    refine h slot (List.mem_append_left _ ?_)
    rwa [if_pos hdata]
  have hdomain : (if layers.domain then appendParts target (domainParts target.feature endpoints)
      else pure {} : Work WorkError Report).Answers (Report.Names paths) := by
    refine ite_answers fun hdomain => appendParts_answers fun slot hslot => ?_
    refine h slot (List.mem_append_right _ (List.mem_append_left _ ?_))
    rwa [if_pos hdomain]
  have hpresentation : (if layers.presentation then
      appendPresentation target endpoints layers.components
      else pure {} : Work WorkError Report).Answers (Report.Names paths) := by
    refine ite_answers fun hpresentation => appendPresentation_answers fun slot hslot => ?_
    refine h slot (List.mem_append_right _ (List.mem_append_right _ ?_))
    rwa [if_pos hpresentation]
  rw [appendLayers_eq]
  refine .bind_of hdata fun data hdata => .bind_of hdomain fun domain hdomain =>
    .bind_of hpresentation fun presentation hpresentation => .pure (Report.names_concat ?_)
  simp [hdata, hdomain, hpresentation]

/-- The files that a run reports lie below the folder. -/
def Outcome.StaysBelow (base : Path) (outcome : Outcome) : Prop :=
  ∀ path ∈ outcome.filesWritten, base.LeadsBelow path

variable (hname : FeatureName name) (hmethods : ∀ endpoint ∈ endpoints, '/' ∉ endpoint.methodName)

include hname hmethods

/-- Writing a whole feature reports files below its folder. -/
theorem generateFull_staysBelow :
    (generateFull config project name endpoints layers).Answers
      (Outcome.StaysBelow (config.featurePath name)) := by
  refine .ask_bind fun tree target htarget => .bind fun _ => ?_
  have hfiles : ∀ path ∈ (featureFiles target.feature endpoints layers).map (·.1),
      (config.featurePath name).LeadsBelow path := fun path hpath =>
    leadsBelow_of_mem_paths (.of_target hname hmethods htarget) (List.mem_append_right _ hpath) _
  have hwrite : ∀ next : PUnit → Work WorkError Outcome,
      (∀ answer, (next answer).Answers (Outcome.StaysBelow (config.featurePath name))) →
      (if layers.data then checkModels endpoints >>= next else next ()).Answers
        (Outcome.StaysBelow (config.featurePath name)) := by
    intro next hnext
    split
    · exact .bind hnext
    · exact hnext ()
  exact hwrite _ fun _ => .bind fun _ => .bind fun _ => .bind fun _ => .bind fun _ => .pure hfiles

/-- Adding to a feature reports files below its folder. -/
theorem generateAppend_staysBelow :
    (generateAppend config project name endpoints layers).Answers
      (Outcome.StaysBelow (config.featurePath name)) := by
  refine .ask_bind fun tree target htarget => .bind fun content => .bind fun _ => ?_
  dsimp only
  split
  · exact .bind fun _ => .pure fun path hpath => nomatch hpath
  · have hlayers : (appendLayers target (admission (ClassFile.service.path name) content
        endpoints).admitted layers).Answers (Report.Names (target.feature.paths endpoints layers)) :=
      appendLayers_answers fun slot hslot => mem_paths_of_slot (fun endpoint => mem_of_admitted) hslot
    exact .bind fun _ => .bind_of hlayers fun report hreport => .bind fun _ => .bind fun _ =>
      .pure fun path hpath =>
        leadsBelow_of_mem_paths (.of_target hname hmethods htarget) (hreport hpath) _

/-- A generation reports files below the folder of the feature. -/
theorem generate_staysBelow {action : ExistsAction} :
    (generate config project name endpoints layers action).Answers
      (Outcome.StaysBelow (config.featurePath name)) := by
  unfold generate
  split
  · exact fun _ _ hanswer => nomatch hanswer
  · refine .bind fun known => ?_
    split
    · exact (generateFull_staysBelow hname hmethods).adapt _
    · cases action with
      | cancel => exact .bind fun _ => .pure fun path hpath => nomatch hpath
      | append => exact (generateAppend_staysBelow hname hmethods).adapt _
      | overwrite => exact (generateFull_staysBelow hname hmethods).adapt _

end

/-! ## What is written -/

/-- Two trees differ below the folder of the feature, at the errors shared by all features, and by
folders that have been made on the way to both. -/
def Config.Spares (config : Config) (name : Text) (tree other : Tree) : Prop :=
  ∀ place, ¬ (config.featurePath name).resolve <+: place → place ≠ config.errorUnionPath.resolve →
    other.get? place = tree.get? place ∨
      tree.get? place = none ∧ other.get? place = some .folder ∧
        place ∈ (config.featurePath name).passed ++ config.errorUnionPath.passed

namespace Config

/-- The places where a run for the feature may write. -/
def reach (config : Config) (name : Text) : Reach where
  folders path := (config.featurePath name).resolve <+: path.resolve ∨
    path.resolve = config.errorUnionPath.resolve ∨
    path.resolve ∈ (config.featurePath name).passed ++ config.errorUnionPath.passed
  texts path := (config.featurePath name).resolve <+: path.resolve ∨
    path.resolve = config.errorUnionPath.resolve

/-- The error union may be written. -/
theorem reach_includes_errorUnion (config : Config) (name : Text) :
    (config.reach name).Includes config.errorUnionPath where
  way first hfirst := by
    obtain ⟨rest, hrest⟩ := hfirst
    have hplace := Path.places_subset_append first rest (Path.resolve_mem_places first)
    rw [hrest] at hplace
    rcases List.mem_append.1 hplace with hplace | hplace
    · exact .inr (.inr (List.mem_append_right _ hplace))
    · exact .inr (.inl (List.mem_singleton.1 hplace))
  text := .inr rfl

/-- What lies at a relative path of the feature may be written. -/
theorem reach_includes_of_relative {row : List Text} (h : Path.Relative path row) :
    (config.reach name).Includes ((config.featurePath name).join path) where
  way first hfirst := by
    obtain ⟨rest, hrest⟩ := hfirst
    have hplace := Path.places_subset_append first rest (Path.resolve_mem_places first)
    rw [hrest] at hplace
    -- a place on the way leads to the feature's folder or lies below it
    rcases Path.mem_places_of_relative h hplace with hplace | ⟨below, -, hplace⟩
    · exact .inr (.inr (List.mem_append_left _ hplace))
    · exact .inl ⟨below, hplace.symm⟩
  text := .inl ⟨row, (Path.resolve_join h).symm⟩

/-- Doing nothing spares everything. -/
theorem Spares.refl (config : Config) (name : Text) (tree : Tree) : config.Spares name tree tree :=
  fun _ _ _ => .inl rfl

variable {tree other : Tree}

/-- Making a folder within reach, where nothing is yet, spares the rest. -/
theorem Spares.put_folder (h : config.Spares name tree other) {path : Path}
    (hreach : (config.reach name).folders path) (hget : other.get? path.resolve = none) :
    config.Spares name tree (other.put path.resolve .folder) := by
  intro place hbelow herror
  by_cases hplace : place = path.resolve
  · subst hplace
    have hway := (hreach.resolve_left hbelow).resolve_left herror
    have hne : path.resolve ≠ [] := by
      intro hnil
      rw [hnil] at hget
      cases hget
    rcases h _ hbelow herror with hsame | ⟨-, hfolder, -⟩
    · exact .inr ⟨hsame ▸ hget, Tree.get?_put_self hne, hway⟩
    · rw [hget] at hfolder
      cases hfolder
  · rw [Tree.get?_put_of_ne hplace]
    exact h place hbelow herror

/-- Writing a text within reach spares the rest. -/
theorem Spares.put_text (h : config.Spares name tree other) {path : Path}
    (hreach : (config.reach name).texts path) (entry : Entry) :
    config.Spares name tree (other.put path.resolve entry) := by
  intro place hbelow herror
  have hplace : place ≠ path.resolve := by
    rintro rfl
    exact hreach.elim hbelow herror
  rw [Tree.get?_put_of_ne hplace]
  exact h place hbelow herror

/-- Each step within reach spares the rest of the tree. -/
theorem law_spares (config : Config) (name : Text) (tree : Tree) :
    Work.Law (fun work => work.Keeps (config.Spares name tree)) (config.reach name) :=
  Work.Keeps.law
    (fun _ hreach => .makeLast fun _ hspares _ hget => hspares.put_folder hreach hget)
    fun _ _ hreach => .writeText fun _ hspares => hspares.put_text hreach _

end Config

/-- Where no operation id has a slash, every file of a feature and every file that a run reports lies
below the feature's folder, and a run changes nothing else but folders on the way and the errors
shared by all features. A model is named by its folder and one more name. -/
theorem writes_below_feature {document : Value} {catalog : Catalog} {selection : Selection}
    (hcatalog : Catalog.ofDocument document = .ok catalog)
    (hselected : catalog.select selection = .ok endpoints) (hname : isFeatureName name = true)
    (hids : ∀ endpoint ∈ endpoints, ∀ id, endpoint.operationId = some id → '/' ∉ id) :
    (∀ tree target, config.target project name tree = .ok target →
      (∀ file ∈ featureFiles target.feature endpoints layers,
        (config.featurePath name).LeadsBelow file.1) ∧
      ∀ file ∈ modelFiles target.feature.modelFolder endpoints, ∃ last, '/' ∉ last ∧
        file.1 = modelFolderPath target.feature.modelFolder ++ "/" ++ last) ∧
    ∀ action desk,
      (∀ outcome, ((generate config project name endpoints layers action).runOn desk).1 =
        .ok outcome → outcome.StaysBelow (config.featurePath name)) ∧
      config.Spares name desk.tree
        ((generate config project name endpoints layers action).runOn desk).2.tree := by
  have hname := FeatureName.of_isFeatureName hname
  have hmethods : ∀ endpoint ∈ endpoints, '/' ∉ endpoint.methodName := fun endpoint hendpoint =>
    (Extracted.regular ⟨document, catalog, hcatalog,
      Catalog.mem_of_select hselected hendpoint⟩).noSlash_methodName (hids endpoint hendpoint)
  refine ⟨fun tree target htarget => ⟨fun file hfile => ?_, fun file hfile => ?_⟩,
    fun action desk => ⟨generate_staysBelow hname hmethods desk, ?_⟩⟩
  · obtain ⟨row, hne, hrel⟩ := relative_of_mem_featureFiles (.of_target hname hmethods htarget) hfile
    exact ⟨row, hne, Path.resolve_join hrel⟩
  · obtain ⟨endpoint, hendpoint, model, hmodel, hpath⟩ := exists_of_mem_modelFiles hfile
    have hslash := noSlash_of_mem_requiredModels (hmethods endpoint hendpoint) hmodel
    exact ⟨modelFile model, (isName_modelFile hslash).noSlash, hpath⟩
  · refine (config.law_spares name desk.tree).generate (fun htarget path hpath => ?_)
      (config.reach_includes_errorUnion name) action desk (.refl config name desk.tree)
    obtain ⟨row, -, hrel⟩ := relative_of_mem_paths (.of_target hname hmethods htarget) hpath
    rw [Target.path, (Config.name_of_target htarget).2]
    exact Config.reach_includes_of_relative hrel

/-- A document with one operation, which has a body. -/
def ordersDocument (id : Text) : Value :=
  .map [(.text "paths", .map [(.text "/orders", .map [(.text "post", .map [
    (.text "operationId", .scalar (.text id)), (.text "requestBody", .map [])])])])]

/-- The operation of the document. -/
def ordersEndpoint (id : Text) : Endpoint :=
  { path := "/orders", method := "post", operationId := some id, body := some {} }

/-- An operation without a slash in its name, generated into an empty project. -/
theorem writes_below_feature_orders :
    (∀ file ∈ featureFiles ⟨"shop", "news", "model"⟩ [ordersEndpoint "placeOrder"] {},
      Path.LeadsBelow ["lib", "features", "news"] file.1) ∧
    Config.Spares {} "news" {}
      ((generate {} "shop" "news" [ordersEndpoint "placeOrder"]).runOn ⟨{}, []⟩).2.tree := by
  have hcatalog : Catalog.ofDocument (ordersDocument "placeOrder") =
      .ok (Catalog.ofEndpoints [(ordersEndpoint "placeOrder", ["default"])]) := rfl
  obtain ⟨hfiles, hruns⟩ := @writes_below_feature {} "shop" "news" [ordersEndpoint "placeOrder"] {}
    _ _ .all hcatalog rfl (by decide) (by decide)
  exact ⟨(hfiles {} _ rfl).1, (hruns .append ⟨{}, []⟩).2⟩

/-- The operation id of a document may lead out of the feature's folder. -/
theorem writes_beside_feature : ∃ catalog endpoints,
    Catalog.ofDocument (ordersDocument "../../../orders") = .ok catalog ∧
      catalog.select .all = .ok endpoints ∧
      ∃ file ∈ featureFiles ⟨"shop", "news", "model"⟩ endpoints {},
        file ∈ modelFiles "model" endpoints ∧
        file.1 = "data/model/../../../orders_request.dart" ∧
        ¬ (Config.featurePath {} "news").LeadsBelow file.1 := by
  refine ⟨Catalog.ofEndpoints [(ordersEndpoint "../../../orders", ["default"])],
    [ordersEndpoint "../../../orders"], rfl, rfl, _, List.mem_cons_self, List.mem_cons_self, by decide, ?_⟩
  rintro ⟨row, hne, hrow⟩
  have hplace : (Path.join (Config.featurePath {} "news")
      (modelPath "model" (ordersEndpoint "../../../orders").requestModel)).resolve =
      ["lib", "features", "orders_request.dart"] := by decide
  have hbase : (Config.featurePath {} "news").resolve = ["lib", "features", "news"] := by decide
  rw [hbase] at hrow
  have hthird := congrArg (·[2]?) (hplace.symm.trans hrow)
  exact absurd hthird (by simp)

end Scaffold
