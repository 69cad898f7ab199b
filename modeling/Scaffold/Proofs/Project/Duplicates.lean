import Scaffold.Proofs.Patch.Declarations
import Scaffold.Proofs.Project.Start
import Scaffold.Proofs.Project.Steps
import Scaffold.Proofs.Text.Newlines

/-!
# Members without duplicates

No file of a feature declares a name twice, whatever runs have made it, if the endpoints have
different method names wherever the feature is generated in full
(`SourceFile.nodup_declared_generateAll`). Extending a feature leaves out an endpoint whose method
name is taken; generating one in full does not (`SourceFile.not_nodup_declared`).
-/

namespace Scaffold

/-- What one run is asked for. -/
structure RunRequest where
  endpoints : List Endpoint
  layers : Layers := {}
  action : ExistsAction := .append

/-- What one run leaves, whether it returns or not. -/
def RunRequest.runOn (config : Config) (project name : Text) (request : RunRequest) (desk : Desk) : Desk :=
  ((generate config project name request.endpoints request.layers request.action).runOn desk).2

/-- What several runs leave one after the other. -/
def generateAll (config : Config) (project name : Text) (requests : List RunRequest) (desk : Desk) :
    Desk :=
  requests.foldl (fun desk request => request.runOn config project name desk) desk

/-- Whether a run generates the feature in full: it is not there, or is to be overwritten. -/
def RunRequest.IsFull (config : Config) (name : Text) (request : RunRequest) (tree : Tree) : Prop :=
  config.featureExists name tree = .ok false ∨
    config.featureExists name tree = .ok true ∧ request.action = .overwrite

/-- Wherever the feature is generated in full, the method names of its endpoints differ. -/
def DistinctInFull (config : Config) (project name : Text) : List RunRequest → Desk → Prop
  | [], _ => True
  | request :: requests, desk =>
    (request.IsFull config name desk.tree → (request.endpoints.map (·.methodName)).Nodup) ∧
      DistinctInFull config project name requests (request.runOn config project name desk)

variable {config : Config} {project name : Text} {endpoints : List Endpoint} {layers : Layers}
  {tree : Tree} {target : Target} {source : SourceFile} {kind : MemberKind} {text : Text}

/-! ## Places -/

/-- The place of a file of the feature. -/
def Config.sourcePlace (config : Config) (name : Text) (source : SourceFile) : Path :=
  (config.featurePath name).resolve ++ source.row name

/-- Each file of the feature that is there declares no name twice. -/
def Config.Tidy (config : Config) (name : Text) (tree : Tree) : Prop :=
  ∀ source : SourceFile, tree.Bears source.Tidy (config.sourcePlace name source)

/-- Where the feature is not there, none of its files is. -/
theorem Config.Tidy.of_absent (hsound : tree.Sound)
    (habsent : tree.get? (config.featurePath name).resolve ≠ some .folder) :
    config.Tidy name tree := by
  intro source content hget
  have hrow : source.row name ≠ [] := by simp [SourceFile.row]
  exact absurd (hsound.folder_of_append hrow hget) habsent

theorem Config.Tidy.put_folder (h : config.Tidy name tree) (place : Path) :
    config.Tidy name (tree.put place .folder) :=
  fun source => (h source).put_folder place

/-- A text at the place of no file of the feature, or of one whose text it may be. -/
theorem Config.Tidy.put_text (h : config.Tidy name tree) {place : Path}
    (htext : ∀ source, place = config.sourcePlace name source → source.Tidy text) :
    config.Tidy name (tree.put place (.file (.text text))) :=
  fun source => (h source).put_text (htext source)

/-- A target of the feature whose names break no line. -/
structure Config.Aims (config : Config) (name : Text) (target : Target) : Prop where
  named : target.feature.name = name
  folder : target.folder = config.featurePath name
  models : IsModelFolder target.feature.modelFolder
  lined : target.feature.Lined

theorem Config.aims_of_target (hname : isFeatureName name = true)
    (hproject : Consists isLineChar project) (h : config.target project name tree = .ok target) :
    config.Aims name target := by
  obtain ⟨hasModels, -, rfl⟩ := Config.target_eq_ok_iff.1 h
  refine ⟨rfl, rfl, isModelFolder_modelFolderFor hasModels, hproject, hname, ?_⟩
  show AsciiWordy (modelFolderFor hasModels)
  cases hasModels <;> decide

namespace Config.Aims

theorem featureName (h : config.Aims name target) : FeatureName target.feature.name :=
  .of_isFeatureName h.lined.name

theorem place (h : config.Aims name target) {path : Text} {row : List Text}
    (hrel : Path.Relative path row) :
    (target.path path).resolve = (config.featurePath name).resolve ++ row := by
  rw [Target.path, Path.resolve_join hrel, h.folder]

theorem place_part (h : config.Aims name target) (source : SourceFile) (endpoints : List Endpoint) :
    (target.path (source.part target.feature endpoints).path).resolve =
      config.sourcePlace name source := by
  rw [source.part_path, h.place (source.relative h.featureName), h.named]
  rfl

end Config.Aims

/-! ## Steps -/

theorem keeps_writeFile {path : Path}
    (htext : ∀ source, path.resolve = config.sourcePlace name source → source.Tidy text) :
    (writeFile path text).Keeps (config.Tidy name) :=
  .bind (.makeFolders (fun _ place h => h.put_folder place) _) fun _ =>
    .writeText fun _ h => h.put_text htext

theorem keeps_createFile {file : FeatureFile}
    (htext : ∀ source, (target.path file.1).resolve = config.sourcePlace name source →
      source.Tidy file.2) : (createFile target file).Keeps (config.Tidy name) :=
  .bind (keeps_writeFile htext) fun _ => .say _

/-- The errors shared by all features are none of the feature's files. -/
theorem keeps_ensureErrorUnion : (ensureErrorUnion config).Keeps (config.Tidy name) := by
  refine .bind (.ask _) fun known => ?_
  split
  · refine .bind (keeps_writeFile fun source hplace => ?_) fun _ => .say _
    rw [config.errorUnionPath_eq, Path.resolve_append, Path.foldl_enter_of_plain errorRow_plain]
      at hplace
    have hlast := congrArg List.getLast? hplace
    rw [List.getLast?_append, Config.sourcePlace, SourceFile.row, ← List.append_assoc,
      List.getLast?_concat] at hlast
    have herror : ("error.dart" : Text) = name ++ source.ending := Option.some.inj hlast
    have hbar : '_' ∈ name ++ source.ending := List.mem_append_right _ source.ending_shape.2.2
    rw [← herror] at hbar
    exact absurd hbar (by decide)
  · exact .pure _

section

variable (haims : config.Aims name target)

include haims

theorem keeps_createModel (hlined : ∀ endpoint ∈ endpoints, endpoint.Lined) {file : FeatureFile}
    (hfile : file ∈ modelFiles target.feature.modelFolder endpoints) :
    (createFile target file).Keeps (config.Tidy name) := by
  have hplaced : Placed target.feature endpoints :=
    ⟨haims.featureName, haims.models, fun endpoint hendpoint => (hlined endpoint hendpoint).name.noSlash⟩
  obtain ⟨model, -, hrel⟩ := relative_of_mem_models hplaced hfile
  refine keeps_createFile fun source hplace => ?_
  rw [haims.place hrel] at hplace
  exact absurd (List.append_cancel_left hplace).symm (source.row_ne_modelRow haims.models)

theorem keeps_createScreen :
    (createFile target (screenPath target.feature.name, renderScreen target.feature)).Keeps
      (config.Tidy name) := by
  refine keeps_createFile fun source hplace => ?_
  rw [haims.place (relative_screen haims.featureName), haims.named] at hplace
  exact absurd (List.append_cancel_left hplace).symm source.row_ne_screenRow

/-- A text that the file of a source may have. -/
theorem tidy_at_part {source : SourceFile} (htext : source.Tidy text) (other : SourceFile)
    (hplace : (target.path (source.part target.feature endpoints).path).resolve =
      config.sourcePlace name other) : other.Tidy text := by
  rw [haims.place_part] at hplace
  rwa [← SourceFile.row_injective (List.append_cancel_left hplace)]

theorem keeps_createPart (hlined : ∀ endpoint ∈ endpoints, endpoint.Lined) (hne : endpoints ≠ [])
    (hnames : (endpoints.map (·.methodName)).Nodup) (source : SourceFile) :
    (createFile target ((source.part target.feature endpoints).path,
      (source.part target.feature endpoints).full)).Keeps (config.Tidy name) :=
  keeps_createFile fun other hplace =>
    tidy_at_part haims (source.tidy_full haims.lined hlined hne hnames) other hplace

/-- Extending a file keeps all files without duplicates. -/
theorem keeps_appendPart (hlined : ∀ endpoint ∈ endpoints, endpoint.Lined) (hne : endpoints ≠ [])
    (hnames : (endpoints.map (·.methodName)).Nodup) (source : SourceFile) :
    (appendPart target (source.part target.feature endpoints)).Keeps (config.Tidy name) := by
  refine .bind (.ask _) fun known => ?_
  split
  · exact .bind (keeps_createPart haims hlined hne hnames source) fun _ => .pure _
  · refine .readText_bind fun tree content htidy hread => ?_
    obtain ⟨stored, -, hget, rfl⟩ := readText_eq_ok hread
    have hplace := haims.place_part source endpoints
    rw [hplace] at hget
    obtain ⟨_, hstored, hcontent⟩ := htidy source _ hget
    cases hstored
    rw [universalNewlines_of_not_mem hcontent.fed.no_return]
    split
    · exact .bind (.warn _) fun _ => .pure _
    · next updated hupdated =>
      split
      · exact .bind (.say _) fun _ => .pure _
      · refine .bind (keeps_writeFile fun other hother => ?_) fun _ => .bind (.say _) fun _ => .pure _
        exact tidy_at_part haims (hcontent.extend haims.lined hlined hnames hupdated) other hother

theorem keeps_appendParts (hlined : ∀ endpoint ∈ endpoints, endpoint.Lined) (hne : endpoints ≠ [])
    (hnames : (endpoints.map (·.methodName)).Nodup) (sources : List SourceFile) :
    (appendParts target (sources.map (·.part target.feature endpoints))).Keeps
      (config.Tidy name) := by
  refine .bind (.mapM fun part hpart => ?_) fun _ => .pure _
  obtain ⟨source, -, rfl⟩ := List.mem_map.1 hpart
  exact keeps_appendPart haims hlined hne hnames source

theorem keeps_appendData (hlined : ∀ endpoint ∈ endpoints, endpoint.Lined) (hne : endpoints ≠ [])
    (hnames : (endpoints.map (·.methodName)).Nodup) :
    (appendData target endpoints).Keeps (config.Tidy name) := by
  refine .bind .checkModels fun _ => .bind (.mapM fun file hfile => ?_) fun _ =>
    .bind (keeps_appendParts haims hlined hne hnames SourceFile.dataFiles) fun _ => .pure _
  refine .bind (.ask _) fun known => ?_
  split
  · exact .pure _
  · exact .bind (keeps_createModel haims hlined hfile) fun _ => .pure _

theorem keeps_appendPresentation (hlined : ∀ endpoint ∈ endpoints, endpoint.Lined)
    (hne : endpoints ≠ []) (hnames : (endpoints.map (·.methodName)).Nodup)
    (components : Components) :
    (appendPresentation target endpoints components).Keeps (config.Tidy name) := by
  have hbloc : ((if components.bloc then appendParts target [eventPart target.feature endpoints,
      statePart target.feature endpoints, blocPart target.feature endpoints] else pure {} :
      Work WorkError Report)).Keeps (config.Tidy name) := by
    split
    · exact keeps_appendParts haims hlined hne hnames [.event, .state, .bloc]
    · exact .pure _
  have hscreen : ((if components.screens then appendScreen target else pure {} :
      Work WorkError Report)).Keeps (config.Tidy name) := by
    split
    · refine .bind (.ask _) fun known => ?_
      split
      · exact .bind (.say _) fun _ => .pure _
      · exact .bind (keeps_createScreen haims) fun _ => .pure _
    · exact .pure _
  have hwidgets : ((if components.widgets then makeFolders (target.path widgetFolder) else pure () :
      Work WorkError Unit)).Keeps (config.Tidy name) := by
    split
    · exact .makeFolders (fun _ place h => h.put_folder place) _
    · exact .pure _
  rw [appendPresentation_eq]
  exact .bind hbloc fun _ => .bind hscreen fun _ => .bind hwidgets fun _ => .pure _

theorem keeps_appendLayers (hlined : ∀ endpoint ∈ endpoints, endpoint.Lined) (hne : endpoints ≠ [])
    (hnames : (endpoints.map (·.methodName)).Nodup) (layers : Layers) :
    (appendLayers target endpoints layers).Keeps (config.Tidy name) := by
  have hif : ∀ {condition : Bool} {work : Work WorkError Report}, work.Keeps (config.Tidy name) →
      ((if condition then work else pure {} : Work WorkError Report)).Keeps (config.Tidy name) := by
    intro condition work h
    split
    · exact h
    · exact .pure _
  rw [appendLayers_eq]
  exact .bind (hif (keeps_appendData haims hlined hne hnames)) fun _ =>
    .bind (hif (keeps_appendParts haims hlined hne hnames SourceFile.domainFiles)) fun _ =>
      .bind (hif (keeps_appendPresentation haims hlined hne hnames _)) fun _ => .pure _

end

/-! ## Runs -/

/-- Generating a feature in full keeps all files without duplicates if the names differ. -/
theorem keeps_generateFull (hname : isFeatureName name = true)
    (hproject : Consists isLineChar project) (hlined : ∀ endpoint ∈ endpoints, endpoint.Lined)
    (hne : endpoints ≠ []) (hnames : (endpoints.map (·.methodName)).Nodup) :
    (generateFull config project name endpoints layers).Keeps (config.Tidy name) := by
  refine .ask_bind fun tree target _ htarget => ?_
  have haims := config.aims_of_target hname hproject htarget
  have hfiles : ∀ file ∈ featureFiles target.feature endpoints layers,
      (createFile target file).Keeps (config.Tidy name) := by
    intro file hfile
    rw [featureFiles_eq, List.mem_append, List.mem_append] at hfile
    rcases hfile with (hfile | hfile) | hfile
    · exact keeps_createModel haims hlined ((ite_sublist _ _).subset hfile)
    · obtain ⟨part, hpart, rfl⟩ := List.mem_map.1 hfile
      obtain ⟨source, -, rfl⟩ := List.mem_map.1 hpart
      exact keeps_createPart haims hlined hne hnames source
    · rw [List.mem_singleton.1 ((ite_sublist _ _).subset hfile)]
      exact keeps_createScreen haims
  have hwrite : ∀ report : Outcome, (do
      (featureFolders target.feature layers).forM fun folder => makeFolders (target.path folder)
      (featureFiles target.feature endpoints layers).forM (createFile target)
      ensureErrorUnion config
      Work.say ("Feature '" ++ name ++ "' generated with " ++ Text.ofNat endpoints.length ++
        " endpoint(s) at " ++ config.location name)
      return report : Work WorkError Outcome).Keeps (config.Tidy name) := fun report =>
    .bind (.forM fun _ _ => .makeFolders (fun _ place h => h.put_folder place) _) fun _ =>
      .bind (.forM hfiles) fun _ => .bind keeps_ensureErrorUnion fun _ =>
        .bind (.say _) fun _ => .pure _
  refine .bind (.say _) fun _ => ?_
  dsimp only
  split
  · exact .bind .checkModels fun _ => hwrite _
  · exact hwrite _

/-- Extending a feature keeps all files without duplicates: of the endpoints with one method name at
most one is admitted. -/
theorem keeps_generateAppend (hname : isFeatureName name = true)
    (hproject : Consists isLineChar project) (hlined : ∀ endpoint ∈ endpoints, endpoint.Lined) :
    (generateAppend config project name endpoints layers).Keeps (config.Tidy name) := by
  refine .ask_bind fun tree target _ htarget => ?_
  have haims := config.aims_of_target hname hproject htarget
  refine .bind (.serviceText target) fun content => ?_
  have hnames := nodup_admitted (ClassFile.service.path name) content endpoints
  have hadmitted : ∀ endpoint ∈ (admission (ClassFile.service.path name) content endpoints).admitted,
      endpoint.Lined := fun endpoint hmem => hlined endpoint (mem_of_admitted hmem)
  dsimp only
  generalize admission (ClassFile.service.path name) content endpoints = admission at hnames hadmitted
  refine .bind (.forM fun _ _ => .warn _) fun _ => ?_
  split
  · exact .bind (.say _) fun _ => .pure _
  · next hsome =>
    have hne : admission.admitted ≠ [] := by simpa using hsome
    exact .bind (.say _) fun _ => .bind (keeps_appendLayers haims hadmitted hne hnames layers) fun _ =>
      .bind keeps_ensureErrorUnion fun _ => .bind (.say _) fun _ => .pure _

/-- One run keeps all files without duplicates. -/
theorem RunRequest.tidy_runOn {request : RunRequest} {desk : Desk}
    (hproject : Consists isLineChar project)
    (hlined : ∀ endpoint ∈ request.endpoints, endpoint.Lined)
    (hfull : request.IsFull config name desk.tree → (request.endpoints.map (·.methodName)).Nodup)
    (h : config.Tidy name desk.tree) :
    config.Tidy name (request.runOn config project name desk).tree := by
  unfold runOn generate
  split
  · exact h
  · next hcheck =>
    obtain ⟨hchecked, -, hne⟩ := checkRun_eq_ok.1 hcheck
    have hname := Config.isFeatureName_of_checkName hchecked
    rw [Work.runOn_bind, Work.runOn_adapt, runOn_ask]
    cases hexists : config.featureExists name desk.tree with
    | error error => exact h
    | ok known =>
        cases known with
        | false =>
            exact (keeps_generateFull hname hproject hlined hne (hfull (.inl hexists))).adapt _ desk h
        | true =>
            show config.Tidy name (Work.runOn _ desk).2.tree
            cases haction : request.action with
            | cancel => exact h
            | append => exact (keeps_generateAppend hname hproject hlined).adapt _ desk h
            | overwrite =>
                exact (keeps_generateFull hname hproject hlined hne
                  (hfull (.inr ⟨hexists, haction⟩))).adapt _ desk h

/-- Several runs keep all files without duplicates. -/
theorem tidy_generateAll {requests : List RunRequest} {desk : Desk}
    (hproject : Consists isLineChar project)
    (hlined : ∀ request ∈ requests, ∀ endpoint ∈ request.endpoints, endpoint.Lined)
    (hfull : DistinctInFull config project name requests desk) (h : config.Tidy name desk.tree) :
    config.Tidy name (generateAll config project name requests desk).tree := by
  induction requests generalizing desk with
  | nil => exact h
  | cons request requests ih =>
      obtain ⟨hfirst, hrest⟩ := hfull
      have hrun := RunRequest.tidy_runOn hproject (hlined request List.mem_cons_self) hfirst h
      exact ih (fun other hother => hlined other (List.mem_cons_of_mem _ hother)) hrest hrun

/-- Whatever runs have made a feature, those that failed included, no file of it declares a name
twice, if the method names differ wherever it was generated in full. -/
theorem SourceFile.nodup_declared_generateAll {requests : List RunRequest} {desk : Desk}
    {content : Content} (hproject : Consists isLineChar project)
    (hlined : ∀ request ∈ requests, ∀ endpoint ∈ request.endpoints, endpoint.Lined)
    (hfull : DistinctInFull config project name requests desk) (hsound : desk.tree.Sound)
    (habsent : desk.tree.get? (config.featurePath name).resolve ≠ some .folder)
    (hkind : kind ∈ source.kinds)
    (hget : (generateAll config project name requests desk).tree.get?
      (config.sourcePlace name source) = some (.file content)) :
    ∃ text, content = .text text ∧ (kind.declared text).Nodup := by
  have hstart := Config.Tidy.of_absent hsound habsent
  obtain ⟨text, rfl, htidy⟩ := tidy_generateAll hproject hlined hfull hstart source content hget
  exact ⟨text, rfl, htidy.nodup hkind⟩

/-! ## Two endpoints with one method name -/

/-- Two operations without an id on paths that end in the same segment. -/
def clashingDocument : Value :=
  .map [(.text "paths", .map [(.text "/users", .map [(.text "get", .map [])]),
    (.text "/admin/users", .map [(.text "get", .map [])])])]

/-- An operation that says nothing. -/
def bareGet (path : Text) : Endpoint where
  path := path
  method := "get"

theorem extracted_bareGet :
    ∀ endpoint ∈ [bareGet "/users", bareGet "/admin/users"], Extracted endpoint :=
  fun _ hmem => ⟨clashingDocument, _, rfl, hmem⟩

theorem lined_bareGet :
    ∀ endpoint ∈ [bareGet "/users", bareGet "/admin/users"], endpoint.Lined := by
  have hlined : ∀ path : Text, IsWord (bareGet path).methodName → Consists isLineChar path →
      (bareGet path).Lined := fun _ hname hpath => ⟨hname, hpath, List.forall_mem_nil _⟩
  rintro endpoint (_ | ⟨_, _ | ⟨_, ⟨⟩⟩⟩)
  · exact hlined _ ⟨by decide, by decide⟩ (by decide)
  · exact hlined _ ⟨by decide, by decide⟩ (by decide)

/-- The service file behind two runs the second of which clashes with the first. -/
theorem SourceFile.nodup_declared_clashingRuns : ∃ text,
    (generateAll {} "shop" "news" [⟨[bareGet "/users"], {}, .append⟩,
      ⟨[bareGet "/admin/users"], {}, .append⟩] ⟨{}, []⟩).tree.get?
        (Config.sourcePlace {} "news" (.ofClass .service)) = some (.file (.text text)) ∧
      (MemberKind.method.declared text).Nodup := by
  have hthere : ((generateAll {} "shop" "news" [⟨[bareGet "/users"], {}, .append⟩,
      ⟨[bareGet "/admin/users"], {}, .append⟩] ⟨{}, []⟩).tree.textAt?
        (Config.sourcePlace {} "news" (.ofClass .service))).any (fun _ => true) = true := by
    decide +kernel
  obtain ⟨text, hget, -⟩ := Tree.exists_of_textAt? hthere
  have hlacks : Config.Lacks {} "news" {} := Config.lacks_of_empty rfl (by decide) (by decide)
  have hlined : ∀ request ∈ [(⟨[bareGet "/users"], {}, .append⟩ : RunRequest),
      ⟨[bareGet "/admin/users"], {}, .append⟩], ∀ endpoint ∈ request.endpoints, endpoint.Lined := by
    rintro request (_ | ⟨_, _ | ⟨_, ⟨⟩⟩⟩) endpoint hmem
    · exact lined_bareGet endpoint (List.mem_cons.2 (.inl (List.mem_singleton.1 hmem)))
    · exact lined_bareGet endpoint (List.mem_cons_of_mem _ hmem)
  obtain ⟨_, hcontent, hnodup⟩ := nodup_declared_generateAll (by decide) hlined
    ⟨fun _ => List.nodup_singleton _, fun _ => List.nodup_singleton _, trivial⟩ hlacks.sound
    hlacks.absent List.mem_cons_self hget
  cases hcontent
  exact ⟨text, hget, hnodup⟩

/-- Generated in full, two endpoints with one method name are declared side by side. -/
theorem SourceFile.not_nodup_declared :
    ¬ ∀ (config : Config) (project name : Text) (requests : List RunRequest) (desk : Desk)
      (source : SourceFile) (kind : MemberKind) (content : Content), Consists isLineChar project →
      (∀ request ∈ requests, ∀ endpoint ∈ request.endpoints, Extracted endpoint ∧ endpoint.Lined) →
      desk.tree.Sound → desk.tree.get? (config.featurePath name).resolve ≠ some .folder →
      kind ∈ source.kinds →
      (generateAll config project name requests desk).tree.get? (config.sourcePlace name source) =
        some (.file content) →
      ∃ text, content = .text text ∧ (kind.declared text).Nodup := by
  intro h
  have htwice : ((generateAll {} "shop" "news"
      [⟨[bareGet "/users", bareGet "/admin/users"], {}, .append⟩] ⟨{}, []⟩).tree.textAt?
        (Config.sourcePlace {} "news" (.ofClass .service))).any
          (fun text => !decide (MemberKind.method.declared text).Nodup) = true := by
    decide +kernel
  obtain ⟨text, hget, htext⟩ := Tree.exists_of_textAt? htwice
  have hlacks : Config.Lacks {} "news" {} := Config.lacks_of_empty rfl (by decide) (by decide)
  obtain ⟨_, hcontent, hnodup⟩ := h {} "shop" "news"
    [⟨[bareGet "/users", bareGet "/admin/users"], {}, .append⟩] ⟨{}, []⟩ (.ofClass .service) .method
    (.text text) (by decide)
    (List.forall_mem_singleton.2 fun endpoint hmem =>
      ⟨extracted_bareGet endpoint hmem, lined_bareGet endpoint hmem⟩)
    hlacks.sound hlacks.absent List.mem_cons_self hget
  cases hcontent
  exact absurd hnodup (by simpa using htext)

end Scaffold
