import Scaffold.Proofs.Patch.Annotations
import Scaffold.Proofs.Project.Duplicates
import Scaffold.Proofs.Project.Independence

/-!
# Endpoints found again

After any sequence of runs that generate the data layer, the endpoints found in the service file are
those that have been reported since the feature was last generated in full, each annotated once
(`existingKeys_recordAll`). Imports go in behind the line of the last import of the file, and that
line may be in an annotation: a path that goes on behind an import is torn apart
(`not_existingKeys_recordAll`).
-/

namespace Scaffold

/-- The desk after some runs, and what they have reported since the last full generation. -/
structure History where
  desk : Desk
  reported : List Text := []

/-- One more run. A run that fails reports nothing. -/
def RunRequest.record (config : Config) (project name : Text) (request : RunRequest)
    (history : History) : History :=
  match (generate config project name request.endpoints request.layers request.action).runOn
    history.desk with
  | (.error _, desk) => { history with desk }
  | (.ok outcome, desk) =>
    let kept := if outcome.isUpdate || outcome.cancelled then history.reported else []
    ⟨desk, kept ++ outcome.newEndpoints⟩

/-- Several more runs, one after the other. -/
def recordAll (config : Config) (project name : Text) (requests : List RunRequest)
    (history : History) : History :=
  requests.foldl (fun history request => request.record config project name history) history

/-- The path of the service file of a feature. -/
def Config.servicePath (config : Config) (name : Text) : Path :=
  (config.featurePath name).join (ClassFile.service.path name)

/-- A run that generates the data layer, with endpoints that are accepted and, as those of every
selection, have different keys. -/
structure RunRequest.Generates (accepts : Endpoint → Prop) (request : RunRequest) : Prop where
  data : request.layers.data = true
  endpoints : ∀ endpoint ∈ request.endpoints, accepts endpoint
  keys : (request.endpoints.map (·.key)).Nodup

/-- A run that fails leaves the service file as it is. -/
def RunRequest.Spares (config : Config) (project name : Text) (request : RunRequest) (desk : Desk) :
    Prop :=
  ∀ error desk', (generate config project name request.endpoints request.layers
      request.action).runOn desk = (.error error, desk') →
    desk'.tree.get? (config.servicePath name).resolve =
      desk.tree.get? (config.servicePath name).resolve

/-- None of several runs fails with the service file changed. -/
def SparesAll (config : Config) (project name : Text) : List RunRequest → History → Prop
  | [], _ => True
  | request :: requests, history => request.Spares config project name history.desk ∧
      SparesAll config project name requests (request.record config project name history)

variable {config : Config} {project name : Text} {endpoints found : List Endpoint} {layers : Layers}
  {desk desk' : Desk} {target : Target} {tree tree' : Tree} {outcome : Outcome} {feature : Feature}
  {front content : Text}

/-! ## Reports -/

/-- A full generation reports all endpoints. -/
theorem generateFull_reports (config : Config) (project name : Text) (endpoints : List Endpoint)
    (layers : Layers) : (generateFull config project name endpoints layers).Answers fun outcome =>
      outcome.isUpdate = false ∧ outcome.cancelled = false ∧
        outcome.newEndpoints = endpoints.map (·.describe) := by
  refine .bind fun target => .bind fun _ => ?_
  dsimp only
  split
  · exact .bind fun _ => .bind fun _ => .bind fun _ => .bind fun _ => .bind fun _ =>
      .pure ⟨rfl, rfl, rfl⟩
  · exact .bind fun _ => .bind fun _ => .bind fun _ => .bind fun _ => .pure ⟨rfl, rfl, rfl⟩

/-! ## Service files -/

/-- The endpoints that have been found are those the service file annotates, each one once. -/
structure Config.Detects (config : Config) (name : Text) (found : List Endpoint) (tree : Tree) :
    Prop where
  sound : tree.Sound
  file : tree.get? (config.servicePath name).resolve = none ∧ found = [] ∨
    ∃ front, tree.Holds (.file (config.servicePath name) (front ++ "\x7d\n")) ∧
      Sheet front (found.map (·.key))
  nodup : (found.map (·.key)).Nodup

theorem Target.servicePath_of_target (h : config.target project name tree = .ok target) :
    target.servicePath = config.servicePath name := by
  obtain ⟨hsame, hplace⟩ := Config.name_of_target h
  rw [servicePath, path, hsame, hplace]
  rfl

/-- A rendered service file is that of its endpoints. -/
theorem Config.Detects.of_render (hsound : tree.Sound) (hfeature : feature.Plain)
    (h : ∀ endpoint ∈ endpoints, endpoint.Detectable) (hkeys : (endpoints.map (·.key)).Nodup)
    (hholds : tree.Holds (.file (config.servicePath name)
      (ClassFile.service.render feature endpoints))) : config.Detects name endpoints tree := by
  obtain ⟨front, hrender, hsheet⟩ := sheet_render hfeature h
  rw [hrender] at hholds
  exact ⟨hsound, .inr ⟨front, hholds, hsheet⟩, hkeys⟩

/-- What extending reads off the service file: the endpoints that have been found. -/
theorem Config.Detects.readService (h : config.Detects name found tree)
    (htarget : config.target project name tree = .ok target)
    (hcontent : target.readService tree = .ok content) :
    annotatedKeys content = found.map (·.key) ∧ (
      (tree.get? target.servicePath.resolve = none ∧ found = [] ∧ content = []) ∨
      ∃ front, content = front ++ "\x7d\n" ∧ Sheet front (found.map (·.key)) ∧
        tree.get? target.servicePath.resolve = some (.file (.text content))) := by
  have hpath := Target.servicePath_of_target htarget
  rcases h.file with ⟨hnone, rfl⟩ | ⟨front, hholds, hsheet⟩
  · rw [← hpath] at hnone
    have hempty : content = [] := by
      rw [Target.readService] at hcontent
      cases hhas : tree.has target.servicePath with
      | error error =>
          rw [hhas] at hcontent
          cases hcontent
      | ok known =>
          rw [hhas] at hcontent
          cases known with
          | false => exact (Except.ok.inj hcontent).symm
          | true =>
              have hsome := (Tree.has_eq_true_iff.1 hhas).2
              rw [hnone] at hsome
              cases hsome
    subst hempty
    exact ⟨rfl, .inl ⟨hnone, rfl, rfl⟩⟩
  · rw [← hpath] at hholds
    have hreturn : '\r' ∉ front ++ "\x7d\n" := by
      rw [List.mem_append, not_or]
      exact ⟨hsheet.no_return, by decide⟩
    rw [target.readService_of_holds hholds, universalNewlines_of_not_mem hreturn] at hcontent
    obtain rfl := Except.ok.inj hcontent
    have hreads : Reads (front ++ "\x7d\n") (found.map (·.key)) :=
      hsheet.reads.append_plain (reads_of_not_mem (by decide))
    exact ⟨hreads.annotatedKeys, .inr ⟨front, rfl, hsheet, hholds.get⟩⟩

/-- The service file with members that it lacks is extended by their keys. -/
theorem Sheet.extend {keys : List EndpointKey} (hsheet : Sheet front keys)
    (hfeature : feature.Plain)
    (h : ∀ endpoint ∈ endpoints, endpoint.Detectable) (hne : endpoints ≠ [])
    (hlacks : ∀ endpoint ∈ endpoints, hasMember (front ++ "\x7d\n") endpoint.methodName = false) :
    ∃ front' : Text, (ClassFile.service.part feature endpoints).update (front ++ "\x7d\n") =
      some (front' ++ "\x7d\n") ∧ Sheet front' (keys ++ endpoints.map (·.key)) := by
  obtain ⟨front', hinsert, hsheet'⟩ := hsheet.insert hfeature h
  have hlacking : lacking (front ++ "\x7d\n") Endpoint.methodName endpoints = endpoints :=
    List.filter_eq_self.2 fun endpoint hmem => by rw [hlacks endpoint hmem]; rfl
  have hextend : (ClassFile.service.part feature endpoints).extend (front ++ "\x7d\n") =
      .ok (front' ++ "\x7d\n") := by
    show ClassFile.service.extend feature (front ++ "\x7d\n") endpoints = _
    rw [ClassFile.extend_eq, hlacking, completeWith_of_ne_nil hne, hinsert]
  refine ⟨front', ?_, hsheet'⟩
  have hchanged : front' ++ "\x7d\n" ≠ front ++ "\x7d\n" := by
    intro heq
    rw [List.append_cancel_right heq] at hsheet'
    have hkeys := hsheet.reads.annotatedKeys.symm.trans hsheet'.reads.annotatedKeys
    exact hne (List.map_eq_nil_iff.1 (List.self_eq_append_right.1 hkeys))
  rw [Part.update, hextend]
  exact if_neg hchanged

theorem service_mem_extendedParts (hdata : layers.data = true) :
    ClassFile.service.part feature endpoints ∈ extendedParts feature endpoints layers := by
  refine List.mem_append_left _ ?_
  rw [if_pos hdata]
  exact List.mem_cons_self

theorem serviceItem_mem_fullItems (hdata : layers.data = true) :
    .file target.servicePath (ClassFile.service.render target.feature endpoints) ∈
      target.fullItems endpoints layers := by
  refine List.mem_append_right _ (List.mem_map.2 ⟨(ClassFile.service.path target.feature.name,
    ClassFile.service.render target.feature endpoints), ?_, rfl⟩)
  rw [featureFiles]
  refine List.mem_append_left _ (List.mem_append_left _ ?_)
  rw [if_pos hdata]
  exact List.mem_append_right _ List.mem_cons_self

/-! ## Runs -/

section

variable (hproject : AsciiWordy project) (hname : FeatureName name) (hword : AsciiWordy name)
  (hdata : layers.data = true) (hdetectable : ∀ endpoint ∈ endpoints, endpoint.Detectable)
  (hkeys : (endpoints.map (·.key)).Nodup)

include hproject hname hword hdata hdetectable hkeys

omit hname hdata hdetectable hkeys in
theorem Config.plain_of_target (h : config.target project name tree = .ok target) :
    target.feature.Plain := by
  obtain ⟨hasModels, -, rfl⟩ := Config.target_eq_ok_iff.1 h
  refine ⟨hproject, hword, ?_⟩
  show AsciiWordy (modelFolderFor hasModels)
  cases hasModels <;> decide

/-- Behind a full generation the service file annotates its endpoints. -/
theorem detects_of_generateFull (hsound : desk.tree.Sound)
    (h : (generateFull config project name endpoints layers).runOn desk = (.ok outcome, desk')) :
    config.Detects name endpoints desk'.tree := by
  have hslash : ∀ endpoint ∈ endpoints, '/' ∉ endpoint.methodName := fun endpoint hmem =>
    (hdetectable endpoint hmem).methodName.consists.not_mem (by decide)
  obtain ⟨target, middle, htarget, -, hmakes, herrors, -⟩ := generateFull_makes hname hslash h
  have hplaced : Placed target.feature endpoints := .of_target hname hslash htarget
  have hall := hmakes.append_errors hplaced herrors
  have hholds := hall.holds _ (List.mem_append_left _ (serviceItem_mem_fullItems hdata))
  rw [Target.servicePath_of_target htarget] at hholds
  exact .of_render (hall.sound hsound) (Config.plain_of_target hproject hword htarget) hdetectable hkeys hholds

/-- Behind the extension of a feature the service file annotates the new endpoints, too. -/
theorem Config.Detects.generateAppend (hdetects : config.Detects name found desk.tree)
    (hfolder : desk.tree.Holds (.folder (config.featurePath name)))
    (h : (generateAppend config project name endpoints layers).runOn desk = (.ok outcome, desk')) :
    ∃ new, outcome.isUpdate = true ∧ outcome.newEndpoints = new.map (·.describe) ∧
      new ⊆ endpoints ∧ config.Detects name (found ++ new) desk'.tree := by
  have hslash : ∀ endpoint ∈ endpoints, '/' ∉ endpoint.methodName := fun endpoint hmem =>
    (hdetectable endpoint hmem).methodName.consists.not_mem (by decide)
  obtain ⟨target, content, htarget, hcontent, ⟨hupdate, hreports⟩, hrest⟩ :=
    generateAppend_makes hname hslash hdetects.sound hfolder h
  obtain ⟨hannotated, hfile⟩ := hdetects.readService htarget hcontent
  have hsub : (target.admission content endpoints).admitted.Sublist
      (freshEndpoints content endpoints) := admitted_sublist _ _ _
  have hnot : ∀ endpoint ∈ (target.admission content endpoints).admitted,
      hasMember content endpoint.methodName = false := fun _ => not_hasMember_of_admitted
  generalize (target.admission content endpoints).admitted = new at *
  have hnew : new ⊆ endpoints := fun endpoint hmem => (List.mem_filter.1 (hsub.subset hmem)).1
  refine ⟨new, hupdate, hreports, hnew, ?_⟩
  rcases hrest with ⟨rfl, htree, -⟩ | ⟨hne, ⟨middle, hextended⟩, -, -⟩
  · rw [List.append_nil, htree]
    exact hdetects
  have hdetectable' : ∀ endpoint ∈ new, endpoint.Detectable := fun endpoint hmem =>
    hdetectable endpoint (hnew hmem)
  have hkeys' : (new.map (·.key)).Nodup :=
    hkeys.sublist ((hsub.trans List.filter_sublist).map _)
  have hplaced : Placed target.feature new :=
    .of_target hname (fun endpoint hmem => hslash endpoint (hnew hmem)) htarget
  have hfeature := Config.plain_of_target hproject hword htarget
  have hsound : desk'.tree.Sound := hextended.errors.sound (hextended.slots.sound hdetects.sound)
  have hpath := Target.servicePath_of_target htarget
  -- what stands at the place of the service file decides what is written there
  have hholds : ∀ text, (ClassFile.service.part target.feature new).slot.text?
      (desk.tree.get? target.servicePath.resolve) = some text →
      desk'.tree.Holds (.file (config.servicePath name) text) := by
    intro text htext
    rw [← hpath]
    refine hextended.holds_item hplaced (slot_mem_appendSlots (service_mem_extendedParts hdata)) ?_
    show Option.map _ _ = _
    exact congrArg (Option.map _) htext
  rcases hfile with ⟨hnone, rfl, -⟩ | ⟨front, rfl, hsheet, hget⟩
  · exact .of_render hsound hfeature hdetectable' hkeys' (hholds _ (by rw [hnone]; rfl))
  · obtain ⟨front', hwritten, hsheet'⟩ := hsheet.extend hfeature hdetectable' hne hnot
    have hreturn : '\r' ∉ front ++ "\x7d\n" := by
      rw [List.mem_append, not_or]
      exact ⟨hsheet.no_return, by decide⟩
    have hfile' : desk'.tree.Holds (.file (config.servicePath name) (front' ++ "\x7d\n")) := by
      refine hholds _ ?_
      rw [hget, ← hwritten]
      show Part.update _ (universalNewlines _) = _
      rw [universalNewlines_of_not_mem hreturn]
    refine ⟨hsound, .inr ⟨front', hfile', by rwa [List.map_append]⟩, ?_⟩
    rw [List.map_append, List.nodup_append]
    refine ⟨hdetects.nodup, hkeys', ?_⟩
    rintro key hkey other hother rfl
    obtain ⟨endpoint, hmem, rfl⟩ := List.mem_map.1 hother
    have hfresh := (List.mem_filter.1 (hsub.subset hmem)).2
    rw [hannotated] at hfresh
    simp [hkey] at hfresh

end

theorem RunRequest.record_of_error {request : RunRequest} {history : History} {error : RunError}
    (h : (generate config project name request.endpoints request.layers request.action).runOn
      history.desk = (.error error, desk)) :
    request.record config project name history = { history with desk } := by
  rw [record, h]

theorem RunRequest.record_of_ok {request : RunRequest} {history : History}
    (h : (generate config project name request.endpoints request.layers request.action).runOn
      history.desk = (.ok outcome, desk)) :
    request.record config project name history = ⟨desk,
      (if outcome.isUpdate || outcome.cancelled then history.reported else []) ++
        outcome.newEndpoints⟩ := by
  rw [record, h]

/-- A run that fails with the service file as it was leaves found what has been found. -/
theorem Config.Detects.of_failure {request : RunRequest} {error : RunError}
    (hdetects : config.Detects name found desk.tree)
    (hspares : request.Spares config project name desk)
    (h : (generate config project name request.endpoints request.layers request.action).runOn
      desk = (.error error, desk')) : config.Detects name found desk'.tree := by
  have hrun : ((generate config project name request.endpoints request.layers
      request.action).runOn desk).2 = desk' := by rw [h]
  obtain ⟨hbelow, hsound⟩ : desk.tree.Below desk'.tree ∧ desk'.tree.Sound := by
    rw [← hrun]
    exact grows_runOn hdetects.sound
  have hsame := hspares error desk' h
  refine ⟨hsound, ?_, hdetects.nodup⟩
  rcases hdetects.file with ⟨hnone, hfound⟩ | ⟨front, hholds, hsheet⟩
  · exact .inl ⟨hsame.trans hnone, hfound⟩
  · exact .inr ⟨front, ⟨hbelow.find hholds.find, hsame.trans hholds.get⟩, hsheet⟩

section

variable (hproject : AsciiWordy project) (hname : FeatureName name) (hword : AsciiWordy name)

include hproject hname hword

/-- Behind one more run the endpoints that are found are again those reported. -/
theorem Config.Detects.record {request : RunRequest} {history : History}
    (hrequest : request.Generates Endpoint.Detectable)
    (hspares : request.Spares config project name history.desk)
    (hdetects : config.Detects name found history.desk.tree)
    (hreported : history.reported = found.map (·.describe)) :
    ∃ found', config.Detects name found' (request.record config project name history).desk.tree ∧
      (request.record config project name history).reported = found'.map (·.describe) ∧
      found' ⊆ found ++ request.endpoints := by
  cases hrun : (generate config project name request.endpoints request.layers request.action).runOn
    history.desk with
  | mk answer desk' =>
    cases answer with
    | error error =>
        rw [RunRequest.record_of_error hrun]
        exact ⟨found, hdetects.of_failure hspares hrun, hreported, List.subset_append_left ..⟩
    | ok outcome =>
        rw [RunRequest.record_of_ok hrun]
        obtain ⟨-, hcase⟩ := generate_eq_ok hrun
        rcases hcase with ⟨-, hfull⟩ | ⟨⟨hexists, -⟩, happend⟩ | ⟨-, htree, hcancelled, hnone⟩
        · obtain ⟨hupdate, hcancelled, hnew⟩ :=
            generateFull_reports config project name _ _ _ _ (congrArg (·.1) hfull)
          refine ⟨request.endpoints, detects_of_generateFull hproject hname hword hrequest.data
            hrequest.endpoints hrequest.keys hdetects.sound hfull, ?_, List.subset_append_right ..⟩
          simp [hupdate, hcancelled, hnew]
        · have hfolder : history.desk.tree.Holds (.folder (config.featurePath name)) :=
            ⟨(Tree.hasFolder_eq_true_iff.1 hexists).1, (Tree.hasFolder_eq_true_iff.1 hexists).2⟩
          obtain ⟨new, hupdate, hnew, hsub, hdetects'⟩ := hdetects.generateAppend hproject hname
            hword hrequest.data hrequest.endpoints hrequest.keys hfolder happend
          refine ⟨found ++ new, hdetects', ?_, ?_⟩
          · simp [hupdate, hnew, hreported]
          · exact List.append_subset.2 ⟨List.subset_append_left ..,
              List.Subset.trans hsub (List.subset_append_right ..)⟩
        · refine ⟨found, ?_, ?_, List.subset_append_left ..⟩
          · show config.Detects name found desk'.tree
            rw [htree]
            exact hdetects
          · simp [hcancelled, hnone, hreported]

/-- Behind several runs the endpoints that are found are those reported. -/
theorem Config.Detects.recordAll {requests : List RunRequest} {history : History}
    (hrequests : ∀ request ∈ requests, request.Generates Endpoint.Detectable)
    (hspares : SparesAll config project name requests history)
    (hdetects : config.Detects name found history.desk.tree)
    (hreported : history.reported = found.map (·.describe)) :
    ∃ found', config.Detects name found'
        (Scaffold.recordAll config project name requests history).desk.tree ∧
      (Scaffold.recordAll config project name requests history).reported =
        found'.map (·.describe) ∧
      found' ⊆ found ++ requests.flatMap (·.endpoints) := by
  induction requests generalizing history found with
  | nil => exact ⟨found, hdetects, hreported, List.subset_append_left ..⟩
  | cons request requests ih =>
      obtain ⟨hfirst, hrest⟩ := List.forall_mem_cons.1 hrequests
      obtain ⟨middle, hmiddle, hreported', hsub⟩ :=
        hdetects.record hproject hname hword hfirst hspares.1 hreported
      obtain ⟨found', hfound, hlast, hsub'⟩ := ih hrest hspares.2 hmiddle hreported'
      refine ⟨found', hfound, hlast, List.Subset.trans hsub' ?_⟩
      rw [List.flatMap_cons, ← List.append_assoc]
      exact List.append_subset.2 ⟨List.Subset.trans hsub (List.subset_append_left ..),
        List.subset_append_right ..⟩

end

theorem Config.servicePath_eq (config : Config) (hname : FeatureName name) :
    config.servicePath name = config.featurePath name ++
      [("data" : Text), "remote", "service", name ++ ("_service.dart" : Text)] := by
  have htarget : FeatureName (config.targetWith [] name "model").feature.name := hname
  have hpath : config.servicePath name = (config.targetWith [] name "model").servicePath := by
    unfold Config.servicePath Target.servicePath Target.path
    rfl
  rw [hpath]
  exact Target.servicePath_eq htarget

/-- Asked for the endpoints of a feature, one gets those that have been found, unless the path of
the service file is too long. -/
theorem Config.Detects.existingKeys (hdetects : config.Detects name found desk.tree)
    (hname : FeatureName name) (hfits : (config.servicePath name).Fits) :
    (existingKeys config name).runOn desk = (.ok (found.map (·.key)), desk) := by
  have hmodels : (config.modelsPath name).Fits := by
    rw [config.servicePath_eq hname] at hfits
    rw [config.modelsPath_eq]
    exact Path.fits_models hfits
  obtain ⟨hasModels, hknown⟩ : ∃ known, desk.tree.hasFolder (config.modelsPath name) = .ok known :=
    Tree.hasFolder_of_fits hmodels
  have htarget : config.target [] name desk.tree =
      .ok (config.targetWith [] name (modelFolderFor hasModels)) :=
    Config.target_eq_ok_iff.2 ⟨hasModels, hknown, rfl⟩
  generalize config.targetWith [] name (modelFolderFor hasModels) = target at htarget
  have hpath := Target.servicePath_of_target htarget
  obtain ⟨content, hcontent⟩ : ∃ content, target.readService desk.tree = .ok content := by
    rcases hdetects.file with ⟨hnone, -⟩ | ⟨front, hholds, -⟩
    · obtain ⟨known, hhas⟩ : ∃ known, desk.tree.has (config.servicePath name) = .ok known :=
        Tree.has_of_fits hfits
      rw [Target.readService, hpath, hhas]
      cases known with
      | false => exact ⟨_, rfl⟩
      | true =>
          have hsome := (Tree.has_eq_true_iff.1 hhas).2
          rw [hnone] at hsome
          cases hsome
    · rw [← hpath] at hholds
      exact ⟨_, target.readService_of_holds hholds⟩
  have hread : (serviceText target).runOn desk = (.ok content, desk) := by
    rw [serviceText_runOn, hcontent]
  obtain ⟨hannotated, -⟩ := hdetects.readService htarget hcontent
  rw [Scaffold.existingKeys, Work.runOn_bind_of_ok (runOn_ask_of_ok htarget),
    Work.runOn_bind_of_ok hread, hannotated]
  rfl

/-! ## Runs that are recorded -/

/-- What is asked for several runs on a project without the feature. -/
structure Recorded (config : Config) (project name : Text) (accepts : Endpoint → Prop)
    (requests : List RunRequest) (desk : Desk) : Prop where
  ofProject : AsciiWordy project
  named : isFeatureName name = true
  word : AsciiWordy name
  requests : ∀ request ∈ requests, request.Generates accepts
  sound : desk.tree.Sound
  absent : desk.tree.get? (config.featurePath name).resolve ≠ some .folder

/-- The endpoints found in the service file are some of those asked for: those that have been
reported, each one annotated once. -/
def History.Exact (config : Config) (name : Text) (requests : List RunRequest) (history : History) :
    Prop :=
  ∃ found : List Endpoint, found ⊆ requests.flatMap (·.endpoints) ∧
    history.reported = found.map (·.describe) ∧ (found.map (·.key)).Nodup ∧
    (existingKeys config name).runOn history.desk = (.ok (found.map (·.key)), history.desk)

/-- All of several runs return. -/
def returnsAll (config : Config) (project name : Text) : List RunRequest → History → Bool
  | [], _ => true
  | request :: requests, history =>
    ((generate config project name request.endpoints request.layers request.action).runOn
      history.desk).1.isOk && returnsAll config project name requests
        (request.record config project name history)

theorem SparesAll.of_returnsAll {requests : List RunRequest} {history : History}
    (h : returnsAll config project name requests history = true) :
    SparesAll config project name requests history := by
  induction requests generalizing history with
  | nil => trivial
  | cons request requests ih =>
      rw [returnsAll, Bool.and_eq_true] at h
      refine ⟨fun error desk' hrun => ?_, ih h.2⟩
      have hreturns := h.1
      rw [hrun] at hreturns
      cases hreturns

/-! ## Two runs in a row -/

theorem EndsOnImport.of_noBreak {text : Text} (h : '\n' ∉ text) : EndsOnImport text := by
  rintro w v rfl - hbreak
  exact h (List.mem_append_right _ (List.mem_append_right _ hbreak))

theorem readable_of_noParameters {endpoint : Endpoint} (hmethod : endpoint.method ∈ supportedVerbs)
    (hparameters : endpoint.parameters = []) (hname : AsciiWordy endpoint.methodName)
    (hpath : endpoint.path ≠ []) (hquote : '"' ∉ endpoint.path) (hreturn : '\r' ∉ endpoint.path) :
    endpoint.Readable :=
  ⟨⟨⟨hmethod, by rw [hparameters]; exact List.forall_mem_nil _⟩, hname,
    by rw [hparameters]; exact List.forall_mem_nil _⟩, hpath, hquote, hreturn⟩

/-- An endpoint that needs a model. -/
def itemEndpoint : Endpoint where
  path := "/items"
  method := "get"
  operationId := some "readItems"
  responses := [("200", { schema := some [(.text "type", .text "object")] })]

theorem itemEndpoint_detectable : itemEndpoint.Detectable :=
  ⟨readable_of_noParameters (by decide) rfl (by decide) (by decide) (by decide) (by decide),
    .of_noBreak (by decide)⟩

theorem bareGet_detectable : (bareGet "/users").Detectable :=
  ⟨readable_of_noParameters (by decide) rfl (by decide) (by decide) (by decide) (by decide),
    .of_noBreak (by decide)⟩

theorem lacks_news : Config.Lacks {} "news" {} := Config.lacks_of_empty rfl (by decide) (by decide)

/-- The data layer alone. -/
def dataLayer : Layers := { domain := false, presentation := false }

/-- An endpoint is added to a feature of one other endpoint, which is asked for again. -/
def growingRuns : List RunRequest :=
  [⟨[bareGet "/users"], dataLayer, .append⟩,
    ⟨[bareGet "/users", itemEndpoint], dataLayer, .append⟩]

theorem recorded_growingRuns :
    Recorded {} "shop" "news" Endpoint.Detectable growingRuns ⟨{}, []⟩ where
  ofProject := by decide
  named := by decide
  word := by decide
  requests := by
    rintro request (_ | ⟨_, _ | ⟨_, ⟨⟩⟩⟩)
    · exact ⟨rfl, List.forall_mem_singleton.2 bareGet_detectable, by decide⟩
    · exact ⟨rfl, List.forall_mem_cons.2 ⟨bareGet_detectable,
        List.forall_mem_singleton.2 itemEndpoint_detectable⟩, by decide⟩
  sound := lacks_news.sound
  absent := by decide

/-! ## Detection over runs -/

/-- Behind any runs the endpoints found in the service file are those reported since the last full
generation. If the path of the service file is too long, there are none. What a rendered service
file annotates are its endpoints. -/
theorem existingKeys_recordAll {requests : List RunRequest}
    (h : Recorded config project name Endpoint.Detectable requests desk)
    (hspares : SparesAll config project name requests ⟨desk, []⟩) :
    ((recordAll config project name requests ⟨desk, []⟩).Exact config name requests ∨
      (recordAll config project name requests ⟨desk, []⟩).reported = [] ∧
        ¬ (config.servicePath name).Fits) ∧
      ∀ (feature : Feature) (endpoints : List Endpoint), feature.Plain →
        (∀ endpoint ∈ endpoints, endpoint.Readable) →
        annotatedKeys (ClassFile.service.render feature endpoints) = endpoints.map (·.key) := by
  refine ⟨?_, fun feature endpoints hfeature => annotatedKeys_render hfeature⟩
  have hname := FeatureName.of_isFeatureName h.named
  have hstart : config.Detects name [] (History.mk desk []).desk.tree := by
    refine ⟨h.sound, .inl ⟨?_, rfl⟩, List.nodup_nil⟩
    have hplace : (config.servicePath name).resolve = config.sourcePlace name (.ofClass .service) :=
      Path.resolve_join ((SourceFile.ofClass .service).relative hname)
    have hrow : (SourceFile.ofClass .service).row name ≠ [] := by simp [SourceFile.row]
    rw [hplace]
    cases hget : desk.tree.get? (config.sourcePlace name (.ofClass .service)) with
    | none => rfl
    | some entry => exact absurd (h.sound.folder_of_append hrow hget) h.absent
  obtain ⟨found, hdetects, hreported, hsub⟩ := hstart.recordAll h.ofProject hname h.word h.requests
    hspares rfl
  by_cases hfits : (config.servicePath name).Fits
  · exact .inl ⟨found, hsub, hreported, hdetects.nodup, hdetects.existingKeys hname hfits⟩
  · refine .inr ⟨?_, hfits⟩
    rcases hdetects.file with ⟨-, rfl⟩ | ⟨front, hholds, -⟩
    · exact hreported
    · exact absurd hholds.fits hfits

theorem existingKeys_growingRuns :
    (recordAll {} "shop" "news" growingRuns ⟨⟨{}, []⟩, []⟩).Exact {} "news" growingRuns := by
  have hreturns : returnsAll {} "shop" "news" growingRuns ⟨⟨{}, []⟩, []⟩ = true := by decide +kernel
  rcases (existingKeys_recordAll recorded_growingRuns (.of_returnsAll hreturns)).1 with
    hexact | ⟨-, hlong⟩
  · exact hexact
  · exact absurd (by decide +kernel) hlong

/-! ## Endpoints that are not found again -/

/-- An endpoint whose path goes on behind an import. -/
def tornEndpoint : Endpoint where
  path := "/a import '\nb"
  method := "get"
  operationId := some "readA"

/-- The responses of an operation that answers an object. -/
def objectResponses : Value :=
  .map [(.text "200", .map [(.text "content", .map [(.text "application/json",
    .map [(.text "schema", .map [(.text "type", .text "object")])])])])]

/-- An operation on a path that goes on behind an import, and one that needs a model. -/
def tornDocument : Value :=
  .map [(.text "paths", .map [
    (.text "/a import '\nb", .map [(.text "get", .map [(.text "operationId", .text "readA")])]),
    (.text "/items", .map [(.text "get", .map [(.text "operationId", .text "readItems"),
      (.text "responses", objectResponses)])])])]

theorem extracted_torn : ∀ endpoint ∈ [tornEndpoint, itemEndpoint], Extracted endpoint :=
  fun _ hmem => ⟨tornDocument, _, rfl, hmem⟩

/-- The second endpoint is added to a feature of the first one. -/
def tornRuns : List RunRequest :=
  [⟨[tornEndpoint], dataLayer, .append⟩, ⟨[itemEndpoint], dataLayer, .append⟩]

/-- The keys that are found in the service file, none if they cannot be asked for. -/
def keysFound? (config : Config) (name : Text) (desk : Desk) : Option (List EndpointKey) :=
  ((existingKeys config name).runOn desk).1.toOption

theorem History.Exact.keysFound {requests : List RunRequest} {history : History}
    (h : history.Exact config name requests) : ∃ found : List Endpoint,
      found ⊆ requests.flatMap (·.endpoints) ∧ history.reported = found.map (·.describe) ∧
      keysFound? config name history.desk = some (found.map (·.key)) := by
  obtain ⟨found, hsub, hreported, -, hkeys⟩ := h
  exact ⟨found, hsub, hreported, by rw [keysFound?, hkeys]; rfl⟩

/-- Both runs return. The import of the model goes into the path, which is read back with it. -/
theorem torn_runs : returnsAll {} "shop" "news" tornRuns ⟨⟨{}, []⟩, []⟩ = true ∧
    (keysFound? {} "news" (recordAll {} "shop" "news" tornRuns ⟨⟨{}, []⟩, []⟩).desk).any
      (fun keys => keys.all ((tornRuns.flatMap (·.endpoints)).map (·.key)).contains) = false := by
  decide +kernel

theorem torn_not_exact :
    ¬ (recordAll {} "shop" "news" tornRuns ⟨⟨{}, []⟩, []⟩).Exact {} "news" tornRuns := by
  intro hexact
  obtain ⟨found, hsub, -, hkeys⟩ := hexact.keysFound
  have htorn := torn_runs.2
  rw [hkeys, Option.any_some, List.all_eq_false] at htorn
  obtain ⟨key, hkey, hnot⟩ := htorn
  obtain ⟨endpoint, hmem, rfl⟩ := List.mem_map.1 hkey
  exact hnot (by simpa using ⟨endpoint, List.mem_flatMap.1 (hsub hmem), rfl⟩)

/-- A project where the errors shared by all features cannot be written. -/
def blockedTree : Tree where
  entries := [(["lib"], .folder), (["lib", "core"], .file (.text "x"))]

/-- One endpoint is generated. -/
def usersRuns : List RunRequest := [⟨[bareGet "/users"], dataLayer, .append⟩]

/-- The run fails behind the service file: it is there, and nothing has been reported. -/
theorem blocked_run :
    (recordAll {} "shop" "news" usersRuns ⟨⟨blockedTree, []⟩, []⟩).reported = [] ∧
      keysFound? {} "news" (recordAll {} "shop" "news" usersRuns ⟨⟨blockedTree, []⟩, []⟩).desk ≠
        some [] := by
  decide +kernel

theorem blocked_not_exact :
    ¬ (recordAll {} "shop" "news" usersRuns ⟨⟨blockedTree, []⟩, []⟩).Exact {} "news" usersRuns := by
  intro hexact
  obtain ⟨found, -, hreported, hkeys⟩ := hexact.keysFound
  obtain ⟨hnothing, hthere⟩ := blocked_run
  rw [hnothing] at hreported
  rw [List.map_eq_nil_iff.1 hreported.symm] at hkeys
  exact hthere hkeys

/-- A name of a feature that no file system takes. -/
def overlongName : Text := List.replicate 260 'a'

/-- A project without features. -/
def featurelessTree : Tree where
  entries := [(["lib"], .folder), (["lib", "features"], .folder)]

/-- Without any run, no keys can be asked for under a name that is too long. -/
theorem overlong_not_exact :
    ¬ (recordAll {} "shop" overlongName [] ⟨⟨featurelessTree, []⟩, []⟩).Exact {} overlongName
      [] := by
  intro hexact
  obtain ⟨found, -, -, hkeys⟩ := hexact.keysFound
  have hnone : keysFound? {} overlongName ⟨featurelessTree, []⟩ = none := by decide +kernel
  have hsome : keysFound? {} overlongName ⟨featurelessTree, []⟩ = some (found.map (·.key)) := hkeys
  rw [hnone] at hsome
  cases hsome

/-- Three ways in which other endpoints are found than those reported: a path that goes on behind an
import, a run that fails behind the service file, and a name that is too long. -/
theorem not_existingKeys_recordAll :
    ((∀ endpoint ∈ [tornEndpoint, itemEndpoint], Extracted endpoint) ∧
      Recorded {} "shop" "news" Endpoint.Readable tornRuns ⟨{}, []⟩ ∧
      SparesAll {} "shop" "news" tornRuns ⟨⟨{}, []⟩, []⟩ ∧
      ¬ (recordAll {} "shop" "news" tornRuns ⟨⟨{}, []⟩, []⟩).Exact {} "news" tornRuns) ∧
    ((∀ endpoint ∈ [bareGet "/users"], Extracted endpoint) ∧
      Recorded {} "shop" "news" Endpoint.Detectable usersRuns ⟨blockedTree, []⟩ ∧
      ¬ (recordAll {} "shop" "news" usersRuns ⟨⟨blockedTree, []⟩, []⟩).Exact {} "news" usersRuns) ∧
    Recorded {} "shop" overlongName Endpoint.Detectable [] ⟨featurelessTree, []⟩ ∧
      ¬ (recordAll {} "shop" overlongName [] ⟨⟨featurelessTree, []⟩, []⟩).Exact {} overlongName
        [] := by
  refine ⟨⟨extracted_torn, ?_, ?_, torn_not_exact⟩, ⟨?_, ?_, blocked_not_exact⟩, ?_,
    overlong_not_exact⟩
  · refine ⟨by decide, by decide, by decide, ?_, lacks_news.sound, by decide⟩
    rintro request (_ | ⟨_, _ | ⟨_, ⟨⟩⟩⟩)
    · exact ⟨rfl, List.forall_mem_singleton.2 (readable_of_noParameters (by decide) rfl (by decide)
        (by decide) (by decide) (by decide)), by decide⟩
    · exact ⟨rfl, List.forall_mem_singleton.2 itemEndpoint_detectable.toReadable, by decide⟩
  · exact .of_returnsAll torn_runs.1
  · exact List.forall_mem_singleton.2 (extracted_bareGet _ List.mem_cons_self)
  · refine ⟨by decide, by decide, by decide, ?_, Tree.sound_of_entries (by decide), by decide⟩
    exact List.forall_mem_singleton.2
      ⟨rfl, List.forall_mem_singleton.2 bareGet_detectable, by decide⟩
  · exact ⟨by decide, by decide +kernel, by decide +kernel, List.forall_mem_nil _,
      Tree.sound_of_entries (by decide), by decide +kernel⟩

end Scaffold
