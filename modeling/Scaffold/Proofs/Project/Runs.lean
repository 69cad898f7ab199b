import Scaffold.Proofs.Project.Admission
import Scaffold.Proofs.Project.Warnings

/-!
# Runs

What a run of `generate` amounts to: a full generation, or the extension of a feature that is there
(`generateAppend_makes`, `generateAppend_runOn`).
-/

namespace Scaffold

variable {desk desk' : Desk} {target : Target} {config : Config} {endpoints : List Endpoint}
  {layers : Layers} {project name : Text} {outcome : Outcome}

/-! ## The service file -/

/-- The path of the service file. -/
def Target.servicePath (target : Target) : Path :=
  target.path (ClassFile.service.path target.feature.name)

/-- The text of the service file, empty if it is missing. -/
def Target.readService (target : Target) (tree : Tree) : Except WorkError Text :=
  match tree.has target.servicePath with
  | .error error => .error (.file error)
  | .ok true => tree.readText target.servicePath
  | .ok false => .ok []

theorem serviceText_runOn (target : Target) (desk : Desk) :
    (serviceText target).runOn desk = (target.readService desk.tree, desk) := by
  rw [Target.readService]
  cases hhas : desk.tree.has target.servicePath with
  | error error =>
      show ((ask (·.has target.servicePath)) >>= _).runOn desk = _
      rw [Work.runOn_bind, runOn_ask, hhas]
      rfl
  | ok known =>
      show ((ask (·.has target.servicePath)) >>= _).runOn desk = _
      rw [Work.runOn_bind_of_ok (runOn_ask_of_ok hhas)]
      cases known with
      | true => exact runOn_readText _ _
      | false => rfl

theorem Target.readService_of_holds {tree : Tree} {text : Text}
    (h : tree.Holds (.file target.servicePath text)) :
    target.readService tree = .ok (universalNewlines text) := by
  have hhas : tree.has target.servicePath = .ok true := h.has
  rw [Target.readService, hhas]
  exact readText_of_get h.find h.get

theorem forM_warn_runOn (warnings : List Text) (f : Text → Text) (desk : Desk) :
    ∃ desk', (warnings.forM fun warning => (Work.warn (f warning) : Work WorkError Unit)).runOn desk =
      (.ok (), desk') ∧ desk'.tree = desk.tree := by
  induction warnings generalizing desk with
  | nil => exact ⟨desk, rfl, rfl⟩
  | cons warning warnings ih =>
      obtain ⟨desk', hrest, htree⟩ := ih (desk.warn (f warning ++ ['\n']))
      exact ⟨desk', (Work.runOn_bind_of_ok (Work.runOn_warn _ _)).trans hrest, htree⟩

/-! ## Extending -/

/-- The tree is extended by endpoints: their slots are gone through, and the errors shared by all
features are ensured. -/
structure Extended (config : Config) (target : Target) (admitted : List Endpoint) (layers : Layers)
    (tree middle other : Tree) : Prop where
  showable : layers.data = true → admitted.all (·.hasShowableModels) = true
  slots : tree.Makes (Slot.items target (appendSlots target.feature admitted layers) tree) middle
  stands : ∀ slot ∈ appendSlots target.feature admitted layers, slot.Stands target middle
  errors : middle.Makes (errorItems config middle) other
  has : other.has config.errorUnionPath = .ok true

/-- Where the errors are there before, only the slots are gone through. -/
theorem Extended.makes {admitted : List Endpoint} {tree middle other : Tree}
    (h : Extended config target admitted layers tree middle other)
    (hhas : tree.has config.errorUnionPath = .ok true) :
    tree.Makes (Slot.items target (appendSlots target.feature admitted layers) tree) other := by
  have herrors := h.errors
  rw [errorItems_of_has (h.slots.below.has hhas)] at herrors
  have hmakes := h.slots.append herrors fun _ _ _ _ hmade => by cases hmade
  rwa [List.append_nil] at hmakes

/-- The endpoints that extending a feature takes in. -/
def Target.admission (target : Target) (content : Text) (endpoints : List Endpoint) : Admission :=
  Scaffold.admission (ClassFile.service.path target.feature.name) content endpoints

theorem appendLayers_showable {report : Report}
    (h : (appendLayers target endpoints layers).runOn desk = (.ok report, desk')) :
    layers.data = true → endpoints.all (·.hasShowableModels) = true := by
  intro hdata
  rw [appendLayers_eq, if_pos hdata] at h
  obtain ⟨data, middle, hdata, -⟩ := Work.runOn_bind_eq_ok.1 h
  obtain ⟨⟨⟩, checked, hcheck, -⟩ := Work.runOn_bind_eq_ok.1 hdata
  exact (checkModels_eq_ok.1 hcheck).1

/-- The feature of a target has proper names if it has been found in a tree. -/
theorem Placed.of_target {tree : Tree} (hname : FeatureName name)
    (hmethods : ∀ endpoint ∈ endpoints, '/' ∉ endpoint.methodName)
    (h : config.target project name tree = .ok target) : Placed target.feature endpoints := by
  obtain ⟨hasModels, -, rfl⟩ := Config.target_eq_ok_iff.1 h
  exact ⟨hname, isModelFolder_modelFolderFor hasModels, hmethods⟩

theorem Config.name_of_target {tree : Tree} (h : config.target project name tree = .ok target) :
    target.feature.name = name ∧ target.folder = config.featurePath name := by
  obtain ⟨hasModels, -, rfl⟩ := Config.target_eq_ok_iff.1 h
  exact ⟨rfl, rfl⟩

/-- Extending a feature makes the slots of the endpoints it takes in, or else changes nothing. -/
theorem generateAppend_makes (hname : FeatureName name)
    (hmethods : ∀ endpoint ∈ endpoints, '/' ∉ endpoint.methodName) (hsound : desk.tree.Sound)
    (hfolder : desk.tree.Holds (.folder (config.featurePath name)))
    (h : (generateAppend config project name endpoints layers).runOn desk = (.ok outcome, desk')) :
    ∃ target content, config.target project name desk.tree = .ok target ∧
      target.readService desk.tree = .ok content ∧
      (outcome.isUpdate = true ∧ outcome.newEndpoints =
        (target.admission content endpoints).admitted.map (·.describe)) ∧
      ((target.admission content endpoints).admitted = [] ∧ desk'.tree = desk.tree ∧
          outcome.filesWritten = [] ∨
        (target.admission content endpoints).admitted ≠ [] ∧
          (∃ middle, Extended config target (target.admission content endpoints).admitted layers
            desk.tree middle desk'.tree) ∧
          outcome.filesWritten = Slot.written target
            (appendSlots target.feature (target.admission content endpoints).admitted layers)
            desk.tree ∧
          outcome.warnings = (target.admission content endpoints).warnings ++
            (extendedParts target.feature (target.admission content endpoints).admitted
              layers).filterMap (·.warningIn? target desk.tree)) := by
  obtain ⟨target, asked, hask, hrest⟩ := Work.runOn_bind_eq_ok.1 h
  obtain ⟨htarget, rfl⟩ := runOn_ask_eq_ok.1 hask
  obtain ⟨hsame, hplace⟩ := Config.name_of_target htarget
  obtain ⟨content, read, hread, hrest⟩ := Work.runOn_bind_eq_ok.1 hrest
  rw [serviceText_runOn, Prod.mk.injEq] at hread
  obtain ⟨hcontent, rfl⟩ := hread
  refine ⟨target, content, htarget, hcontent, ?_⟩
  have hadmission : admission (ClassFile.service.path name) content endpoints =
      target.admission content endpoints := by
    rw [Target.admission, hsame]
  rw [hadmission] at hrest
  obtain ⟨⟨⟩, warned, hwarn, hrest⟩ := Work.runOn_bind_eq_ok.1 hrest
  obtain ⟨warned', hwarn', htree⟩ := forM_warn_runOn (target.admission content endpoints).warnings
    (fun warning => "  Warning: " ++ warning) asked
  have hwarned : warned.tree = asked.tree := by
    rw [show warned = warned' from (Prod.mk.inj (hwarn.symm.trans hwarn')).2, htree]
  by_cases hempty : (target.admission content endpoints).admitted = []
  · rw [hempty, List.isEmpty_nil, if_pos rfl] at hrest
    obtain ⟨⟨⟩, said, hsay, hlast⟩ := Work.runOn_bind_eq_ok.1 hrest
    obtain ⟨-, rfl⟩ := Prod.mk.injEq .. ▸ hsay
    obtain ⟨heq, rfl⟩ := Prod.mk.injEq .. ▸ hlast
    obtain rfl := Except.ok.inj heq
    exact ⟨⟨rfl, by rw [hempty]; rfl⟩, .inl ⟨hempty, hwarned, rfl⟩⟩
  · rw [if_neg (by simpa using hempty)] at hrest
    obtain ⟨⟨⟩, said, hsay, hrest⟩ := Work.runOn_bind_eq_ok.1 hrest
    have hsaid : said.tree = warned.tree := (congrArg (·.2.tree) hsay).symm
    obtain ⟨report, extended, hextend, hrest⟩ := Work.runOn_bind_eq_ok.1 hrest
    obtain ⟨⟨⟩, ensured, hensure, hrest⟩ := Work.runOn_bind_eq_ok.1 hrest
    obtain ⟨⟨⟩, last, hsay', hlast⟩ := Work.runOn_bind_eq_ok.1 hrest
    have hensured : last.tree = ensured.tree := (congrArg (·.2.tree) hsay').symm
    obtain ⟨heq, rfl⟩ := Prod.mk.injEq .. ▸ hlast
    obtain rfl := Except.ok.inj heq
    rw [hwarned] at hsaid
    have hplaced : Placed target.feature (target.admission content endpoints).admitted :=
      .of_target hname (fun endpoint hmem => hmethods endpoint (mem_of_admitted hmem)) htarget
    have hready : Ready target said.tree := by
      rw [hsaid]
      exact ⟨hsound, hplace ▸ hfolder⟩
    obtain ⟨hmakes, hwritten, hstands⟩ :=
      (appendLayers_does hplaced (appendLayers_showable hextend)).makes hready hextend
    have hwarnings := appendLayers_warns hplaced (appendLayers_showable hextend) _ _ _ hready hextend
    rw [hsaid] at hmakes hwritten hwarnings
    obtain ⟨herrors, hhas⟩ := ensureErrorUnion_makes hensure
    rw [← hensured] at herrors hhas
    exact ⟨⟨rfl, rfl⟩, .inr ⟨hempty, ⟨extended.tree, appendLayers_showable hextend, hmakes, hstands,
      herrors, hhas⟩, hwritten, congrArg _ hwarnings⟩⟩

/-- Extending a feature by endpoints whose models cannot be written fails before anything is
written. -/
theorem generateAppend_of_unshowable {content : Text}
    (htarget : config.target project name desk.tree = .ok target)
    (hcontent : target.readService desk.tree = .ok content)
    (hnew : (target.admission content endpoints).admitted ≠ []) (hdata : layers.data = true)
    (hshowable : (target.admission content endpoints).admitted.all (·.hasShowableModels) = false) :
    ∃ desk', (generateAppend config project name endpoints layers).runOn desk =
      (.error (.value .longToShow), desk') ∧ desk'.tree = desk.tree := by
  have hread : (serviceText target).runOn desk = (.ok content, desk) := by
    rw [serviceText_runOn, hcontent]
  have hadmission : admission (ClassFile.service.path name) content endpoints =
      target.admission content endpoints := by
    rw [Target.admission, (Config.name_of_target htarget).1]
  obtain ⟨warned, hwarn, htree⟩ := forM_warn_runOn (target.admission content endpoints).warnings
    (fun warning => "  Warning: " ++ warning) desk
  have hrefused : ∀ start : Desk, (appendLayers target (target.admission content endpoints).admitted
      layers).runOn start = (.error (.value .longToShow), start) := by
    intro start
    rw [appendLayers_eq, if_pos hdata, appendData, checkModels, hshowable]
    rfl
  rw [generateAppend, Work.runOn_bind_of_ok (runOn_ask_of_ok htarget),
    Work.runOn_bind_of_ok hread, hadmission, Work.runOn_bind_of_ok hwarn,
    if_neg (by simpa using hnew), Work.runOn_bind_of_ok (Work.runOn_say _ _), Work.runOn_bind,
    hrefused]
  exact ⟨_, rfl, htree⟩

/-- Extending a feature by endpoints of which none is taken in changes nothing. -/
theorem generateAppend_idle {content : Text}
    (htarget : config.target project name desk.tree = .ok target)
    (hcontent : target.readService desk.tree = .ok content)
    (hempty : (target.admission content endpoints).admitted = []) :
    ∃ outcome desk', (generateAppend config project name endpoints layers).runOn desk =
      (.ok outcome, desk') ∧ desk'.tree = desk.tree ∧ outcome.filesWritten = [] := by
  have hread : (serviceText target).runOn desk = (.ok content, desk) := by
    rw [serviceText_runOn, hcontent]
  have hadmission : admission (ClassFile.service.path name) content endpoints =
      target.admission content endpoints := by
    rw [Target.admission, (Config.name_of_target htarget).1]
  obtain ⟨warned, hwarn, htree⟩ := forM_warn_runOn (target.admission content endpoints).warnings
    (fun warning => "  Warning: " ++ warning) desk
  rw [generateAppend, Work.runOn_bind_of_ok (runOn_ask_of_ok htarget),
    Work.runOn_bind_of_ok hread, hadmission, Work.runOn_bind_of_ok hwarn, hempty,
    List.isEmpty_nil, if_pos rfl, Work.runOn_bind_of_ok (Work.runOn_say _ _)]
  exact ⟨_, _, rfl, htree, rfl⟩

/-- Extending a feature returns below a tree that allows the slots of the endpoints it takes in. -/
theorem generateAppend_runOn {content : Text} {third : Tree} (hname : FeatureName name)
    (hmethods : ∀ endpoint ∈ endpoints, '/' ∉ endpoint.methodName) (hsound : desk.tree.Sound)
    (hfolder : desk.tree.Holds (.folder (config.featurePath name)))
    (htarget : config.target project name desk.tree = .ok target)
    (hcontent : target.readService desk.tree = .ok content)
    (hnew : (target.admission content endpoints).admitted ≠ []) (hbelow : desk.tree.Below third)
    (hshowable : layers.data = true →
      (target.admission content endpoints).admitted.all (·.hasShowableModels) = true)
    (hallows : ∀ slot ∈ appendSlots target.feature (target.admission content endpoints).admitted
      layers, slot.Allows target desk.tree third)
    (herrors : ∀ middle, desk.tree.Makes (Slot.items target (appendSlots target.feature
        (target.admission content endpoints).admitted layers) desk.tree) middle →
      middle.has config.errorUnionPath = .ok true ∨
        middle.has config.errorUnionPath = .ok false ∧ third.HoldsFile config.errorUnionPath) :
    ∃ outcome desk', (generateAppend config project name endpoints layers).runOn desk =
      (.ok outcome, desk') := by
  obtain ⟨hsame, hplace⟩ := Config.name_of_target htarget
  have hread : (serviceText target).runOn desk = (.ok content, desk) := by
    rw [serviceText_runOn, hcontent]
  have hadmission : admission (ClassFile.service.path name) content endpoints =
      target.admission content endpoints := by
    rw [Target.admission, hsame]
  obtain ⟨warned, hwarn, htree⟩ := forM_warn_runOn (target.admission content endpoints).warnings
    (fun warning => "  Warning: " ++ warning) desk
  rw [generateAppend, Work.runOn_bind_of_ok (runOn_ask_of_ok htarget),
    Work.runOn_bind_of_ok hread, hadmission, Work.runOn_bind_of_ok hwarn,
    if_neg (by simpa using hnew)]
  generalize hsaid : warned.tell ("Appending " ++
    Text.ofNat (target.admission content endpoints).admitted.length ++
    " new endpoint(s) to feature: " ++ name ++ ['\n']) = said
  have hstart : said.tree = desk.tree := by rw [← hsaid, Desk.tree_tell, htree]
  have hplaced : Placed target.feature (target.admission content endpoints).admitted :=
    .of_target hname (fun endpoint hmem => hmethods endpoint (mem_of_admitted hmem)) htarget
  have hready : Ready target said.tree := by
    rw [hstart]
    exact ⟨hsound, hplace ▸ hfolder⟩
  have hdoes := appendLayers_does hplaced hshowable
  obtain ⟨report, extended, hextend⟩ := hdoes.returns hready (hstart ▸ hbelow) (hstart ▸ hallows)
  obtain ⟨hmakes, -, -⟩ := hdoes.makes hready hextend
  rw [hstart] at hmakes
  have hbelow' : extended.tree.Below third := by
    refine hmakes.below_of hbelow fun item hitem => ?_
    obtain ⟨slot, hslot, hitem, -⟩ := Slot.path_of_mem_items hitem
    exact (hallows slot hslot).hasLike hbelow hitem
  obtain ⟨ensured, hensured⟩ := ensureErrorUnion_runOn hbelow' (herrors _ hmakes)
  rw [Work.runOn_bind_of_ok ((Work.runOn_say _ _).trans (by rw [hsaid])),
    Work.runOn_bind_of_ok hextend, Work.runOn_bind_of_ok hensured]
  exact ⟨_, _, rfl⟩

/-! ## Runs of the generator -/

/-- A run that returns has passed its checks; it generates the feature in full, extends it, or
leaves everything as it is. -/
theorem generate_eq_ok {action : ExistsAction}
    (h : (generate config project name endpoints layers action).runOn desk = (.ok outcome, desk')) :
    checkRun config name endpoints layers = .ok () ∧
      ((config.featureExists name desk.tree = .ok false ∨
            config.featureExists name desk.tree = .ok true ∧ action = .overwrite) ∧
          (generateFull config project name endpoints layers).runOn desk = (.ok outcome, desk') ∨
        (config.featureExists name desk.tree = .ok true ∧ action = .append) ∧
          (generateAppend config project name endpoints layers).runOn desk = (.ok outcome, desk') ∨
        (config.featureExists name desk.tree = .ok true ∧ action = .cancel) ∧
          desk'.tree = desk.tree ∧ outcome.cancelled = true ∧ outcome.newEndpoints = []) := by
  unfold generate at h
  split at h
  · simp at h
  · next hcheck =>
    refine ⟨hcheck, ?_⟩
    obtain ⟨known, asked, hask, hrest⟩ := Work.runOn_bind_eq_ok.1 h
    rw [Work.runOn_adapt_eq_ok] at hask
    obtain ⟨hexists, rfl⟩ := runOn_ask_eq_ok.1 hask
    cases known with
    | false => exact .inl ⟨.inl hexists, Work.runOn_adapt_eq_ok.1 hrest⟩
    | true =>
        cases action with
        | append => exact .inr (.inl ⟨⟨hexists, rfl⟩, Work.runOn_adapt_eq_ok.1 hrest⟩)
        | overwrite => exact .inl ⟨.inr ⟨hexists, rfl⟩, Work.runOn_adapt_eq_ok.1 hrest⟩
        | cancel =>
            obtain ⟨⟨⟩, said, hsay, hlast⟩ := Work.runOn_bind_eq_ok.1 hrest
            obtain ⟨heq, rfl⟩ := Prod.mk.injEq .. ▸ hlast
            obtain rfl := Except.ok.inj heq
            exact .inr (.inr ⟨⟨hexists, rfl⟩, (congrArg (·.2.tree) hsay).symm, rfl, rfl⟩)

/-- A run on a project without the feature generates it in full. -/
theorem generate_of_absent {action : ExistsAction}
    (hcheck : checkRun config name endpoints layers = .ok ())
    (hexists : config.featureExists name desk.tree = .ok false)
    (h : (generateFull config project name endpoints layers).runOn desk = (.ok outcome, desk')) :
    (generate config project name endpoints layers action).runOn desk = (.ok outcome, desk') := by
  have hask : Work.runOn (ExceptT.adapt RunError.work (ask (config.featureExists name))) desk =
      (.ok false, desk) := Work.runOn_adapt_eq_ok.2 (runOn_ask_of_ok hexists)
  unfold generate
  rw [hcheck]
  exact (Work.runOn_bind_of_ok hask).trans (Work.runOn_adapt_eq_ok.2 h)

/-- A run on a feature that is there extends it, unless another action is asked for. -/
theorem generate_append_runOn (hcheck : checkRun config name endpoints layers = .ok ())
    (hexists : config.featureExists name desk.tree = .ok true) :
    (generate config project name endpoints layers .append).runOn desk =
      (((generateAppend config project name endpoints layers).runOn desk).1.mapError .work,
        ((generateAppend config project name endpoints layers).runOn desk).2) := by
  have hask : Work.runOn (ExceptT.adapt RunError.work (ask (config.featureExists name))) desk =
      (.ok true, desk) := Work.runOn_adapt_eq_ok.2 (runOn_ask_of_ok hexists)
  unfold generate
  rw [hcheck]
  exact (Work.runOn_bind_of_ok hask).trans (Work.runOn_adapt _ _ _)

theorem generate_of_present (hcheck : checkRun config name endpoints layers = .ok ())
    (hexists : config.featureExists name desk.tree = .ok true)
    (h : (generateAppend config project name endpoints layers).runOn desk = (.ok outcome, desk')) :
    (generate config project name endpoints layers .append).runOn desk = (.ok outcome, desk') := by
  rw [generate_append_runOn hcheck hexists, h]
  rfl

theorem checkRun_eq_ok : checkRun config name endpoints layers = .ok () ↔
    config.checkName name = .ok () ∧ layers.any = true ∧ endpoints ≠ [] := by
  rw [checkRun]
  cases hname : config.checkName name with
  | error error => simp [bind, Except.bind]
  | ok known =>
      cases layers.any <;> cases endpoints <;>
        simp [bind, Except.bind, throw, throwThe, MonadExceptOf.throw, pure, Except.pure]

theorem Config.isFeatureName_of_checkName (h : config.checkName name = .ok ()) :
    isFeatureName name = true := by
  rw [Config.checkName] at h
  split at h
  · cases h
  · split at h
    · cases h
    · split at h
      · assumption
      · cases h

end Scaffold
