import Scaffold.Proofs.Dart.Mentions
import Scaffold.Proofs.Project.Start
import Scaffold.Proofs.Text.Newlines

/-!
# Layer after layer

Generating the layers of a feature one after the other, each in a run of its own. What a run takes
as done is read off the service file, so the runs up to that of the data layer add up to one run
with all their layers, and the runs behind it change nothing (`generateEach_eq_generate`).
-/

namespace Scaffold

/-- The given layers. -/
def Layers.of (chosen : List Layer) : Layers where
  data := chosen.contains .data
  domain := chosen.contains .domain
  presentation := chosen.contains .presentation

/-- One run for each layer, all with the same endpoints. -/
def generateEach (config : Config) (project name : Text) (endpoints : List Endpoint)
    (order : List Layer) : Work RunError Unit :=
  order.forM fun layer => do
    let _ ← generate config project name endpoints (.of [layer]) .append

/-- The layers up to that of the data. -/
def Layer.upToData (order : List Layer) : List Layer := order.takeWhile (· ≠ .data) ++ [.data]

variable {config : Config} {project name : Text} {endpoints : List Endpoint} {layers : Layers}
  {desk desk' : Desk} {target : Target} {items items' : List Item} {item : Item}
  {start tree tree' : Tree} {feature : Feature} {file : FeatureFile} {folder : Text}
  {chosen : List Layer}

/-! ## What the layers make -/

/-- The files of one layer. -/
def layerFiles (feature : Feature) (endpoints : List Endpoint) : Layer → List FeatureFile
  | .data => modelFiles feature.modelFolder endpoints ++ fullFiles (dataParts feature endpoints)
  | .domain => fullFiles (domainParts feature endpoints)
  | .presentation =>
    fullFiles [blocPart feature endpoints, eventPart feature endpoints,
      statePart feature endpoints] ++ [(screenPath feature.name, renderScreen feature)]

/-- The folders that are made for one layer even without a file in them. -/
def layerFolders (feature : Feature) : Layer → List Text
  | .data => dataFolders feature.modelFolder
  | .domain => domainFolders
  | .presentation => [widgetFolder]

/-- The lists of the chosen layers one after the other. -/
def Layers.rows {α : Type} (layers : Layers) (row : Layer → List α) : List α :=
  (if layers.data then row .data else []) ++ (if layers.domain then row .domain else []) ++
    (if layers.presentation then row .presentation else [])

theorem mem_rows_of {α : Type} {row : Layer → List α} {x : α} :
    x ∈ (Layers.of chosen).rows row ↔ ∃ layer ∈ chosen, x ∈ row layer := by
  simp only [Layers.rows, Layers.of, List.mem_append, List.contains_iff_mem, List.mem_ite_nil_right]
  constructor
  · rintro ((⟨h, hx⟩ | ⟨h, hx⟩) | ⟨h, hx⟩)
    · exact ⟨_, h, hx⟩
    · exact ⟨_, h, hx⟩
    · exact ⟨_, h, hx⟩
  · rintro ⟨layer, h, hx⟩
    cases layer with
    | data => exact .inl (.inl ⟨h, hx⟩)
    | domain => exact .inl (.inr ⟨h, hx⟩)
    | presentation => exact .inr ⟨h, hx⟩

theorem featureFiles_of (chosen : List Layer) :
    featureFiles feature endpoints (.of chosen) =
      (Layers.of chosen).rows (layerFiles feature endpoints) := rfl

theorem featureFolders_of (chosen : List Layer) :
    featureFolders feature (.of chosen) = (Layers.of chosen).rows (layerFolders feature) := by
  rw [featureFolders, Layers.rows]
  cases (Layers.of chosen).presentation <;> rfl

/-- The item that is made of a slot where nothing stands. -/
def Slot.blank (target : Target) : Slot → Item
  | .file path full _ _ => .file (target.path path) full
  | .folder path => .folder (target.path path)

theorem Slot.items_of_fresh {slots : List Slot}
    (h : ∀ slot ∈ slots, (∀ path, slot ≠ .folder path) → tree.get? (slot.place target) = none) :
    Slot.items target slots tree = slots.map (Slot.blank target) := by
  rw [Slot.items, ← List.filterMap_eq_map]
  refine List.filterMap_congr fun slot hslot => ?_
  cases slot with
  | folder path => rfl
  | file path full reads update =>
      have hnone : tree.get? (target.path path).resolve = none :=
        h _ hslot fun other heq => by cases heq
      show ((Slot.file path full reads update).text? (tree.get? (target.path path).resolve)).map _ = _
      rw [hnone]
      rfl

/-- Where nothing stands, a slot can be gone through below a tree that has what is made of it. -/
theorem Slot.allows_of_holds {slot : Slot} {third : Tree}
    (h : tree.get? (slot.place target) = none) (hholds : third.Holds (slot.blank target)) :
    slot.Allows target tree third := by
  cases slot with
  | folder path => exact ⟨hholds.find, hholds.get⟩
  | file path full reads update =>
      refine ⟨hholds.find, ?_⟩
      dsimp only
      rw [h]
      exact ⟨.text full, hholds.get⟩

/-- The items that extending makes where nothing of the layers stands. -/
def Target.freshItems (target : Target) (endpoints : List Endpoint) (layers : Layers) : List Item :=
  (appendSlots target.feature endpoints layers).map (Slot.blank target)

theorem mem_freshItems :
    item ∈ target.freshItems endpoints layers ↔
      item ∈ target.fileItems (featureFiles target.feature endpoints layers) ∨
        item ∈ target.folderItems layers.widgets := by
  have h : (target.freshItems endpoints layers).Perm
      (target.fileItems (featureFiles target.feature endpoints layers) ++
        target.folderItems layers.widgets) :=
    appendSlots_perm (fun _ _ _ _ => rfl) fun _ => rfl
  rw [h.mem_iff, List.mem_append]

theorem freshItems_subset (h : item ∈ target.freshItems endpoints layers) :
    item ∈ target.fullItems endpoints layers := by
  rw [Target.fullItems, List.mem_append]
  rcases mem_freshItems.1 h with h | h
  · exact .inr h
  · obtain ⟨folder, hfolder, rfl⟩ := List.mem_map.1 h
    exact .inl (List.mem_map_of_mem (List.mem_append_right _ hfolder))

theorem mem_fullItems_of :
    item ∈ target.fullItems endpoints (.of chosen) ↔
      ∃ layer ∈ chosen, item ∈ target.fullItems endpoints (.of [layer]) := by
  have hfolders : ∀ chosen : List Layer, ∀ folder,
      folder ∈ featureFolders target.feature (.of chosen) ↔
        ∃ layer ∈ chosen, folder ∈ layerFolders target.feature layer := fun chosen folder => by
    rw [featureFolders_of, mem_rows_of]
  have hfiles : ∀ chosen : List Layer, ∀ file,
      file ∈ featureFiles target.feature endpoints (.of chosen) ↔
        ∃ layer ∈ chosen, file ∈ layerFiles target.feature endpoints layer := fun chosen file => by
    rw [featureFiles_of, mem_rows_of]
  have hitems : ∀ chosen : List Layer, item ∈ target.fullItems endpoints (.of chosen) ↔
      ∃ layer ∈ chosen, (∃ folder ∈ layerFolders target.feature layer,
          Item.folder (target.path folder) = item) ∨
        ∃ file ∈ layerFiles target.feature endpoints layer,
          Item.file (target.path file.1) file.2 = item := by
    intro chosen
    rw [Target.fullItems, List.mem_append, Target.folderItems, Target.fileItems, List.mem_map,
      List.mem_map]
    constructor
    · rintro (⟨folder, hfolder, rfl⟩ | ⟨file, hfile, rfl⟩)
      · obtain ⟨layer, hlayer, hfolder⟩ := (hfolders chosen folder).1 hfolder
        exact ⟨layer, hlayer, .inl ⟨folder, hfolder, rfl⟩⟩
      · obtain ⟨layer, hlayer, hfile⟩ := (hfiles chosen file).1 hfile
        exact ⟨layer, hlayer, .inr ⟨file, hfile, rfl⟩⟩
    · rintro ⟨layer, hlayer, ⟨folder, hfolder, rfl⟩ | ⟨file, hfile, rfl⟩⟩
      · exact .inl ⟨folder, (hfolders chosen folder).2 ⟨layer, hlayer, hfolder⟩, rfl⟩
      · exact .inr ⟨file, (hfiles chosen file).2 ⟨layer, hlayer, hfile⟩, rfl⟩
  rw [hitems]
  constructor
  · rintro ⟨layer, hlayer, hitem⟩
    exact ⟨layer, hlayer, (hitems [layer]).2 ⟨layer, List.mem_singleton_self _, hitem⟩⟩
  · rintro ⟨layer, hlayer, hitem⟩
    obtain ⟨other, hother, hitem⟩ := (hitems [layer]).1 hitem
    rw [List.mem_singleton.1 hother] at hitem
    exact ⟨layer, hlayer, hitem⟩

theorem layer_of_mem_fullItems {layer layer' : Layer} {row : List Text}
    (hplaced : Placed target.feature endpoints)
    (hmodels : target.feature.modelFolder = ("model" : Text))
    (h : item ∈ target.fullItems endpoints (.of [layer]))
    (hown : item.IsOwn target layer' row) : layer' = layer := by
  obtain ⟨other, row', hother, hown'⟩ := owns_fullItems hplaced hmodels h
  rw [(hown.unique hown' rfl).1]
  revert hother
  cases layer <;> cases other <;> decide

/-! ## Single runs -/

theorem generateEach_cons {layer : Layer} {order : List Layer} {outcome : Outcome} {middle : Desk}
    (h : (generate config project name endpoints (.of [layer]) .append).runOn desk =
      (.ok outcome, middle))
    (hrest : (generateEach config project name endpoints order).runOn middle = (.ok (), desk')) :
    (generateEach config project name endpoints (layer :: order)).runOn desk = (.ok (), desk') := by
  have hfirst : (generate config project name endpoints (.of [layer]) .append >>= fun _ =>
      pure ()).runOn desk = (.ok (), middle) := Work.runOn_bind_of_ok h
  exact (Work.runOn_bind_of_ok hfirst).trans hrest

theorem generateEach_append {first second : List Layer} {middle : Desk}
    (h : (generateEach config project name endpoints first).runOn desk = (.ok (), middle))
    (hrest : (generateEach config project name endpoints second).runOn middle = (.ok (), desk')) :
    (generateEach config project name endpoints (first ++ second)).runOn desk =
      (.ok (), desk') := by
  induction first generalizing desk with
  | nil =>
      obtain ⟨-, rfl⟩ := Prod.mk.injEq .. ▸ h
      exact hrest
  | cons layer first ih =>
      obtain ⟨⟨⟩, started, hrun, hfirst⟩ := Work.runOn_bind_eq_ok.1 h
      exact (Work.runOn_bind_of_ok hrun).trans (ih hfirst)


/-- All layers. -/
def Layer.all : List Layer := [.data, .domain, .presentation]

theorem Layer.mem_all (layer : Layer) : layer ∈ Layer.all := by
  cases layer <;> decide

/-- A feature that the project lacks, and the tree in which all its layers are generated at once. -/
structure Config.Whole (config : Config) (target : Target) (endpoints : List Endpoint)
    (start single : Tree) : Prop where
  begins : target.Begins config start
  words : ∀ endpoint ∈ endpoints, IsWord endpoint.methodName
  distinct : (endpoints.map (·.methodName)).Nodup
  ne_nil : endpoints ≠ []
  showable : endpoints.all (·.hasShowableModels) = true
  checked : config.checkName target.feature.name = .ok ()
  found : config.target target.feature.project target.feature.name start = .ok target
  grown : config.Grown target start (target.fullItems endpoints (.of Layer.all)) single

theorem fullItems_ne_nil (h : chosen ≠ []) : target.fullItems endpoints (.of chosen) ≠ [] := by
  obtain ⟨layer, hlayer⟩ := List.exists_mem_of_ne_nil _ h
  have hitem : ∃ item, item ∈ target.fullItems endpoints (.of [layer]) := by
    cases layer with
    | data => exact ⟨_, List.mem_append_left _ List.mem_cons_self⟩
    | domain => exact ⟨_, List.mem_append_left _ List.mem_cons_self⟩
    | presentation => exact ⟨_, List.mem_append_left _ List.mem_cons_self⟩
  obtain ⟨item, hitem⟩ := hitem
  exact List.ne_nil_of_mem (mem_fullItems_of.2 ⟨layer, hlayer, hitem⟩)

theorem Layers.any_of (h : chosen ≠ []) : (Layers.of chosen).any = true := by
  obtain ⟨layer, rest, rfl⟩ := List.exists_cons_of_ne_nil h
  cases layer <;> simp [Layers.any, Layers.of]

theorem service_mem_freshItems (target : Target) (endpoints : List Endpoint) :
    .file target.servicePath (ClassFile.service.render target.feature endpoints) ∈
      target.freshItems endpoints (.of [.data]) := by
  refine mem_freshItems.2 (.inl (List.mem_map.2
    ⟨(_, ClassFile.service.render target.feature endpoints), ?_, rfl⟩))
  rw [featureFiles_of, mem_rows_of]
  exact ⟨.data, List.mem_singleton_self _, List.mem_append_right _ List.mem_cons_self⟩

/-- The file of the service, as the data layer makes it. -/
theorem service_mem_fullItems (hchosen : Layer.data ∈ chosen) :
    .file target.servicePath (ClassFile.service.render target.feature endpoints) ∈
      target.fullItems endpoints (.of chosen) := by
  refine mem_fullItems_of.2 ⟨.data, hchosen, List.mem_append_right _ (List.mem_map.2
    ⟨(_, ClassFile.service.render target.feature endpoints), ?_, rfl⟩)⟩
  rw [featureFiles_of, mem_rows_of]
  exact ⟨.data, List.mem_singleton_self _, List.mem_append_right _ List.mem_cons_self⟩

namespace Config.Whole

variable {single : Tree}

section

variable (h : config.Whole target endpoints start single)

include h

theorem placed : Placed target.feature endpoints :=
  .of_target h.begins.name (fun endpoint hmem => (h.words endpoint hmem).noSlash) h.found

theorem owns_full : target.Owns (target.fullItems endpoints layers) := by
  intro item hitem
  obtain ⟨layer, row, -, hown⟩ := owns_fullItems h.placed h.begins.models hitem
  exact ⟨layer, row, hown⟩

theorem holds (hitem : item ∈ target.fullItems endpoints (.of chosen)) : single.Holds item := by
  obtain ⟨layer, -, hitem⟩ := mem_fullItems_of.1 hitem
  exact h.grown.holds (mem_fullItems_of.2 ⟨layer, layer.mem_all, hitem⟩)

theorem check (hchosen : chosen ≠ []) :
    checkRun config target.feature.name endpoints (.of chosen) = .ok () :=
  checkRun_eq_ok.2 ⟨h.checked, Layers.any_of hchosen, h.ne_nil⟩

theorem service_fits : target.servicePath.Fits :=
  (h.holds (service_mem_fullItems (Layer.mem_all .data))).fits

/-- In the project without the feature, some layers are generated in full. -/
theorem full_run (hdesk : desk.tree = start) (action : ExistsAction) (hchosen : chosen ≠ []) :
    ∃ outcome desk', (generate config target.feature.project target.feature.name endpoints
        (.of chosen) action).runOn desk = (.ok outcome, desk') ∧
      config.Grown target start (target.fullItems endpoints (.of chosen)) desk'.tree ∧
      desk'.tree.Below single := by
  subst hdesk
  exact h.grown.full_run h.begins h.found (h.check hchosen)
    (fun endpoint hmem => (h.words endpoint hmem).noSlash) (fun _ => h.showable)
    (fun item hitem => (h.holds hitem).hasLike) (fullItems_ne_nil hchosen)

/-- A later run finds the feature under the same target. -/
theorem found_later (hgrown : config.Grown target start items tree) :
    config.target target.feature.project target.feature.name tree = .ok target :=
  hgrown.target_eq h.begins h.service_fits

theorem owns_fresh {layer : Layer} {row : List Text} {layer' : Layer}
    (hitem : item ∈ target.freshItems endpoints (.of [layer]))
    (hown : item.IsOwn target layer' row) : layer' = layer :=
  layer_of_mem_fullItems h.placed h.begins.models (freshItems_subset hitem) hown

/-- Nothing stands at the slots of a layer that has not been generated. -/
theorem get?_of_lacks {layer : Layer} {slot : Slot} (hgrown : config.Grown target start items tree)
    (hlacks : target.Lacks items layer)
    (hslot : slot ∈ appendSlots target.feature endpoints (.of [layer])) :
    tree.get? (slot.place target) = none := by
  have hblank : slot.blank target ∈ target.freshItems endpoints (.of [layer]) :=
    List.mem_map_of_mem hslot
  obtain ⟨layer', row, hown⟩ := h.owns_full _ (freshItems_subset hblank)
  obtain rfl := h.owns_fresh hblank hown
  obtain ⟨rel, hpath, hrel⟩ := hown
  have hplace : slot.place target = (target.path rel).resolve := by
    rw [← hpath, Slot.place]
    cases slot <;> rfl
  rw [hplace]
  exact hgrown.get?_of_lacks h.begins hrel hlacks

/-- As long as the data layer has not been generated, a run generates its layer in full. -/
theorem layer_run {layer : Layer} (hgrown : config.Grown target start items desk.tree)
    (hbelow : desk.tree.Below single) (hdata : target.Lacks items .data)
    (hlacks : target.Lacks items layer) :
    ∃ outcome desk', (generate config target.feature.project target.feature.name endpoints
        (.of [layer]) .append).runOn desk = (.ok outcome, desk') ∧
      config.Grown target start (items ++ target.freshItems endpoints (.of [layer])) desk'.tree ∧
      desk'.tree.Below single := by
  have hmethods : ∀ endpoint ∈ endpoints, '/' ∉ endpoint.methodName :=
    fun endpoint hmem => (h.words endpoint hmem).noSlash
  have hsound := hgrown.sound h.begins.lacks.sound
  have hfolder := h.begins.folder ▸ hgrown.folder
  have hfound := h.found_later hgrown
  have hservice := hgrown.readService_of_lacks h.begins h.service_fits hdata
  have hadmitted : (target.admission [] endpoints).admitted = endpoints :=
    admitted_of_nil _ h.distinct fun endpoint hmem => (h.words endpoint hmem).ne_nil
  have hnew : (target.admission [] endpoints).admitted ≠ [] := by
    rw [hadmitted]
    exact h.ne_nil
  have hholds : ∀ slot ∈ appendSlots target.feature endpoints (.of [layer]),
      single.Holds (slot.blank target) := fun slot hslot =>
    h.holds (freshItems_subset (List.mem_map_of_mem hslot))
  have hallows : ∀ slot ∈ appendSlots target.feature endpoints (.of [layer]),
      slot.Allows target desk.tree single := fun slot hslot =>
    Slot.allows_of_holds (h.get?_of_lacks hgrown hlacks hslot) (hholds slot hslot)
  obtain ⟨outcome, desk', hrun⟩ : ∃ outcome desk', (generateAppend config target.feature.project
      target.feature.name endpoints (.of [layer])).runOn desk = (.ok outcome, desk') :=
    generateAppend_runOn h.begins.name hmethods hsound hfolder hfound hservice hnew hbelow
      (by rw [hadmitted]; exact fun _ => h.showable) (by rw [hadmitted]; exact hallows)
      fun middle hmiddle => .inl (hmiddle.below.has hgrown.has)
  have hmakes : desk.tree.Makes (target.freshItems endpoints (.of [layer])) desk'.tree := by
    obtain ⟨target', content, htarget, hcontent, -, hcases⟩ :=
      generateAppend_makes h.begins.name hmethods hsound hfolder hrun
    obtain rfl : target = target' := Except.ok.inj (hfound.symm.trans htarget)
    obtain rfl : [] = content := Except.ok.inj (hservice.symm.trans hcontent)
    rcases hcases with ⟨hempty, -⟩ | ⟨-, ⟨middle, hextended⟩, -⟩
    · exact absurd hempty hnew
    · have hslots := hextended.makes hgrown.has
      rw [hadmitted] at hslots
      rwa [Slot.items_of_fresh fun slot hslot _ => h.get?_of_lacks hgrown hlacks hslot] at hslots
  refine ⟨outcome, desk', generate_of_present (h.check (List.cons_ne_nil _ _))
    (hgrown.featureExists h.begins) hrun, ?_, ?_⟩
  · refine hgrown.extend h.begins hmakes ?_ ?_ (fun item hitem => ⟨item, hitem, rfl⟩) ?_
    · refine List.forall_mem_append.2 ⟨hgrown.owns, fun item hitem => ?_⟩
      exact h.owns_full item (freshItems_subset hitem)
    · exact List.append_ne_nil_of_left_ne_nil hgrown.ne_nil _
    · intro item hitem
      rcases List.mem_append.1 hitem with hold | hnewItem
      · refine .inr ⟨hold, ?_⟩
        rintro path text rfl made hmade hplace
        obtain ⟨layer', row, hown⟩ := hgrown.owns _ hold
        obtain ⟨layer'', row', hown'⟩ := h.owns_full made (freshItems_subset hmade)
        obtain rfl := h.owns_fresh hmade hown'
        exact absurd (hown.unique hown' hplace.symm).1 (hlacks _ hold _ _ hown)
      · exact .inl hnewItem
  · refine hmakes.below_of hbelow fun item hitem => ?_
    obtain ⟨slot, hslot, rfl⟩ := List.mem_map.1 hitem
    exact (hholds slot hslot).hasLike

/-- The service file of the data layer has all methods as members. -/
theorem hasMember_service {endpoint : Endpoint} (hmem : endpoint ∈ endpoints) :
    hasMember (universalNewlines (ClassFile.service.render target.feature endpoints))
      endpoint.methodName = true :=
  hasMember_universalNewlines (h.words endpoint hmem)
    ((ClassFile.service.mentions_render hmem).hasMember (h.words endpoint hmem))

/-- Once the data layer has been generated, a run changes nothing. -/
theorem idle_run (layer : Layer) (hgrown : config.Grown target start items desk.tree)
    (hservice : .file target.servicePath (ClassFile.service.render target.feature endpoints) ∈
      items) :
    ∃ outcome desk', (generate config target.feature.project target.feature.name endpoints
        (.of [layer]) .append).runOn desk = (.ok outcome, desk') ∧ desk'.tree = desk.tree := by
  have hread := Target.readService_of_holds (hgrown.holds hservice)
  have hempty : (target.admission (universalNewlines (ClassFile.service.render target.feature
      endpoints)) endpoints).admitted = [] :=
    admitted_eq_nil _ fun endpoint hmem => .inr (h.hasMember_service hmem)
  obtain ⟨outcome, desk', hrun, htree, -⟩ : ∃ outcome desk', (generateAppend config
      target.feature.project target.feature.name endpoints (.of [layer])).runOn desk =
        (.ok outcome, desk') ∧ desk'.tree = desk.tree ∧ outcome.filesWritten = [] :=
    generateAppend_idle (h.found_later hgrown) hread hempty
  exact ⟨outcome, desk', generate_of_present (h.check (List.cons_ne_nil _ _))
    (hgrown.featureExists h.begins) hrun, htree⟩

/-- Runs for layers before that of the data generate their layers in full. -/
theorem layer_runs (order : List Layer) (hgrown : config.Grown target start items desk.tree)
    (hbelow : desk.tree.Below single) (hdata : target.Lacks items .data)
    (hlacks : ∀ layer ∈ order, target.Lacks items layer) (hnodup : order.Nodup)
    (horder : .data ∉ order) :
    ∃ desk', (generateEach config target.feature.project target.feature.name endpoints
        order).runOn desk = (.ok (), desk') ∧
      config.Grown target start
        (items ++ order.flatMap fun layer => target.freshItems endpoints (.of [layer]))
        desk'.tree ∧
      desk'.tree.Below single := by
  induction order generalizing desk items with
  | nil => exact ⟨desk, rfl, by simpa using hgrown, hbelow⟩
  | cons layer order ih =>
      obtain ⟨hlayer, hnodup⟩ := List.nodup_cons.1 hnodup
      rw [List.mem_cons, not_or] at horder
      obtain ⟨outcome, middle, hrun, hmiddle, hbelow'⟩ :=
        h.layer_run hgrown hbelow hdata (hlacks layer List.mem_cons_self)
      have hmore : ∀ other : Layer, other ≠ layer → target.Lacks items other →
          target.Lacks (items ++ target.freshItems endpoints (.of [layer])) other := by
        intro other hne hother item hitem layer' row hown
        rcases List.mem_append.1 hitem with hitem | hitem
        · exact hother item hitem layer' row hown
        · rw [h.owns_fresh hitem hown]
          exact hne.symm
      obtain ⟨desk', hrest, hgrown', hbelow''⟩ := ih hmiddle hbelow' (hmore _ horder.1 hdata)
        (fun other hother => hmore other (fun heq => hlayer (heq ▸ hother))
          (hlacks other (List.mem_cons_of_mem _ hother))) hnodup horder.2
      refine ⟨desk', generateEach_cons hrun hrest, ?_, hbelow''⟩
      rw [List.flatMap_cons, ← List.append_assoc]
      exact hgrown'

/-- Runs behind that of the data layer change nothing. -/
theorem idle_runs (order : List Layer) (hgrown : config.Grown target start items desk.tree)
    (hservice : .file target.servicePath (ClassFile.service.render target.feature endpoints) ∈
      items) :
    ∃ desk', (generateEach config target.feature.project target.feature.name endpoints
        order).runOn desk = (.ok (), desk') ∧ desk'.tree = desk.tree := by
  induction order generalizing desk with
  | nil => exact ⟨desk, rfl, rfl⟩
  | cons layer order ih =>
      obtain ⟨outcome, middle, hrun, htree⟩ := h.idle_run layer hgrown hservice
      obtain ⟨desk', hrest, htree'⟩ := ih (htree ▸ hgrown)
      exact ⟨desk', generateEach_cons hrun hrest, htree'.trans htree⟩

end

end Config.Whole

/-! ## Comparing trees -/

/-- The place of the folder for models. -/
def Target.modelPlace (target : Target) : Path :=
  (target.path (modelFolderPath target.feature.modelFolder)).resolve

/-- A folder of a layer is that of the models or the widgets, or one of its files lies in it. -/
theorem layerFolders_cases (endpoints : List Endpoint) {layer : Layer} (hname : FeatureName feature.name)
    (h : folder ∈ layerFolders feature layer) :
    (layer = .data ∧ folder = modelFolderPath feature.modelFolder) ∨
      (layer = .presentation ∧ folder = widgetFolder) ∨ ∃ file ∈ layerFiles feature endpoints layer, ∃ row last,
        Path.Relative folder row ∧ Path.Relative file.1 (row ++ [last]) := by
  have hsource : ∀ source : SourceFile, ∀ text,
      ((source.part feature endpoints).path, text) ∈ layerFiles feature endpoints layer →
      ∃ file ∈ layerFiles feature endpoints layer, ∃ row last,
        Path.Relative source.folderText row ∧ Path.Relative file.1 (row ++ [last]) := by
    intro source text hmem
    have hsited : Sited ((source.part feature endpoints).path, text) source.folder
        (feature.name ++ source.ending) := source.sited hname text
    exact ⟨_, hmem, source.folder, _, source.relative_folder, hsited.relative⟩
  cases layer with
  | data =>
      rcases List.mem_cons.1 h with rfl | h
      · exact .inl ⟨rfl, rfl⟩
      refine .inr (.inr ?_)
      simp only [List.mem_cons, List.not_mem_nil, or_false] at h
      rcases h with rfl | rfl | rfl
      · exact hsource (.ofClass .service) _ (List.mem_append_right _ List.mem_cons_self)
      · exact hsource (.ofClass .source) _
          (List.mem_append_right _ (List.mem_cons_of_mem _ List.mem_cons_self))
      · exact hsource (.ofClass .repositoryImpl) _ (List.mem_append_right _ (List.mem_cons_of_mem _
          (List.mem_cons_of_mem _ (List.mem_cons_of_mem _ List.mem_cons_self))))
  | domain =>
      refine .inr (.inr ?_)
      simp only [layerFolders, domainFolders, List.mem_cons, List.not_mem_nil, or_false] at h
      rcases h with rfl | rfl
      · exact hsource (.ofClass .repository) _ List.mem_cons_self
      · exact hsource (.ofClass .useCases) _ (List.mem_cons_of_mem _ List.mem_cons_self)
  | presentation => exact .inr (.inl ⟨rfl, List.mem_singleton.1 h⟩)

theorem places_of_relative {folder file : Text} {row : List Text} {last : Text}
    (hfolder : Path.Relative folder row) (hfile : Path.Relative file (row ++ [last])) :
    (target.path folder).places ⊆ (target.path file).places := by
  rw [Target.path, Target.path, Path.join_of_relative hfolder.relative, hfolder.names,
    Path.join_of_relative hfile.relative, hfile.names, ← List.append_assoc]
  exact Path.places_subset_append _ _

/-- The way to the folder for models is that to the file of the service, its end apart. -/
theorem places_modelFolder (hname : FeatureName target.feature.name)
    (hmodels : target.feature.modelFolder = ("model" : Text)) {place : Path}
    (hplace : place ∈ (target.path (modelFolderPath target.feature.modelFolder)).places) :
    place ∈ target.servicePath.places ∨ place = target.modelPlace := by
  have hrel : Path.Relative (modelFolderPath target.feature.modelFolder)
      ([("data" : Text)] ++ [target.feature.modelFolder]) := relative_modelFolder (.inl hmodels)
  rcases List.mem_append.1 hplace with hpassed | hlast
  · rw [Target.path, Path.join_of_relative hrel.relative, hrel.names, ← List.append_assoc,
      Path.passed_concat] at hpassed
    rw [Target.servicePath_eq hname]
    have hsub := Path.places_subset_append (target.folder ++ [("data" : Text)])
      [("remote" : Text), "service", target.feature.name ++ ("_service.dart" : Text)] hpassed
    rw [List.append_assoc] at hsub
    exact .inl hsub
  · exact .inr (List.mem_singleton.1 hlast)

theorem Target.Begins.modelPlace_eq (h : target.Begins config start) :
    target.modelPlace = target.folder.resolve ++ [("data" : Text), "model"] := by
  have hrel : Path.Relative (modelFolderPath "model") [("data" : Text), "model"] :=
    relative_modelFolder (.inl rfl)
  rw [Target.modelPlace, h.models, Target.path, Path.resolve_join hrel]

theorem exists_modelFile (feature : Feature) {endpoint : Endpoint} (hmem : endpoint ∈ endpoints)
    (h : endpoint.requiredModels ≠ []) :
    ∃ file, file ∈ modelFiles feature.modelFolder endpoints := by
  obtain ⟨file, hfile⟩ : ∃ file, file ∈ endpoint.modelFiles feature.modelFolder := by
    rw [Endpoint.requiredModels] at h
    rw [Endpoint.modelFiles]
    cases hbody : endpoint.body with
    | some body => exact ⟨_, List.mem_append_left _ (List.mem_singleton_self _)⟩
    | none =>
        cases hschema : endpoint.responseSchema? with
        | some schema => exact ⟨_, List.mem_append_right _ (List.mem_singleton_self _)⟩
        | none => simp [hbody, hschema] at h
  obtain ⟨other, hother, -⟩ := exists_mem_modelFiles (List.mem_flatMap.2 ⟨endpoint, hmem, hfile⟩)
  exact ⟨other, hother⟩

namespace Config.Whole

variable {single : Tree}

/-- The runs up to that of the data layer make what one run makes, the folder for models apart. -/
theorem agree (h : config.Whole target endpoints start single) (hdata : .data ∈ chosen)
    (hgrown : config.Grown target start items tree)
    (hgrown' : config.Grown target start (target.fullItems endpoints (.of chosen)) tree')
    (hsub : ∀ item ∈ items, item ∈ target.fullItems endpoints (.of chosen))
    (hfresh : ∀ layer ∈ chosen, ∀ item ∈ target.freshItems endpoints (.of [layer]), item ∈ items)
    {place : Path}
    (hplace : place ≠ target.modelPlace ∨ ∃ endpoint ∈ endpoints, endpoint.requiredModels ≠ []) :
    tree.get? place = tree'.get? place := by
  refine hgrown.makes.agree_at hgrown'.makes ?_
  by_cases hmem : ∃ item ∈ items ++ config.missingErrors target.feature.name start,
      place ∈ item.path.places
  · obtain ⟨item, hitem, hin⟩ := hmem
    refine .inl ⟨item, hitem, ?_, hin⟩
    rcases List.mem_append.1 hitem with hitem | hitem
    · exact List.mem_append_left _ (hsub item hitem)
    · exact List.mem_append_right _ hitem
  · have hout : ∀ item ∈ items ++ config.missingErrors target.feature.name start,
        place ∉ item.path.places := fun item hitem hin => hmem ⟨item, hitem, hin⟩
    have hfile : ∀ layer ∈ chosen, ∀ file ∈ layerFiles target.feature endpoints layer,
        place ∉ (target.path file.1).places := by
      intro layer hlayer file hfile
      refine hout (.file (target.path file.1) file.2) (List.mem_append_left _ (hfresh layer hlayer _ ?_))
      refine mem_freshItems.2 (.inl (List.mem_map.2 ⟨file, ?_, rfl⟩))
      rw [featureFiles_of, mem_rows_of]
      exact ⟨layer, List.mem_singleton_self _, hfile⟩
    refine .inr (List.forall_mem_append.2 ⟨hout, List.forall_mem_append.2 ⟨fun item hitem hin => ?_,
      fun item hitem => hout item (List.mem_append_right _ hitem)⟩⟩)
    rcases List.mem_append.1 hitem with hitem | hitem
    · obtain ⟨folder, hfolder, rfl⟩ := List.mem_map.1 hitem
      rw [featureFolders_of, mem_rows_of] at hfolder
      obtain ⟨layer, hlayer, hfolder⟩ := hfolder
      rcases layerFolders_cases endpoints h.begins.name hfolder with
        ⟨-, rfl⟩ | ⟨rfl, rfl⟩ | ⟨file, hmemFile, row, last, hrel, hrelFile⟩
      · rcases places_modelFolder h.begins.name h.begins.models hin with hservice | hlast
        · exact hfile .data hdata (_, ClassFile.service.render target.feature endpoints)
            (List.mem_append_right _ List.mem_cons_self) hservice
        · rcases hplace with hne | ⟨endpoint, hmemEndpoint, hmodels⟩
          · exact hne hlast
          · obtain ⟨file, hmodel⟩ := exists_modelFile target.feature hmemEndpoint hmodels
            obtain ⟨model, -, hrel⟩ := relative_of_mem_models h.placed hmodel
            exact hfile .data hdata file (List.mem_append_left _ hmodel)
              (places_of_relative (relative_modelFolder (.inl h.begins.models)) hrel hin)
      · refine hout (.folder (target.path widgetFolder)) (List.mem_append_left _
          (hfresh .presentation hlayer _ ?_)) hin
        exact mem_freshItems.2 (.inr List.mem_cons_self)
      · exact hfile layer hlayer file hmemFile (places_of_relative hrel hrelFile hin)
    · obtain ⟨file, hmemFile, rfl⟩ := List.mem_map.1 hitem
      rw [featureFiles_of, mem_rows_of] at hmemFile
      obtain ⟨layer, hlayer, hmemFile⟩ := hmemFile
      exact hfile layer hlayer file hmemFile hin

/-- If no endpoint needs a model, extending the data layer makes no folder for models. -/
theorem not_prefix_of_fresh (h : config.Whole target endpoints start single)
    (hmodels : ∀ endpoint ∈ endpoints, endpoint.requiredModels = []) {row : List Text}
    {layer : Layer} (hitem : item ∈ target.freshItems endpoints (.of [.data]))
    (hown : item.IsOwn target layer row) : ¬ [("data" : Text), "model"] <+: row := by
  have hempty : modelFiles target.feature.modelFolder endpoints = [] := by
    rw [List.eq_nil_iff_forall_not_mem]
    intro file hfile
    obtain ⟨endpoint, hmem, model, hmodel, -⟩ := exists_of_mem_modelFiles hfile
    rw [hmodels endpoint hmem] at hmodel
    cases hmodel
  rcases mem_freshItems.1 hitem with hitem | hitem
  · obtain ⟨file, hfile, rfl⟩ := List.mem_map.1 hitem
    rw [featureFiles_of, mem_rows_of] at hfile
    obtain ⟨layer', hlayer', hfile⟩ := hfile
    obtain rfl := List.mem_singleton.1 hlayer'
    rw [layerFiles, hempty, List.nil_append] at hfile
    obtain ⟨part, hpart, rfl⟩ := List.mem_map.1 hfile
    obtain ⟨kind, -, rfl⟩ := List.mem_map.1 hpart
    have hsource := own_source h.begins.name (.ofClass kind)
    have hsame : row = (SourceFile.ofClass kind).row target.feature.name :=
      (hown.unique ⟨_, rfl, hsource⟩ rfl).2
    rintro ⟨rest, hrest⟩
    obtain ⟨hlength, hmodel, -⟩ := (SourceFile.ofClass kind).folder_second
    rw [hsame, SourceFile.row] at hrest
    have hsecond := congrArg (·[1]?) hrest
    rw [List.getElem?_append_left (Nat.lt_of_lt_of_le Nat.one_lt_two hlength)] at hsecond
    exact hmodel hsecond.symm
  · obtain ⟨folder, hfolder, -⟩ := List.mem_map.1 hitem
    cases hfolder

/-- What the runs for the layers of a row make, that of the data layer among them. -/
theorem each_run (h : config.Whole target endpoints start single) {before : List Layer}
    (after : List Layer) (hdesk : desk.tree = start) (hbefore : Layer.data ∉ before) (hnodup : before.Nodup) :
    ∃ desk' items, (generateEach config target.feature.project target.feature.name endpoints
        (before ++ .data :: after)).runOn desk = (.ok (), desk') ∧
      config.Grown target start items desk'.tree ∧
      (∀ item ∈ items, item ∈ target.fullItems endpoints (.of (before ++ [.data]))) ∧
      (∀ layer ∈ before ++ [.data], ∀ item ∈ target.freshItems endpoints (.of [layer]),
        item ∈ items) ∧
      (before ≠ [] → (∀ endpoint ∈ endpoints, endpoint.requiredModels = []) →
        desk'.tree.get? target.modelPlace = none) ∧
      (before = [] → items = target.fullItems endpoints (.of [.data])) := by
  cases before with
  | nil =>
      obtain ⟨outcome, middle, hrun, hgrown, -⟩ :=
        h.full_run hdesk .append (List.cons_ne_nil .data [])
      have hservice : .file target.servicePath
          (ClassFile.service.render target.feature endpoints) ∈
            target.fullItems endpoints (.of [.data]) :=
        service_mem_fullItems (List.mem_singleton_self Layer.data)
      obtain ⟨desk', hrest, htree⟩ := h.idle_runs after hgrown hservice
      refine ⟨desk', _, generateEach_cons hrun hrest, htree ▸ hgrown, fun item hitem => hitem,
        fun layer hlayer item hitem => ?_, fun hne => absurd rfl hne, fun _ => rfl⟩
      rw [List.mem_singleton.1 hlayer] at hitem
      exact freshItems_subset hitem
  | cons first others =>
      obtain ⟨hfirst, hnodup⟩ := List.nodup_cons.1 hnodup
      rw [List.mem_cons, not_or] at hbefore
      obtain ⟨outcome, started, hrun, hstarted, hbelow⟩ :=
        h.full_run hdesk .append (List.cons_ne_nil first [])
      have hlacks : ∀ layer, layer ≠ first →
          target.Lacks (target.fullItems endpoints (.of [first])) layer := by
        intro layer hne item hitem layer' row hown heq
        rw [layer_of_mem_fullItems h.placed h.begins.models hitem hown] at heq
        exact hne heq.symm
      obtain ⟨middle, hothers, hmiddle, hbelow⟩ := h.layer_runs others hstarted hbelow
        (hlacks .data hbefore.1) (fun layer hlayer => hlacks layer fun heq => hfirst (heq ▸ hlayer))
        hnodup hbefore.2
      have hdata : target.Lacks (target.fullItems endpoints (.of [first]) ++
          others.flatMap fun layer => target.freshItems endpoints (.of [layer])) .data := by
        intro item hitem layer' row hown heq
        rcases List.mem_append.1 hitem with hitem | hitem
        · exact hlacks .data hbefore.1 item hitem layer' row hown heq
        · obtain ⟨layer, hlayer, hitem⟩ := List.mem_flatMap.1 hitem
          rw [h.owns_fresh hitem hown] at heq
          exact hbefore.2 (heq ▸ hlayer)
      obtain ⟨outcome', last, hlast, hgrown, -⟩ := h.layer_run hmiddle hbelow hdata hdata
      have hservice := service_mem_freshItems target endpoints
      obtain ⟨desk', hrest, htree⟩ := h.idle_runs after hgrown (List.mem_append_right _ hservice)
      refine ⟨desk', _, generateEach_cons hrun (generateEach_append hothers
        (generateEach_cons hlast hrest)), htree ▸ hgrown, fun item hitem => ?_,
        fun layer hlayer item hitem => ?_, fun _ hmodels => ?_, nofun⟩
      · rw [mem_fullItems_of]
        rcases List.mem_append.1 hitem with hitem | hitem
        · rcases List.mem_append.1 hitem with hitem | hitem
          · exact ⟨first, by simp, hitem⟩
          · obtain ⟨layer, hlayer, hitem⟩ := List.mem_flatMap.1 hitem
            exact ⟨layer, by simp [hlayer], freshItems_subset hitem⟩
        · exact ⟨.data, by simp, freshItems_subset hitem⟩
      · rcases List.mem_append.1 hlayer with hlayer | hlayer
        · refine List.mem_append_left _ ?_
          rcases List.mem_cons.1 hlayer with rfl | hlayer
          · exact List.mem_append_left _ (freshItems_subset hitem)
          · exact List.mem_append_right _ (List.mem_flatMap.2 ⟨layer, hlayer, hitem⟩)
        · rw [List.mem_singleton.1 hlayer] at hitem
          exact List.mem_append_right _ hitem
      · have hhead : ([("data" : Text), "model"] : List Text).head? = some Layer.data.folder := rfl
        rw [htree, h.begins.modelPlace_eq]
        refine hgrown.get?_eq_none h.begins hhead fun item hitem layer row hown hpre => ?_
        rcases List.mem_append.1 hitem with hitem | hitem
        · refine hdata item hitem layer row hown ?_
          obtain ⟨rel, -, hrel⟩ := hown
          obtain ⟨rest, rfl⟩ := hpre
          have hsame : some Layer.data.folder = some layer.folder := hrel.head
          exact (Layer.folder_injective (Option.some.inj hsame)).symm
        · exact h.not_prefix_of_fresh hmodels hitem hown hpre

end Config.Whole

/-! ## Whole orders -/

/-- A run that generates all layers in a project without the feature. -/
theorem Config.Whole.of_run {action : ExistsAction} {outcome : Outcome}
    (hstart : config.Lacks name desk.tree)
    (hwords : ∀ endpoint ∈ endpoints, IsWord endpoint.methodName)
    (hdistinct : (endpoints.map (·.methodName)).Nodup)
    (h : (generate config project name endpoints {} action).runOn desk = (.ok outcome, desk')) :
    config.Whole (config.freshTarget project name) endpoints desk.tree desk'.tree ∧
      (generateFull config project name endpoints {}).runOn desk = (.ok outcome, desk') := by
  obtain ⟨hcheck, hrun⟩ := generate_eq_ok h
  obtain ⟨hchecked, -, hne⟩ := checkRun_eq_ok.1 hcheck
  have hname := FeatureName.of_isFeatureName (Config.isFeatureName_of_checkName hchecked)
  have habsent : config.featureExists name desk.tree ≠ .ok true := fun hexists =>
    hstart.absent (Tree.hasFolder_eq_true_iff.1 hexists).2
  have hitems : (config.freshTarget project name).fullItems endpoints (.of Layer.all) ≠ [] :=
    fullItems_ne_nil (List.cons_ne_nil _ _)
  rcases hrun with ⟨-, hrun⟩ | ⟨⟨hexists, -⟩, -⟩ | ⟨⟨hexists, -⟩, -⟩
  · obtain ⟨hbegins, hfound, hshowable, hgrown⟩ := generateFull_first hstart hname
      (fun endpoint hmem => (hwords endpoint hmem).noSlash)
      hitems hrun
    exact ⟨⟨hbegins, hwords, hdistinct, hne, hshowable rfl, hchecked, hfound, hgrown⟩, hrun⟩
  · exact absurd hexists habsent
  · exact absurd hexists habsent

theorem Layers.of_perm {order order' : List Layer} (h : order.Perm order') :
    Layers.of order = Layers.of order' := by
  simp only [Layers.of, List.contains_eq_mem, h.mem_iff]

theorem Layer.upToData_append {before after : List Layer} (h : Layer.data ∉ before) :
    Layer.upToData (before ++ .data :: after) = before ++ [.data] := by
  have hall : ∀ layer ∈ before, decide (layer ≠ .data) = true := fun layer hlayer =>
    decide_eq_true fun heq => h (heq ▸ hlayer)
  rw [Layer.upToData, List.takeWhile_append_of_pos hall]
  simp

/-- Generating the layers one after the other, in any order, leaves the tree that one run with the
layers up to that of the data leaves. Only the folder for models is missing if no endpoint needs a
model and the data layer is not the first one. If the data layer is the last one, this is the tree
of one run with all layers. -/
theorem generateEach_eq_generate {order : List Layer} {action : ExistsAction} {outcome : Outcome}
    {single : Desk} (hstart : config.Lacks name desk.tree)
    (hwords : ∀ endpoint ∈ endpoints, IsWord endpoint.methodName)
    (hdistinct : (endpoints.map (·.methodName)).Nodup)
    (horder : order.Perm [.data, .domain, .presentation])
    (hsingle : (generate config project name endpoints {} action).runOn desk =
      (.ok outcome, single)) :
    ∃ layered outcome' reference,
      (generateEach config project name endpoints order).runOn desk = (.ok (), layered) ∧
      (generate config project name endpoints (.of (Layer.upToData order)) .append).runOn desk =
        (.ok outcome', reference) ∧
      (order.getLast? = some .data → reference.tree = single.tree) ∧
      ∀ place, layered.tree.get? place =
        if order.head? ≠ some .data ∧ (∀ endpoint ∈ endpoints, endpoint.requiredModels = []) ∧
            place = (config.freshTarget project name).modelPlace then none
        else reference.tree.get? place := by
  obtain ⟨hwhole, hrunSingle⟩ := Config.Whole.of_run hstart hwords hdistinct hsingle
  have hmem : Layer.data ∈ order := horder.mem_iff.2 (Layer.mem_all .data)
  have hnodup : order.Nodup := horder.nodup_iff.2 (by decide)
  obtain ⟨before, after, rfl, hbefore⟩ := List.eq_append_cons_of_mem hmem
  obtain ⟨hnodupBefore, hnodupAfter, -⟩ := List.nodup_append.1 hnodup
  obtain ⟨layered, items, hlayered, hgrown, hsub, hfresh, hmissing, hsame⟩ :=
    hwhole.each_run after rfl hbefore hnodupBefore
  obtain ⟨outcome', reference, hreference, hgrown', -⟩ := hwhole.full_run rfl .append
    (List.append_ne_nil_of_right_ne_nil before (List.cons_ne_nil .data []))
  rw [Layer.upToData_append hbefore]
  refine ⟨layered, outcome', reference, hlayered, hreference, fun hlast => ?_, fun place => ?_⟩
  · have hafter : after = [] := by
      rcases List.eq_nil_or_concat after with hnil | ⟨front, last, rfl⟩
      · exact hnil
      · rw [List.concat_eq_append, ← List.cons_append, ← List.append_assoc, List.getLast?_concat,
          Option.some.injEq] at hlast
        refine absurd ?_ (List.nodup_cons.1 hnodupAfter).1
        rw [hlast]
        simp
    subst hafter
    rw [Layers.of_perm horder] at hreference
    obtain ⟨-, hrun⟩ := Config.Whole.of_run hstart hwords hdistinct hreference
    rw [(Prod.mk.inj (hrunSingle.symm.trans hrun)).2]
  · split
    · next hexception =>
      obtain ⟨hhead, hmodels, rfl⟩ := hexception
      refine hmissing ?_ hmodels
      rintro rfl
      exact hhead rfl
    · next hplace =>
      by_cases hnil : before = []
      · subst hnil
        obtain rfl := hsame rfl
        exact hgrown.makes.agree hgrown'.makes (fun _ => Iff.rfl) place
      · refine hwhole.agree (by simp) hgrown hgrown' hsub hfresh ?_
        obtain ⟨first, others, rfl⟩ := List.exists_cons_of_ne_nil hnil
        have hhead : (first :: others ++ .data :: after).head? ≠ some Layer.data := fun heq =>
          hbefore (by simp [Option.some.inj heq])
        by_contra hnone
        rw [not_or, not_not] at hnone
        refine hplace ⟨hhead, fun endpoint hendpoint => ?_, hnone.1⟩
        by_contra hmodels
        exact hnone.2 ⟨endpoint, hendpoint, hmodels⟩

/-- An endpoint that needs no model. -/
def pingEndpoint : Endpoint where
  path := "/ping"
  method := "get"
  operationId := some "ping"

/-- The single run for one endpoint in an empty file system returns. -/
theorem ping_returns : returns ((generate {} "shop" "news" [pingEndpoint]).runOn ⟨{}, []⟩) = true := by
  decide +kernel

theorem ping_lacks : Config.Lacks {} "news" {} :=
  Config.lacks_of_empty rfl (by decide) (by decide)

theorem ping_words : ∀ endpoint ∈ [pingEndpoint], IsWord endpoint.methodName :=
  List.forall_mem_singleton.2 ⟨by decide, by decide⟩

theorem ping_distinct : ([pingEndpoint].map (·.methodName)).Nodup := by
  decide

/-- Layer after layer, that of the domain first. -/
theorem generateEach_ping : ∃ outcome single layered outcome' reference,
    (generate {} "shop" "news" [pingEndpoint]).runOn ⟨{}, []⟩ = (.ok outcome, single) ∧
      (generateEach {} "shop" "news" [pingEndpoint] [.domain, .data, .presentation]).runOn ⟨{}, []⟩ =
        (.ok (), layered) ∧
      (generate {} "shop" "news" [pingEndpoint] (.of [.domain, .data]) .append).runOn ⟨{}, []⟩ =
        (.ok outcome', reference) ∧
      ∀ place, layered.tree.get? place =
        if place = ["lib", "features", "news", "data", "model"] then none
        else reference.tree.get? place := by
  obtain ⟨outcome, single, hsingle⟩ := exists_of_returns ping_returns
  have horder : [Layer.domain, .data, .presentation].Perm [.data, .domain, .presentation] := by decide
  obtain ⟨layered, outcome', reference, hlayered, hreference, -, hagree⟩ :=
    generateEach_eq_generate ping_lacks ping_words ping_distinct horder hsingle
  refine ⟨outcome, single, layered, outcome', reference, hsingle, hlayered, hreference,
    fun place => ?_⟩
  have hplace : (Config.freshTarget {} "shop" "news").modelPlace =
      ["lib", "features", "news", "data", "model"] := by
    decide
  rw [hagree, hplace]
  exact if_congr ⟨fun h => h.2.2, fun h => ⟨by decide, by decide, h⟩⟩ rfl rfl

/-- With the data layer first, the other layers are never generated. -/
theorem generateEach_ne_generate :
    ¬ ∀ (config : Config) (project name : Text) (endpoints : List Endpoint) (order : List Layer)
      (desk single : Desk) (outcome : Outcome), config.Lacks name desk.tree →
      (∀ endpoint ∈ endpoints, IsWord endpoint.methodName) →
      (endpoints.map (·.methodName)).Nodup → order.Perm [.data, .domain, .presentation] →
      (generate config project name endpoints).runOn desk = (.ok outcome, single) →
      ∃ layered, (generateEach config project name endpoints order).runOn desk = (.ok (), layered) ∧
        ∀ place, layered.tree.get? place = single.tree.get? place := by
  intro h
  obtain ⟨outcome, single, hsingle⟩ := exists_of_returns ping_returns
  obtain ⟨layered, hlayered, hagree⟩ := h {} "shop" "news" [pingEndpoint]
    [.data, .domain, .presentation] ⟨{}, []⟩ single outcome ping_lacks ping_words ping_distinct
    (List.Perm.refl _) hsingle
  obtain ⟨hwhole, -⟩ := Config.Whole.of_run ping_lacks ping_words ping_distinct hsingle
  obtain ⟨layered', items, hlayered', hgrown, -, -, -, hsame⟩ :=
    hwhole.each_run [.domain, .presentation] rfl List.not_mem_nil List.nodup_nil
  obtain rfl : layered = layered' := (Prod.mk.inj (hlayered.symm.trans hlayered')).2
  obtain rfl := hsame rfl
  have hown := own_source hwhole.begins.name (.ofClass .repository)
  have hnone := hgrown.get?_of_lacks hwhole.begins hown fun item hitem layer row hitemOwn heq => by
    rw [layer_of_mem_fullItems hwhole.placed hwhole.begins.models hitem hitemOwn] at heq
    exact absurd heq (by decide)
  have hmem : Item.file ((Config.freshTarget {} "shop" "news").path
      ((SourceFile.ofClass .repository).path "news"))
      (ClassFile.repository.render ⟨"shop", "news", "model"⟩ [pingEndpoint]) ∈
        (Config.freshTarget {} "shop" "news").fullItems [pingEndpoint] (.of [.domain]) :=
    List.mem_append_right _ List.mem_cons_self
  have hget := (hwhole.holds hmem).get
  rw [← hagree] at hget
  exact absurd (hnone.symm.trans hget) nofun

end Scaffold
