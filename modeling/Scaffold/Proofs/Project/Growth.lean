import Scaffold.Proofs.Patch.Annotations
import Scaffold.Proofs.Patch.RenderedBlocs
import Scaffold.Proofs.Project.Independence
import Scaffold.Proofs.Text.Newlines

/-!
# Growing features

What becomes of a feature that has been generated in full when more endpoints are added: its files
become those of all endpoints, and the models of the new ones come up (`Grows.grown`).
-/

namespace Scaffold

variable {config : Config} {target : Target} {feature : Feature} {layers : Layers}
  {endpoints others known batch : List Endpoint} {isNew : Endpoint → Bool} {item : Item}
  {start tree other third : Tree} {file : FeatureFile} {folder : Text}

/-! ## Model files -/

theorem find?_flatMap_filter {α β : Type} {p : β → Bool} {q : α → Bool} {f : α → List β}
    {xs : List α} (h : ∀ x ∈ xs, q x = false → (f x).find? p = none) :
    ((xs.filter q).flatMap f).find? p = (xs.flatMap f).find? p := by
  induction xs with
  | nil => rfl
  | cons x xs ih =>
      have hrest := ih fun y hy => h y (List.mem_cons_of_mem _ hy)
      rw [List.flatMap_cons, List.find?_append, ← hrest]
      cases hq : q x with
      | true => rw [List.filter_cons_of_pos hq, List.flatMap_cons, List.find?_append]
      | false =>
          rw [List.filter_cons_of_neg (by simp [hq]), h x List.mem_cons_self hq, Option.none_or]

/-- Endpoints that are known already add no model files with new paths. -/
theorem mem_modelFiles_filter
    (hknown : ∀ endpoint ∈ batch, isNew endpoint = false → endpoint ∈ known)
    (hnew : ∀ other ∈ modelFiles folder known, other.1 ≠ file.1) :
    file ∈ modelFiles folder (batch.filter isNew) ↔ file ∈ modelFiles folder batch := by
  rw [mem_modelFiles, mem_modelFiles, find?_flatMap_filter fun endpoint hmem hold => ?_]
  refine List.find?_eq_none.2 fun model hmodel hpath => ?_
  obtain ⟨kept, hkept, heq⟩ := exists_mem_modelFiles
    (List.mem_flatMap.2 ⟨endpoint, hknown endpoint hmem hold, hmodel⟩)
  exact hnew kept hkept (heq.trans (beq_iff_eq.1 hpath))

theorem mem_models_filter
    (hknown : ∀ endpoint ∈ batch, isNew endpoint = false → endpoint ∈ known)
    (hnew : ∀ other ∈ layers.models folder known, other.1 ≠ file.1) :
    file ∈ layers.models folder (batch.filter isNew) ↔ file ∈ layers.models folder batch := by
  unfold Layers.models at hnew ⊢
  split
  · next hdata =>
    rw [if_pos hdata] at hnew
    exact mem_modelFiles_filter hknown hnew
  · exact Iff.rfl

/-! ## What a feature consists of -/

/-- The item of a source file that is rendered for endpoints. -/
def Target.sourceItem (target : Target) (endpoints : List Endpoint) (source : SourceFile) : Item :=
  .file (target.path (source.path target.feature.name)) (source.part target.feature endpoints).full

theorem mem_featureFiles :
    file ∈ featureFiles feature endpoints layers ↔
      (∃ source ∈ layers.sourceFiles,
        file = (source.path feature.name, (source.part feature endpoints).full)) ∨
      file ∈ onceFiles feature endpoints layers := by
  have hparts : file ∈ fullFiles (layers.sourceFiles.map (·.part feature endpoints)) ↔
      ∃ source ∈ layers.sourceFiles,
        file = (source.path feature.name, (source.part feature endpoints).full) := by
    rw [fullFiles, List.map_map, List.mem_map]
    refine exists_congr fun source => and_congr_right fun _ => ?_
    rw [← source.part_path feature endpoints]
    exact eq_comm
  rw [featureFiles_eq, onceFiles, List.mem_append, List.mem_append, List.mem_append, hparts]
  rw [or_assoc, or_left_comm]

theorem mem_fullItems :
    item ∈ target.fullItems endpoints layers ↔
      (∃ folder ∈ featureFolders target.feature layers, item = .folder (target.path folder)) ∨
      (∃ source ∈ layers.sourceFiles, item = target.sourceItem endpoints source) ∨
      ∃ file ∈ onceFiles target.feature endpoints layers,
        item = .file (target.path file.1) file.2 := by
  rw [Target.fullItems, List.mem_append, Target.folderItems, Target.fileItems, List.mem_map,
    List.mem_map]
  refine or_congr (exists_congr fun folder => and_congr_right fun _ => eq_comm) ?_
  constructor
  · rintro ⟨file, hfile, rfl⟩
    rcases mem_featureFiles.1 hfile with ⟨source, hsource, rfl⟩ | honce
    · exact .inl ⟨source, hsource, rfl⟩
    · exact .inr ⟨file, honce, rfl⟩
  · rintro (⟨source, hsource, rfl⟩ | ⟨file, hfile, rfl⟩)
    · exact ⟨_, mem_featureFiles.2 (.inl ⟨source, hsource, rfl⟩), rfl⟩
    · exact ⟨file, mem_featureFiles.2 (.inr hfile), rfl⟩

theorem mem_extendedParts {part : Part} :
    part ∈ extendedParts feature endpoints layers ↔
      ∃ source ∈ layers.sourceFiles, source.part feature endpoints = part := by
  rw [← List.mem_map]
  refine List.Perm.mem_iff ?_
  obtain ⟨data, domain, presentation, bloc, screens, widgets⟩ := layers
  have hblocs : (blocParts feature endpoints).Perm
      ([SourceFile.bloc, .event, .state].map (·.part feature endpoints)) :=
    (List.perm_append_comm : List.Perm ([_, _] ++ [_]) ([_] ++ [_, _]))
  rw [extendedParts, Layers.sourceFiles, List.map_append, List.map_append, List.append_assoc]
  refine List.Perm.append ?_ (List.Perm.append ?_ ?_)
  · cases data <;> exact List.Perm.refl _
  · cases domain <;> exact List.Perm.refl _
  · cases presentation
    · exact List.Perm.refl _
    · cases bloc
      · exact List.Perm.refl _
      · exact hblocs

theorem mem_models_append :
    file ∈ layers.models folder (endpoints ++ others) ↔
      file ∈ layers.models folder endpoints ∨ file ∈ layers.models folder others ∧
        ∀ known ∈ layers.models folder endpoints, known.1 ≠ file.1 := by
  unfold Layers.models
  split
  · exact mem_modelFiles_append
  · simp

theorem mem_onceFiles_append :
    file ∈ onceFiles feature (endpoints ++ others) layers ↔
      file ∈ onceFiles feature endpoints layers ∨
        file ∈ layers.models feature.modelFolder others ∧
          ∀ known ∈ layers.models feature.modelFolder endpoints, known.1 ≠ file.1 := by
  rw [onceFiles, onceFiles, List.mem_append, List.mem_append, mem_models_append]
  exact or_right_comm

/-- For more endpoints, something is made at every path. -/
theorem exists_mem_fullItems_append (others : List Endpoint)
    (h : item ∈ target.fullItems endpoints layers) :
    ∃ made ∈ target.fullItems (endpoints ++ others) layers, made.path = item.path ∧
      ∀ third : Tree, third.HasLike made → third.HasLike item := by
  rcases mem_fullItems.1 h with hfolder | ⟨source, hsource, rfl⟩ | ⟨file, hfile, hitem⟩
  · exact ⟨item, mem_fullItems.2 (.inl hfolder), rfl, fun _ => id⟩
  · exact ⟨_, mem_fullItems.2 (.inr (.inl ⟨source, hsource, rfl⟩)), rfl, fun _ => id⟩
  · exact ⟨item, mem_fullItems.2 (.inr (.inr ⟨file, mem_onceFiles_append.2 (.inl hfile), hitem⟩)),
      rfl, fun _ => id⟩

/-- Files that are made at one place have one text. -/
theorem text_eq_of_place (hplaced : Placed target.feature endpoints) {path path' : Path}
    {text text' : Text} (h : .file path text ∈ target.fullItems endpoints layers)
    (h' : .file path' text' ∈ target.fullItems endpoints layers)
    (hplace : path'.resolve = path.resolve) : text' = text := by
  obtain ⟨file, hmem, rfl, rfl⟩ := mem_featureFiles_of_item h
  obtain ⟨file', hmem', rfl, rfl⟩ := mem_featureFiles_of_item h'
  by_contra hne
  have hsymm : Std.Symm fun a b : FeatureFile =>
      (target.path a.1).resolve ≠ (target.path b.1).resolve := ⟨fun _ _ h => h.symm⟩
  exact (featureFiles_places hplaced target).forall hmem' hmem (fun heq => hne (by rw [heq])) hplace

/-! ## Models -/

theorem noDot_of_mem_featureFolders (hmodels : feature.modelFolder = ("model" : Text))
    (h : folder ∈ featureFolders feature layers) : ∀ name ∈ Path.names folder, '.' ∉ name := by
  rw [featureFolders, hmodels, List.mem_append, List.mem_append] at h
  rcases h with (h | h) | h
  · have hall : ∀ folder ∈ dataFolders "model", ∀ name ∈ Path.names folder, '.' ∉ name := by
      unfold dataFolders modelFolderPath
      repeat rw [String.toList_ofList]
      decide
    exact hall folder ((ite_sublist _ _).subset h)
  · have hall : ∀ folder ∈ domainFolders, ∀ name ∈ Path.names folder, '.' ∉ name := by
      unfold domainFolders
      repeat rw [String.toList_ofList]
      decide
    exact hall folder ((ite_sublist _ _).subset h)
  · have hall : ∀ folder ∈ [widgetFolder], ∀ name ∈ Path.names folder, '.' ∉ name := by
      unfold widgetFolder
      repeat rw [String.toList_ofList]
      decide
    exact hall folder ((ite_sublist _ _).subset h)

/-- Only a file is made at the end of the way to a model. -/
theorem file_of_leads (hplaced : Placed target.feature endpoints)
    (hmodels : target.feature.modelFolder = ("model" : Text)) {model : Text} {row : List Text}
    {layer : Layer} (hitem : item ∈ target.fullItems endpoints layers)
    (hown : item.IsOwn target layer row)
    (hpre : modelRow target.feature.modelFolder model <+: row) :
    ∃ file ∈ featureFiles target.feature endpoints layers,
      Path.names file.1 = modelRow target.feature.modelFolder model := by
  have hdot : '.' ∈ modelFile model := List.mem_append_right _ (by decide)
  have hlast : modelFile model ∈ row := hpre.subset (by simp [modelRow])
  obtain ⟨rel, hpath, hrel⟩ := hown
  rcases List.mem_append.1 hitem with hitem | hitem
  · obtain ⟨folder, hfolder, rfl⟩ := List.mem_map.1 hitem
    obtain ⟨_, row', -, hfolderOwn⟩ := own_of_mem_featureFolders hmodels hfolder
    have hrow : row = row' := (Item.IsOwn.unique ⟨rel, hpath, hrel⟩ ⟨folder, rfl, hfolderOwn⟩ rfl).2
    rw [hrow, ← hfolderOwn.relative.names] at hlast
    exact absurd hdot (noDot_of_mem_featureFolders hmodels hfolder _ hlast)
  · obtain ⟨file, hfile, rfl⟩ := List.mem_map.1 hitem
    obtain ⟨folders, last, hsited⟩ := sited_of_mem_featureFiles hplaced hfile
    obtain ⟨_, row', -, hfileOwn⟩ := own_of_mem_featureFiles hplaced hmodels hfile
    have hrow : row = row' := (Item.IsOwn.unique ⟨rel, hpath, hrel⟩ ⟨file.1, rfl, hfileOwn⟩ rfl).2
    rw [hrow, ← hfileOwn.relative.names] at hpre
    refine ⟨file, hfile, ?_⟩
    rw [hsited.relative.names, List.prefix_concat_iff] at hpre
    rw [hsited.relative.names]
    rcases hpre with heq | hpre
    · exact heq.symm
    · exact absurd hdot (hsited.folders _ (hpre.subset (by simp [modelRow])))

/-- Nothing stands where a model with a new path is to come. -/
theorem Config.Grown.get?_model
    (h : config.Grown target start (target.fullItems endpoints layers) tree)
    (hstart : target.Begins config start) (hplaced : Placed target.feature endpoints)
    (hplaced' : Placed target.feature others)
    (hfile : file ∈ layers.models target.feature.modelFolder others)
    (hnew : ∀ known ∈ layers.models target.feature.modelFolder endpoints, known.1 ≠ file.1) :
    tree.get? (target.path file.1).resolve = none := by
  have hmem : file ∈ modelFiles target.feature.modelFolder others := (ite_sublist _ _).subset hfile
  obtain ⟨model, hpath, hrel⟩ := relative_of_mem_models hplaced' hmem
  rw [Target.path, Path.resolve_join hrel]
  have hhead : (modelRow target.feature.modelFolder model).head? = some Layer.data.folder := rfl
  refine h.get?_eq_none hstart hhead fun item hitem layer row hown hpre => ?_
  obtain ⟨other, hother, hnames⟩ := file_of_leads hplaced hstart.models hitem hown hpre
  rcases mem_featureFiles.1 hother with ⟨source, -, rfl⟩ | hother
  · rw [(source.relative hstart.name).names] at hnames
    exact source.row_ne_modelRow hplaced.folder hnames
  · rcases List.mem_append.1 hother with hother | hscreen
    · have hother' := (ite_sublist _ _).subset hother
      obtain ⟨model', hpath', hrel'⟩ := relative_of_mem_models hplaced hother'
      rw [hrel'.names] at hnames
      have hsame : modelFile model' = modelFile model := by simpa [modelRow] using hnames
      exact hnew other hother (by rw [hpath, hpath', modelPath, modelPath, hsame])
    · rw [List.mem_singleton.1 ((ite_sublist _ _).subset hscreen),
        (relative_screen hstart.name).names] at hnames
      exact screenRow_ne_modelRow hnames

/-- A model is made if none of the known endpoints has it. -/
theorem Config.Grown.item?_model
    (hgrown : config.Grown target start (target.fullItems known layers) tree)
    (hstart : target.Begins config start)
    (hplaced : Placed target.feature known) (hplaced' : Placed target.feature batch)
    (hfile : file ∈ layers.models target.feature.modelFolder batch) :
    (onceSlot file).item? target tree =
      if ∀ other ∈ layers.models target.feature.modelFolder known, other.1 ≠ file.1 then
        some (.file (target.path file.1) file.2) else none := by
  show ((onceSlot file).text? (tree.get? (target.path file.1).resolve)).map
    (Item.file (target.path file.1)) = _
  rw [text?_onceSlot]
  split
  · next hnone =>
    rw [if_pos]
    · rfl
    · intro other hother heq
      have hheld := hgrown.holds (mem_fullItems.2 (.inr (.inr ⟨other, List.mem_append_left _ hother, rfl⟩)))
      have hget := hheld.get
      rw [Item.place, Item.path, heq, hnone] at hget
      cases hget
  · next hsome =>
    rw [if_neg fun hnew => hsome (hgrown.get?_model hstart hplaced hplaced' hfile hnew)]
    rfl

/-! ## Files that are extended -/

theorem SourceFile.fed_full (source : SourceFile) (hfeature : feature.Fed)
    (hfed : ∀ endpoint ∈ endpoints, endpoint.Fed) :
    Consists isFed (source.part feature endpoints).full := by
  cases source with
  | ofClass file => exact file.fed_render hfeature hfed
  | event => exact fed_renderEvent hfeature hfed
  | state => exact fed_renderState hfeature hfed
  | bloc => exact fed_renderBloc hfeature hfed

/-- The endpoint's members and its annotation are read as they are written. -/
structure Endpoint.Tame (endpoint : Endpoint) : Prop where
  quiet : endpoint.Quiet
  readable : endpoint.Readable
  named : endpoint.methodName ≠ []

theorem Endpoint.Tame.fed {endpoint : Endpoint} (h : endpoint.Tame) : endpoint.Fed :=
  h.quiet.toPlain.toFed h.readable.path_return

/-- A batch of endpoints comes to a feature that has been generated for known ones. Those of the
batch that are not new are known, and no file has members for the new ones. -/
structure Target.Grows (target : Target) (layers : Layers) (known batch : List Endpoint)
    (isNew : Endpoint → Bool) : Prop where
  feature : target.feature.Plain
  known_tame : ∀ endpoint ∈ known, endpoint.Tame
  batch_tame : ∀ endpoint ∈ batch, endpoint.Tame
  known_ne_nil : known ≠ []
  known_of_old : ∀ endpoint ∈ batch, isNew endpoint = false → endpoint ∈ known
  absent : ∀ endpoint ∈ batch, isNew endpoint = true → ∀ source ∈ layers.sourceFiles,
    hasMember (source.part target.feature known).full (source.memberName endpoint) = false

/-- A file that is left alone once it is there can be gone through below a tree that has it. -/
theorem Slot.allows_once (hfile : third.HoldsFile (target.path file.1)) : (onceSlot file).Allows target tree third := by
  refine ⟨hfile.find, ?_⟩
  unfold onceSlot
  dsimp only
  split
  · exact hfile.get
  · trivial
  · rfl

/-- A slot that reads a text can be gone through below a tree that has it. -/
theorem Slot.allows_of_text {path full content : Text} {reads : Bool}
    {update : Text → Option Text}
    (hfind : third.find (target.path path) = .ok ((Slot.file path full reads update).place target))
    (hget : tree.get? ((Slot.file path full reads update).place target) =
      some (.file (.text content))) :
    (Slot.file path full reads update).Allows target tree third := by
  refine ⟨hfind, ?_⟩
  dsimp only
  rw [hget]
  trivial

namespace Target.Grows

variable {source : SourceFile} {slot : Slot}

section

variable (h : target.Grows layers known batch isNew)

include h

/-- What is written to a source file, if anything. -/
theorem update (hsource : source ∈ layers.sourceFiles) :
    (source.part target.feature batch).update
        (universalNewlines (source.part target.feature known).full) =
      if (source.part target.feature (known ++ batch.filter isNew)).full =
          (source.part target.feature known).full then none
      else some (source.part target.feature (known ++ batch.filter isNew)).full := by
  have hfed := source.fed_full h.feature.toFed fun endpoint hmem => (h.known_tame endpoint hmem).fed
  rw [universalNewlines_of_not_mem hfed.no_return, Part.update,
    source.extend_rendered h.feature (fun endpoint hmem => (h.known_tame endpoint hmem).quiet)
      (fun endpoint hmem => (h.batch_tame endpoint hmem).quiet)
      (fun endpoint hmem => (h.known_tame endpoint hmem).named) h.known_ne_nil h.known_of_old
      fun endpoint hmem hnew => h.absent endpoint hmem hnew source hsource]

theorem item?_source
    (hgrown : config.Grown target start (target.fullItems known layers) tree)
    (hsource : source ∈ layers.sourceFiles) :
    (source.part target.feature batch).slot.item? target tree =
      if (source.part target.feature (known ++ batch.filter isNew)).full =
          (source.part target.feature known).full then none
      else some (target.sourceItem (known ++ batch.filter isNew) source) := by
  have hheld : tree.Holds (target.sourceItem known source) :=
    hgrown.holds (mem_fullItems.2 (.inr (.inl ⟨source, hsource, rfl⟩)))
  have hget : tree.get? (target.path (source.path target.feature.name)).resolve =
      some (.file (.text (source.part target.feature known).full)) := hheld.get
  show ((source.part target.feature batch).slot.text? (tree.get?
    (target.path (source.part target.feature batch).path).resolve)).map
      (Item.file (target.path (source.part target.feature batch).path)) = _
  rw [source.part_path, hget]
  show ((source.part target.feature batch).update (universalNewlines _)).map _ = _
  rw [h.update hsource]
  split <;> rfl

section

variable (hstart : target.Begins config start)
  (hgrown : config.Grown target start (target.fullItems known layers) tree)
  (hplaced : Placed target.feature known) (hplaced' : Placed target.feature batch)

include hstart hgrown hplaced hplaced'

/-- What is made belongs to the feature of all endpoints. -/
theorem items_subset (hitem : item ∈ Slot.items target
      (appendSlots target.feature batch layers) tree) :
    item ∈ target.fullItems (known ++ batch.filter isNew) layers := by
  obtain ⟨slot, hslot, hsome⟩ := List.mem_filterMap.1 hitem
  rcases mem_appendSlots.1 hslot with hslot | hslot | hslot
  · obtain ⟨part, hpart, rfl⟩ := List.mem_map.1 hslot
    obtain ⟨source, hsource, rfl⟩ := mem_extendedParts.1 hpart
    rw [h.item?_source hgrown hsource] at hsome
    split at hsome
    · cases hsome
    · exact mem_fullItems.2 (.inr (.inl ⟨source, hsource, (Option.some.inj hsome).symm⟩))
  · obtain ⟨file, hfile, rfl⟩ := List.mem_map.1 hslot
    refine mem_fullItems.2 (.inr (.inr ⟨file, ?_, ?_⟩))
    · rcases List.mem_append.1 hfile with hmodel | hscreen
      · rw [hgrown.item?_model hstart hplaced hplaced' hmodel] at hsome
        split at hsome
        · next hnew =>
          exact mem_onceFiles_append.2 (.inr ⟨(mem_models_filter h.known_of_old hnew).2 hmodel, hnew⟩)
        · cases hsome
      · exact List.mem_append_right _ hscreen
    · obtain ⟨text, htext, rfl⟩ := Option.map_eq_some_iff.1 hsome
      have hplace : (onceSlot file).text? (tree.get? (target.path file.1).resolve) = some text := htext
      rw [text?_onceSlot] at hplace
      split at hplace
      · rw [← Option.some.inj hplace]
      · cases hplace
  · obtain ⟨folder, hfolder, rfl⟩ := List.mem_map.1 hslot
    refine mem_fullItems.2 (.inl ⟨folder, ?_, (Option.some.inj hsome).symm⟩)
    exact List.mem_append_right _ hfolder

/-- Of the feature of all endpoints, what has not been there before is made. -/
theorem mem_items_or (hitem : item ∈ target.fullItems (known ++ batch.filter isNew) layers) :
    item ∈ Slot.items target (appendSlots target.feature batch layers) tree ∨
      item ∈ target.fullItems known layers := by
  rcases mem_fullItems.1 hitem with hfolder | ⟨source, hsource, rfl⟩ | ⟨file, hfile, rfl⟩
  · exact .inr (mem_fullItems.2 (.inl hfolder))
  · by_cases hsame : (source.part target.feature (known ++ batch.filter isNew)).full =
        (source.part target.feature known).full
    · refine .inr (mem_fullItems.2 (.inr (.inl ⟨source, hsource, ?_⟩)))
      rw [Target.sourceItem, hsame]
      rfl
    · refine .inl (List.mem_filterMap.2 ⟨(source.part target.feature batch).slot, ?_, ?_⟩)
      · exact slot_mem_appendSlots (mem_extendedParts.2 ⟨source, hsource, rfl⟩)
      · rw [h.item?_source hgrown hsource, if_neg hsame]
  · rcases mem_onceFiles_append.1 hfile with hold | ⟨hmodel, hnew⟩
    · exact .inr (mem_fullItems.2 (.inr (.inr ⟨file, hold, rfl⟩)))
    · have hmodel := (mem_models_filter h.known_of_old hnew).1 hmodel
      refine .inl (List.mem_filterMap.2 ⟨onceSlot file, ?_, ?_⟩)
      · exact mem_appendSlots.2 (.inr (.inl (List.mem_map_of_mem (List.mem_append_left _ hmodel))))
      · rw [hgrown.item?_model hstart hplaced hplaced' hmodel, if_pos hnew]

/-- Going through the slots for a batch makes the feature of all endpoints. -/
theorem grown (hall : Placed target.feature (known ++ batch.filter isNew))
    (hmakes : tree.Makes (Slot.items target (appendSlots target.feature batch layers) tree) other) :
    config.Grown target start (target.fullItems (known ++ batch.filter isNew) layers) other := by
  have hsubset : ∀ item ∈ Slot.items target (appendSlots target.feature batch layers) tree,
      item ∈ target.fullItems (known ++ batch.filter isNew) layers :=
    fun item hitem => h.items_subset hstart hgrown hplaced hplaced' hitem
  refine hgrown.extend hstart hmakes (fun item hitem => ?_) ?_ (fun item hitem => ?_)
    fun item hitem => ?_
  · obtain ⟨layer, row, -, hown⟩ := owns_fullItems hall hstart.models hitem
    exact ⟨layer, row, hown⟩
  · obtain ⟨item, hitem⟩ := List.exists_mem_of_ne_nil _ hgrown.ne_nil
    obtain ⟨made, hmade, -⟩ := exists_mem_fullItems_append (batch.filter isNew) hitem
    exact List.ne_nil_of_mem hmade
  · rcases List.mem_append.1 hitem with hold | hmade
    · obtain ⟨made, hmade, hpath, -⟩ :=
        exists_mem_fullItems_append (batch.filter isNew) hold
      exact ⟨made, hmade, hpath⟩
    · exact ⟨item, hsubset item hmade, rfl⟩
  · rcases h.mem_items_or hstart hgrown hplaced hplaced' hitem with hmade | hold
    · exact .inl hmade
    · refine .inr ⟨hold, ?_⟩
      rintro path text rfl made hmade hplace
      -- a folder would lie where a file has been
      cases made with
      | folder path' =>
          obtain ⟨content, hcontent⟩ := hmakes.below.file _ _ (hgrown.holds hold).get
          have hfolder := (hmakes.holds _ hmade).get
          rw [hplace] at hfolder
          exact absurd (hfolder.symm.trans hcontent) nofun
      | file path' text' =>
          rw [text_eq_of_place hall hitem (hsubset _ hmade) hplace]
          rfl

end

/-- The slots for a batch can be gone through below a tree that has what is made. -/
theorem allows (hgrown : config.Grown target start (target.fullItems known layers) tree)
    (hbelow : tree.Below third)
    (hlike : ∀ item ∈ target.fullItems (known ++ batch.filter isNew) layers, third.HasLike item)
    (hslot : slot ∈ appendSlots target.feature batch layers) : slot.Allows target tree third := by
  rcases mem_appendSlots.1 hslot with hslot | hslot | hslot
  · obtain ⟨part, hpart, rfl⟩ := List.mem_map.1 hslot
    obtain ⟨source, hsource, rfl⟩ := mem_extendedParts.1 hpart
    have hheld : tree.Holds (.file (target.path (source.part target.feature batch).path)
        (source.part target.feature known).full) := by
      rw [source.part_path]
      exact hgrown.holds (mem_fullItems.2 (.inr (.inl ⟨source, hsource, rfl⟩)))
    exact Slot.allows_of_text (hbelow.find hheld.find) hheld.get
  · obtain ⟨file, hfile, rfl⟩ := List.mem_map.1 hslot
    refine Slot.allows_once ?_
    rcases List.mem_append.1 hfile with hmodel | hscreen
    · by_cases hnew : ∀ other ∈ layers.models target.feature.modelFolder known, other.1 ≠ file.1
      · have hmodel := (mem_models_filter h.known_of_old hnew).2 hmodel
        exact hlike _ (mem_fullItems.2 (.inr (.inr
          ⟨file, mem_onceFiles_append.2 (.inr ⟨hmodel, hnew⟩), rfl⟩)))
      · obtain ⟨other, hother, heq⟩ : ∃ other ∈ layers.models target.feature.modelFolder known,
            other.1 = file.1 := by simpa using hnew
        have hlikeOther := hlike _ (mem_fullItems.2 (.inr (.inr
          ⟨other, mem_onceFiles_append.2 (.inl (List.mem_append_left _ hother)), rfl⟩)))
        rw [heq] at hlikeOther
        exact hlikeOther
    · exact hlike _ (mem_fullItems.2 (.inr (.inr ⟨file, List.mem_append_right _ hscreen, rfl⟩)))
  · obtain ⟨folder, hfolder, rfl⟩ := List.mem_map.1 hslot
    have hheld := hlike _ (mem_fullItems.2 (.inl ⟨folder, List.mem_append_right _ hfolder, rfl⟩))
    exact ⟨Tree.Holds.find hheld, Tree.Holds.get hheld⟩

end

end Target.Grows

end Scaffold
