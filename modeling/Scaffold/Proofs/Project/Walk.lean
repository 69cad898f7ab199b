import Scaffold.Proofs.Project.Admission
import Scaffold.Proofs.Project.Append

/-!
# Laws of work

A law of work that its steps obey, and that sequences of lawful steps obey, is obeyed by every run
(`Work.Law.generate`). So what is true of runs for the reason that it is true of their steps needs to
be shown of the steps only. A law may restrict the paths at which folders and files are made.
-/

namespace Scaffold

/-- The paths at which folders and texts may be written. -/
structure Reach where
  folders : Path → Prop
  texts : Path → Prop

namespace Reach

/-- A text may be written at the path, with all folders on the way to it. -/
structure Includes (reach : Reach) (path : Path) : Prop where
  way : ∀ first, first <+: path → reach.folders first
  text : reach.texts path

/-- Everything may be written. -/
def everything : Reach := ⟨fun _ => True, fun _ => True⟩

/-- Nothing may be written. -/
def nothing : Reach := ⟨fun _ => False, fun _ => False⟩

/-- Without a restriction every path is within reach. -/
theorem everything_includes (path : Path) : everything.Includes path :=
  ⟨fun _ _ => trivial, trivial⟩

end Reach

/-- A law that is obeyed by the steps of work which write within reach, and by what is put together
from them. -/
structure Work.Law (law : {ε α : Type} → Work ε α → Prop) (reach : Reach) : Prop where
  pure : ∀ {ε α : Type} (answer : α), law (Pure.pure answer : Work ε α)
  throw : ∀ {ε α : Type} (error : ε), law (MonadExcept.throw error : Work ε α)
  say : ∀ {ε : Type} (text : Text), law (Work.say text : Work ε Unit)
  warn : ∀ {ε : Type} (text : Text), law (Work.warn text : Work ε Unit)
  bind : ∀ {ε α β : Type} {work : Work ε α} {next : α → Work ε β}, law work →
    (∀ answer, law (next answer)) → law (work >>= next)
  adapt : ∀ {ε δ α : Type} {work : Work ε α} (f : ε → δ), law work →
    law (ExceptT.adapt f work : Work δ α)
  ask_bind : ∀ {α β : Type} {question : Tree → Except FileError α} {next : α → Work WorkError β},
    (∀ tree answer, question tree = .ok answer → law (next answer)) → law (ask question >>= next)
  readText : ∀ path, law (readText path)
  makeFolders : ∀ {path}, (∀ first, first <+: path → reach.folders first) → law (makeFolders path)
  writeText : ∀ {path} (text : Text), reach.texts path → law (writeText path text)

/-- The paths of the feature that a run for the endpoints may write at. -/
def Feature.paths (feature : Feature) (endpoints : List Endpoint) (layers : Layers) : List Text :=
  featureFolders feature layers ++ (featureFiles feature endpoints layers).map (·.1)

/-- Extending a feature by some of the endpoints writes at no other paths than a full generation for
all of them. -/
theorem mem_paths_of_slot {feature : Feature} {endpoints admitted : List Endpoint} {layers : Layers}
    {slot : Slot} (hadmitted : ∀ endpoint ∈ admitted, endpoint ∈ endpoints)
    (hslot : slot ∈ appendSlots feature admitted layers) :
    slot.path ∈ feature.paths endpoints layers := by
  have hmem := appendSlots_paths.subset (List.mem_map_of_mem hslot)
  rw [Feature.paths, List.mem_append]
  rcases List.mem_append.1 hmem with hfile | hwidgets
  · refine .inr ?_
    obtain ⟨file, hfile, hpath⟩ := List.mem_map.1 hfile
    rw [← hpath]
    rw [featureFiles_eq, List.mem_append, List.mem_append] at hfile
    rw [featureFiles_eq, List.map_append, List.map_append, List.mem_append, List.mem_append]
    rcases hfile with (hmodel | hpart) | hscreen
    · rw [Layers.models] at hmodel
      split at hmodel
      · next hdata =>
        refine .inl (.inl ?_)
        rw [Layers.models, if_pos hdata]
        obtain ⟨endpoint, hendpoint, hmade⟩ :=
          List.mem_flatMap.1 (List.mem_of_find?_eq_some (mem_modelFiles.1 hmodel))
        obtain ⟨kept, hkept, hsame⟩ :=
          exists_mem_modelFiles (List.mem_flatMap.2 ⟨endpoint, hadmitted endpoint hendpoint, hmade⟩)
        exact hsame ▸ List.mem_map_of_mem hkept
      · cases hmodel
    · obtain ⟨_, hmade, rfl⟩ := List.mem_map.1 hpart
      obtain ⟨source, hsource, rfl⟩ := List.mem_map.1 hmade
      refine .inl (.inr (List.mem_map.2 ⟨_, List.mem_map_of_mem (List.mem_map_of_mem hsource), ?_⟩))
      show (source.part feature endpoints).path = (source.part feature admitted).path
      rw [source.part_path, source.part_path]
    · exact .inr (List.mem_map_of_mem hscreen)
  · exact .inl (List.mem_append_right _ hwidgets)

namespace Work.Law

variable {law : {ε α : Type} → Work ε α → Prop} {reach : Reach} (h : Work.Law law reach)
  {target : Target} {endpoints admitted : List Endpoint} {layers : Layers}

include h

/-- Asking about the tree obeys the law: it is a question with nothing behind it. -/
theorem ask {α : Type} (question : Tree → Except FileError α) : law (Scaffold.ask question) := by
  have hask : Scaffold.ask question = Scaffold.ask question >>= Pure.pure := (bind_pure _).symm
  rw [hask]
  exact h.ask_bind fun _ _ _ => h.pure _

omit h in
/-- What is done in one of two cases obeys the law if both do. -/
theorem ite {ε α : Type} {condition : Prop} [Decidable condition] {work other : Work ε α}
    (hwork : condition → law work) (hother : law other) :
    law (if condition then work else other) := by
  split
  · next hcondition => exact hwork hcondition
  · exact hother

/-- A step for each item obeys the law if every step does. -/
theorem forM {ε α : Type} {items : List α} {step : α → Work ε PUnit}
    (hstep : ∀ item ∈ items, law (step item)) : law (items.forM step) := by
  induction items with
  | nil => exact h.pure _
  | cons item items ih =>
      exact h.bind (hstep item List.mem_cons_self) fun _ =>
        ih fun other hother => hstep other (List.mem_cons_of_mem _ hother)

/-- An answer for each item obeys the law if every step does. -/
theorem mapM {ε α β : Type} {items : List α} {step : α → Work ε β}
    (hstep : ∀ item ∈ items, law (step item)) : law (items.mapM step) := by
  induction items with
  | nil => exact h.pure _
  | cons item items ih =>
      rw [List.mapM_cons]
      exact h.bind (hstep item List.mem_cons_self) fun _ =>
        h.bind (ih fun other hother => hstep other (List.mem_cons_of_mem _ hother)) fun _ => h.pure _

/-! ## Writing -/

/-- Writing a file makes the folders on the way to it, all within reach. -/
theorem writeFile {path : Path} (hpath : reach.Includes path) (text : Text) :
    law (Scaffold.writeFile path text) :=
  h.bind (h.makeFolders fun first hfirst => hpath.way first (hfirst.trans (List.dropLast_prefix path)))
    fun _ => h.writeText text hpath.text

/-- Creating a file within reach obeys the law. -/
theorem createFile {file : FeatureFile} (hpath : reach.Includes (target.path file.1)) :
    law (Scaffold.createFile target file) :=
  h.bind (h.writeFile hpath _) fun _ => h.say _

/-- Making sure of the error union obeys the law if its path is within reach. -/
theorem ensureErrorUnion {config : Config}
    (herrors : reach.Includes config.errorUnionPath) :
    law (Scaffold.ensureErrorUnion config) :=
  h.bind (h.ask _) fun _ => Law.ite (fun _ => h.bind (h.writeFile herrors _) fun _ => h.say _) (h.pure _)

/-- Reading the service file obeys the law. -/
theorem serviceText (target : Target) : law (Scaffold.serviceText target) :=
  h.bind (h.ask _) fun _ => Law.ite (fun _ => h.readText _) (h.pure _)

/-- Looking through the models for one that cannot be rendered obeys the law. -/
theorem checkModels (endpoints : List Endpoint) : law (Scaffold.checkModels endpoints) :=
  Law.ite (fun _ => h.pure _) (h.throw _)

/-! ## Extending -/

/-- Extending or creating a file within reach obeys the law. -/
theorem appendPart {part : Part} (hpath : reach.Includes (target.path part.path)) :
    law (Scaffold.appendPart target part) := by
  refine h.bind (h.ask _) fun known => Law.ite (fun _ => ?_) ?_
  · exact h.bind (h.createFile hpath) fun _ => h.pure _
  · refine h.bind (h.readText _) fun content => ?_
    split
    · exact h.bind (h.warn _) fun _ => h.pure _
    · exact Law.ite (fun _ => h.bind (h.say _) fun _ => h.pure _)
        (h.bind (h.writeFile hpath _) fun _ => h.bind (h.say _) fun _ => h.pure _)

/-- Extending several files within reach obeys the law. -/
theorem appendParts {parts : List Part}
    (hpaths : ∀ slot ∈ parts.map Part.slot, reach.Includes (target.path slot.path)) :
    law (Scaffold.appendParts target parts) :=
  h.bind (h.mapM fun _ hpart => h.appendPart (hpaths _ (List.mem_map_of_mem hpart))) fun _ => h.pure _

/-- Adding a model within reach obeys the law. -/
theorem appendModel {file : FeatureFile} (hpath : reach.Includes (target.path file.1)) :
    law (Scaffold.appendModel target file) :=
  h.bind (h.ask _) fun _ =>
    Law.ite (fun _ => h.pure _) (h.bind (h.createFile hpath) fun _ => h.pure _)

/-- Adding the screen obeys the law if its path is within reach. -/
theorem appendScreen (hpath : reach.Includes (target.path (screenPath target.feature.name))) :
    law (Scaffold.appendScreen target) :=
  h.bind (h.ask _) fun _ =>
    Law.ite (fun _ => h.bind (h.say _) fun _ => h.pure _)
      (h.bind (h.createFile hpath) fun _ => h.pure _)

/-- Extending the data layer obeys the law if its slots are within reach. -/
theorem appendData
    (hpaths : ∀ slot ∈ dataSlots target.feature endpoints, reach.Includes (target.path slot.path)) :
    law (Scaffold.appendData target endpoints) := by
  refine h.bind (h.checkModels _) fun _ => h.bind (h.mapM fun file hfile => ?_) fun _ =>
    h.bind (h.appendParts fun slot hslot => hpaths slot (List.mem_append_right _ hslot)) fun _ =>
      h.pure _
  exact h.appendModel (hpaths (onceSlot file) (List.mem_append_left _ (List.mem_map_of_mem hfile)))

/-- Extending the presentation layer obeys the law if the slots of the chosen parts are within
reach. -/
theorem appendPresentation {components : Components}
    (hpaths : ∀ slot ∈ presentationSlots target.feature endpoints components,
      reach.Includes (target.path slot.path)) :
    law (Scaffold.appendPresentation target endpoints components) := by
  rw [appendPresentation_eq]
  rw [presentationSlots, List.append_assoc] at hpaths
  refine h.bind (Law.ite (fun hbloc => h.appendParts fun slot hslot => ?_) (h.pure _)) fun _ =>
    h.bind (Law.ite (fun hscreens => h.appendScreen ?_) (h.pure _)) fun _ =>
      h.bind (Law.ite (fun hwidgets => h.makeFolders (Reach.Includes.way ?_)) (h.pure _)) fun _ => h.pure _
  · refine hpaths slot (List.mem_append_left _ ?_)
    rwa [if_pos hbloc]
  · refine hpaths (onceSlot (screenPath target.feature.name, renderScreen target.feature))
      (List.mem_append_right _ (List.mem_append_left _ ?_))
    rw [if_pos hscreens]
    exact List.mem_singleton.2 rfl
  · refine hpaths (.folder widgetFolder) (List.mem_append_right _ (List.mem_append_right _ ?_))
    rw [if_pos hwidgets]
    exact List.mem_singleton.2 rfl

/-- Extending the layers obeys the law if the slots of the chosen ones are within reach. -/
theorem appendLayers
    (hpaths : ∀ slot ∈ appendSlots target.feature endpoints layers,
      reach.Includes (target.path slot.path)) :
    law (Scaffold.appendLayers target endpoints layers) := by
  rw [appendLayers_eq]
  rw [appendSlots, List.append_assoc] at hpaths
  refine h.bind (Law.ite (fun hdata => h.appendData fun slot hslot => ?_) (h.pure _)) fun _ =>
    h.bind (Law.ite (fun hdomain => h.appendParts fun slot hslot => ?_) (h.pure _)) fun _ =>
      h.bind (Law.ite (fun hpresentation => h.appendPresentation fun slot hslot => ?_) (h.pure _))
        fun _ => h.pure _
  · refine hpaths slot (List.mem_append_left _ ?_)
    rwa [if_pos hdata]
  · refine hpaths slot (List.mem_append_right _ (List.mem_append_left _ ?_))
    rwa [if_pos hdomain]
  · refine hpaths slot (List.mem_append_right _ (List.mem_append_right _ ?_))
    rwa [if_pos hpresentation]

/-! ## Runs -/

variable {config : Config} {project name : Text}
  (hpaths : ∀ {tree target}, config.target project name tree = .ok target →
    ∀ path ∈ target.feature.paths endpoints layers, reach.Includes (target.path path))
  (herrors : reach.Includes config.errorUnionPath)

include hpaths herrors

/-- Writing a whole feature obeys the law. -/
theorem generateFull : law (Scaffold.generateFull config project name endpoints layers) := by
  refine h.ask_bind fun tree target htarget => h.bind (h.say _) fun _ => ?_
  have hwrite : ∀ outcome : Outcome, law (do
      (featureFolders target.feature layers).forM fun folder => Scaffold.makeFolders (target.path folder)
      (featureFiles target.feature endpoints layers).forM (Scaffold.createFile target)
      Scaffold.ensureErrorUnion config
      Work.say ("Feature '" ++ name ++ "' generated with " ++ Text.ofNat endpoints.length ++
        " endpoint(s) at " ++ config.location name)
      return outcome : Work WorkError Outcome) := by
    intro outcome
    refine h.bind (h.forM fun folder hfolder => h.makeFolders (Reach.Includes.way ?_)) fun _ =>
      h.bind (h.forM fun file hfile => h.createFile ?_) fun _ =>
        h.bind (h.ensureErrorUnion herrors) fun _ => h.bind (h.say _) fun _ => h.pure _
    · exact hpaths htarget folder (List.mem_append_left _ hfolder)
    · exact hpaths htarget file.1 (List.mem_append_right _ (List.mem_map_of_mem hfile))
  dsimp only
  -- models are looked through only if the data layer is written
  split
  · exact h.bind (h.checkModels _) fun _ => hwrite _
  · exact hwrite _

/-- Adding to a feature obeys the law: every slot lies on a path of the feature. -/
theorem generateAppend : law (Scaffold.generateAppend config project name endpoints layers) := by
  refine h.ask_bind fun tree target htarget => h.bind (h.serviceText target) fun content =>
    h.bind (h.forM fun _ _ => h.warn _) fun _ => ?_
  refine Law.ite (fun _ => h.bind (h.say _) fun _ => h.pure _) ?_
  refine h.bind (h.say _) fun _ => h.bind (h.appendLayers fun slot hslot => ?_) fun _ =>
    h.bind (h.ensureErrorUnion herrors) fun _ => h.bind (h.say _) fun _ => h.pure _
  exact hpaths htarget _ (mem_paths_of_slot (fun endpoint => mem_of_admitted) hslot)

/-- A run obeys every law that its steps obey. -/
theorem generate (action : ExistsAction) :
    law (Scaffold.generate config project name endpoints layers action) := by
  unfold Scaffold.generate
  split
  · exact h.throw _
  · refine h.bind (h.adapt _ (h.ask _)) fun known => Law.ite (fun _ => ?_) ?_
    · exact h.adapt _ (h.generateFull hpaths herrors)
    · cases action with
      | cancel => exact h.bind (h.say _) fun _ => h.pure _
      | append => exact h.adapt _ (h.generateAppend hpaths herrors)
      | overwrite => exact h.adapt _ (h.generateFull hpaths herrors)

end Work.Law

end Scaffold
