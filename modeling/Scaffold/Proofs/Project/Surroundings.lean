import Scaffold.Proofs.Project.Growth

/-!
# Around the slots

What lies in the feature's folder apart from the slots stays as it is when the feature is extended
(`Extended.get?_apart`). So a later run finds the feature under the same target, and, where the data
layer is left out, with the same service file.
-/

namespace Scaffold

variable {target : Target} {config : Config} {feature : Feature} {admitted : List Endpoint}
  {layers : Layers} {project name content text : Text} {tree middle other : Tree} {slot : Slot}

/-! ## Rows of slots -/

/-- The slots lie in the folders of the chosen layers. Only models lie where models would be looked
for. -/
theorem own_or_model_of_mem_appendSlots (hplaced : Placed feature admitted)
    (hslot : slot ∈ appendSlots feature admitted layers) :
    (∃ layer row, layers.includes layer = true ∧ Path.IsOwn slot.path layer row) ∨
      layers.data = true ∧ ∃ model,
        Path.Relative slot.path (modelRow feature.modelFolder model) := by
  rcases mem_appendSlots.1 hslot with hslot | hslot | hslot
  · obtain ⟨part, hpart, rfl⟩ := List.mem_map.1 hslot
    obtain ⟨source, hsource, rfl⟩ := mem_extendedParts.1 hpart
    have hpath : (source.part feature admitted).slot.path = source.path feature.name :=
      source.part_path feature admitted
    rw [hpath]
    exact .inl ⟨_, _, Layers.includes_of_mem_sourceFiles hsource, own_source hplaced.name source⟩
  · obtain ⟨file, hfile, rfl⟩ := List.mem_map.1 hslot
    show (∃ layer row, _ ∧ Path.IsOwn file.1 layer row) ∨ _ ∧ ∃ model, Path.Relative file.1 _
    rcases List.mem_append.1 hfile with hfile | hfile
    · rw [Layers.models] at hfile
      split at hfile
      · next hdata =>
        obtain ⟨model, -, hrel⟩ := relative_of_mem_models hplaced hfile
        exact .inr ⟨hdata, model, hrel⟩
      · cases hfile
    · rw [Layers.screen] at hfile
      split at hfile
      · next hpresentation =>
        rw [List.mem_singleton.1 hfile]
        exact .inl ⟨.presentation, _, (Bool.and_eq_true_iff.1 hpresentation).1,
          own_screen hplaced.name⟩
      · cases hfile
  · obtain ⟨folder, hfolder, rfl⟩ := List.mem_map.1 hslot
    rw [Layers.widgets] at hfolder
    split at hfolder
    · next hpresentation =>
      rw [List.mem_singleton.1 hfolder]
      exact .inl ⟨.presentation, ["presentation", "widget"],
        (Bool.and_eq_true_iff.1 hpresentation).1, relative_widgetFolder, rfl, "widget", rfl,
        by decide⟩
    · cases hfolder

/-- No slot lies where the models are looked for, if they lie elsewhere. -/
theorem models_not_prefix (hplaced : Placed feature admitted)
    (hmodels : feature.modelFolder = ("model" : Text))
    (hslot : slot ∈ appendSlots feature admitted layers) :
    ¬ [("data" : Text), "models"] <+: Path.names slot.path := by
  rintro ⟨rest, hrest⟩
  rcases own_or_model_of_mem_appendSlots hplaced hslot with
    ⟨layer, row, -, hown⟩ | ⟨-, model, hrel⟩
  · obtain ⟨second, hsecond, hne⟩ := hown.second
    rw [← hown.relative.names, ← hrest] at hsecond
    exact absurd (Option.some.inj hsecond).symm hne
  · rw [hrel.names, hmodels] at hrest
    have hsecond := congrArg (·[1]?) hrest
    exact absurd (Option.some.inj hsecond) (by decide)

/-- No slot lies in the folder of the data layer if that layer is left out. -/
theorem data_not_prefix (hplaced : Placed feature admitted) (hdata : layers.data = false)
    (row : List Text) (hslot : slot ∈ appendSlots feature admitted layers) :
    ¬ ("data" : Text) :: row <+: Path.names slot.path := by
  rintro ⟨rest, hrest⟩
  rcases own_or_model_of_mem_appendSlots hplaced hslot with
    ⟨layer, row, hincludes, hown⟩ | ⟨hchosen, -⟩
  · have hhead := hown.head
    rw [← hown.relative.names, ← hrest] at hhead
    have hlayer : Layer.data = layer := Layer.folder_injective (Option.some.inj hhead)
    rw [← hlayer] at hincludes
    exact absurd (hincludes.symm.trans hdata) (by decide)
  · exact absurd (hchosen.symm.trans hdata) (by decide)

/-! ## What stays as it is -/

theorem Tree.follow_congr {here names : Path}
    (h : ∀ place ∈ Path.passedFrom here names, other.get? place = tree.get? place) :
    other.follow here names = tree.follow here names := by
  induction names generalizing here with
  | nil => rfl
  | cons name rest ih =>
      rw [Path.passedFrom, List.forall_mem_cons] at h
      rw [Tree.follow, Tree.follow, h.1]
      split
      · rfl
      · rfl
      · rw [ih h.2]

/-- The text of the service file depends only on what stands on the way to it. -/
theorem Target.readService_congr
    (h : ∀ place ∈ target.servicePath.places, other.get? place = tree.get? place) :
    target.readService other = target.readService tree := by
  have hfind : other.find target.servicePath = tree.find target.servicePath := by
    rw [Tree.find, Tree.find,
      Tree.follow_congr fun place hplace => h place (Path.passed_subset_places hplace)]
  have hget : ∀ place, tree.find target.servicePath = .ok place →
      other.get? place = tree.get? place := by
    intro place hplace
    rw [(Tree.find_eq_ok_iff.1 hplace).2.2]
    exact h _ (Path.resolve_mem_places _)
  have hhas : other.has target.servicePath = tree.has target.servicePath := by
    rw [Tree.has, Tree.has, Tree.look, Tree.look, hfind]
    cases hplace : tree.find target.servicePath with
    | error obstacle => cases obstacle <;> rfl
    | ok place => simp only [hget place hplace]
  have hread : other.readText target.servicePath = tree.readText target.servicePath := by
    rw [Tree.readText, Tree.readText, hfind]
    cases hplace : tree.find target.servicePath with
    | error obstacle => rfl
    | ok place => simp only [hget place hplace]
  rw [Target.readService, Target.readService, hhas, hread]

/-- What lies below the feature's folder stays as it is where nothing is made on the way to it. -/
theorem Tree.Makes.get?_below {items : List Item} {row : List Text} (h : tree.Makes items other)
    (hfolder : tree.Holds (.folder target.folder))
    (hitems : ∀ item ∈ items, ∃ rel names, item.path = target.path rel ∧ Path.Relative rel names ∧
      ¬ row <+: names) :
    other.get? (target.folder.resolve ++ row) = tree.get? (target.folder.resolve ++ row) := by
  by_cases hmem : ∃ item ∈ items, target.folder.resolve ++ row ∈ item.path.places
  · obtain ⟨item, hitem, hplace⟩ := hmem
    obtain ⟨rel, names, hpath, hrel, hrow⟩ := hitems item hitem
    rw [hpath] at hplace
    rcases Path.mem_places_of_relative hrel hplace with hpassed | ⟨first, hfirst, heq⟩
    · have hget := hfolder.passed _ hpassed
      rw [hget, h.below.folder _ hget]
    · rw [← List.append_cancel_left heq] at hfirst
      exact absurd hfirst hrow
  · exact h.rest _ fun item hitem hplace => hmem ⟨item, hitem, hplace⟩

/-- What has another name than those on the way to the errors stays as it is when they are made. -/
theorem Tree.Makes.get?_errors {place : Path} {last : Text}
    (h : tree.Makes (errorItems config tree) other) (hroot : tree.Holds (.folder config.root))
    (hend : place.getLast? = some last) (hlast : last ∉ errorRow) :
    other.get? place = tree.get? place := by
  by_cases hmem : ∃ item ∈ errorItems config tree, place ∈ item.path.places
  · obtain ⟨item, hitem, hplace⟩ := hmem
    have hpath : item.path = config.root ++ errorRow := by
      rw [errorItems] at hitem
      split at hitem
      · cases hitem
      · rw [List.mem_singleton.1 hitem, Item.path, config.errorUnionPath_eq]
    have hsame : place ∈ config.root.places → other.get? place = tree.get? place := by
      intro hmem
      have hfolder : tree.get? place = some .folder := by
        rcases List.mem_append.1 hmem with hpassed | hhere
        · exact hroot.passed _ hpassed
        · rw [List.mem_singleton.1 hhere]
          exact hroot.get
      rw [hfolder, h.below.folder _ hfolder]
    rw [hpath] at hplace
    rcases Path.mem_places_append errorRow_plain hplace with hpassed | ⟨first, hfirst, heq⟩
    · exact hsame (Path.passed_subset_places hpassed)
    · by_cases hnil : first = []
      · rw [hnil, List.append_nil] at heq
        exact hsame (heq ▸ Path.resolve_mem_places _)
      · rw [heq, List.getLast?_append_of_ne_nil _ hnil] at hend
        exact absurd (hfirst.subset (List.mem_of_getLast? hend)) hlast
  · exact h.rest place fun item hitem hplace => hmem ⟨item, hitem, hplace⟩

/-- A later run finds the feature under the same target, unless a folder comes up where its models
are looked for. -/
theorem Config.target_eq_of_below (htarget : config.target project name tree = .ok target)
    (hready : Ready target tree) (hbelow : tree.Below other)
    (hsame : target.feature.modelFolder = ("model" : Text) →
      other.get? (target.folder.resolve ++ [("data" : Text), "models"]) =
        tree.get? (target.folder.resolve ++ [("data" : Text), "models"])) :
    config.target project name other = .ok target := by
  obtain ⟨hasModels, hknown, heq⟩ := Config.target_eq_ok_iff.1 htarget
  have hplace : target.folder = config.featurePath name := (Config.name_of_target htarget).2
  refine Config.target_eq_ok_iff.2 ⟨hasModels, ?_, heq⟩
  rw [config.modelsPath_eq, ← hplace] at hknown ⊢
  cases hasModels with
  | true =>
      rw [Tree.hasFolder_eq_true_iff] at hknown ⊢
      exact ⟨hbelow.find hknown.1, hbelow.folder _ hknown.2⟩
  | false =>
      have hfits : Path.Fits (target.folder ++ [("data" : Text), "models"]) := by
        rw [hplace, ← config.modelsPath_eq] at hknown ⊢
        exact Config.fits_modelsPath (hplace ▸ hready.folder.fits) hknown
      obtain ⟨known, hlater⟩ : ∃ known, other.hasFolder
          (target.folder ++ [("data" : Text), "models"]) = .ok known := Tree.hasFolder_of_fits hfits
      cases known with
      | false => exact hlater
      | true =>
          -- a folder for models would have been there before
          have hget := (Tree.hasFolder_eq_true_iff.1 hlater).2
          rw [Path.resolve_append, Path.foldl_enter_of_plain dataModels_plain,
            hsame (by rw [heq]; rfl)] at hget
          have hfind := Tree.find_append hready.sound hready.folder dataModels_plain hfits
            (by rw [hget]; rfl)
          rw [Tree.hasFolder_of_find hfind, hget] at hknown
          cases hknown

/-- A later run finds a feature that has been generated in full under the same target. -/
theorem Config.target_eq_of_makes (hplaced : Placed target.feature admitted)
    (hready : Ready target tree) (hroot : tree.Holds (.folder config.root))
    (htarget : config.target project name tree = .ok target)
    (hmakes : tree.Makes (target.fullItems admitted layers) middle)
    (herrors : middle.Makes (errorItems config middle) other) :
    config.target project name other = .ok target := by
  have hbelow := hmakes.below.trans herrors.below
  refine Config.target_eq_of_below htarget hready hbelow fun hmodels => ?_
  have hend : (target.folder.resolve ++ [("data" : Text), "models"]).getLast? =
      some ("models" : Text) := by
    rw [List.getLast?_append]
    rfl
  rw [herrors.get?_errors (hmakes.below.holds_folder hroot) hend (by decide)]
  refine hmakes.get?_below hready.folder fun item hitem => ?_
  obtain ⟨layer, row, -, rel, hpath, hown⟩ := owns_fullItems hplaced hmodels hitem
  refine ⟨rel, row, hpath, hown.relative, ?_⟩
  rintro ⟨rest, rfl⟩
  obtain ⟨second, hsecond, hne⟩ := hown.second
  exact hne (Option.some.inj hsecond).symm

namespace Extended

variable (h : Extended config target admitted layers tree middle other)
  (hready : Ready target tree) (hroot : tree.Holds (.folder config.root))

include h

theorem below : tree.Below other := h.slots.below.trans h.errors.below

include hready hroot

/-- What lies in the feature's folder apart from the slots stays as it is. -/
theorem get?_apart (hplaced : Placed target.feature admitted) (row : List Text) {last : Text}
    (hlast : last ∉ errorRow)
    (hrow : ∀ slot ∈ appendSlots target.feature admitted layers,
      ¬ row ++ [last] <+: Path.names slot.path) :
    other.get? (target.folder.resolve ++ (row ++ [last])) =
      tree.get? (target.folder.resolve ++ (row ++ [last])) := by
  have hslots : middle.get? (target.folder.resolve ++ (row ++ [last])) =
      tree.get? (target.folder.resolve ++ (row ++ [last])) := by
    refine h.slots.get?_below hready.folder fun item hitem => ?_
    obtain ⟨slot, hslot, -, hpath⟩ := Slot.path_of_mem_items hitem
    obtain ⟨folder, end', hlies⟩ := (spread_appendSlots hplaced).sited slot hslot
    refine ⟨_, _, hpath, hlies.relative, ?_⟩
    rw [← hlies.relative.names]
    exact hrow slot hslot
  have hend : (target.folder.resolve ++ (row ++ [last])).getLast? = some last := by
    rw [← List.append_assoc, List.getLast?_concat]
  rw [h.errors.get?_errors (h.slots.below.holds_folder hroot) hend hlast, hslots]

/-- A later run finds the feature under the same target. -/
theorem target_eq (hplaced : Placed target.feature admitted)
    (htarget : config.target project name tree = .ok target) :
    config.target project name other = .ok target :=
  Config.target_eq_of_below htarget hready h.below fun hmodels =>
    h.get?_apart hready hroot hplaced ["data"] (by decide) fun _ hslot =>
      models_not_prefix hplaced hmodels hslot

/-- Where the data layer is left out, the service file stays as it is. -/
theorem readService_eq (hplaced : Placed target.feature admitted) (hdata : layers.data = false) :
    target.readService other = target.readService tree := by
  refine Target.readService_congr fun place hplace => ?_
  have hfolder : ∀ passed ∈ target.folder.places, other.get? passed = tree.get? passed := by
    intro passed hpassed
    have hget : tree.get? passed = some .folder := by
      rcases List.mem_append.1 hpassed with hpassed | hpassed
      · exact hready.folder.passed _ hpassed
      · rw [List.mem_singleton.1 hpassed]
        exact hready.folder.get
    rw [hget, h.below.folder _ hget]
  have hrel := (SourceFile.ofClass .service).relative hplaced.name
  rcases Path.mem_places_of_relative hrel hplace with hpassed | ⟨first, hfirst, rfl⟩
  · exact hfolder place (Path.passed_subset_places hpassed)
  · obtain rfl | ⟨row, last, hrow⟩ := List.eq_nil_or_concat first
    · rw [List.append_nil]
      exact hfolder _ (Path.resolve_mem_places _)
    · rw [List.concat_eq_append] at hrow
      subst hrow
      have hlast : last ∉ errorRow := by
        have hmem : last ∈ ("data" : Text) :: "remote" :: "service" ::
            [target.feature.name ++ ("_service.dart" : Text)] := hfirst.subset (by simp)
        simp only [List.mem_cons, List.not_mem_nil, or_false] at hmem
        rcases hmem with rfl | rfl | rfl | rfl
        · decide
        · decide
        · decide
        · have hbar : ∀ name ∈ errorRow, '_' ∉ name := by decide
          exact fun hmem => hbar _ hmem (List.mem_append_right _ (by decide))
      obtain ⟨rest, hrest⟩ : ∃ rest, row ++ [last] = ("data" : Text) :: rest := by
        obtain ⟨name, rest, hcons⟩ := List.exists_cons_of_ne_nil (l := row ++ [last]) (by simp)
        rw [hcons] at hfirst ⊢
        exact ⟨rest, congrArg (· :: rest) (List.cons_prefix_cons.1 hfirst).1⟩
      refine h.get?_apart hready hroot hplaced row hlast fun slot hslot => ?_
      rw [hrest]
      exact data_not_prefix hplaced hdata rest hslot

end Extended

end Scaffold
