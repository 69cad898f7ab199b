import Scaffold.Proofs.Project.Layer
import Scaffold.Proofs.Project.Runs

/-!
# Projects without the feature

What the first run makes in a project that lacks the feature stays in the feature's folder, the way
there and the errors shared by all features apart (`Item.IsOwn`). So later runs find the feature
under the same target (`Config.Lacks.target_eq`), and whether the errors are there depends only on
whether anything has been made (`Config.Lacks.has_errors`).
-/

namespace Scaffold

variable {config : Config} {project name : Text} {endpoints : List Endpoint} {layers : Layers}
  {tree other third : Tree} {items items' : List Item} {item : Item} {target : Target}
  {layer : Layer} {row : List Text}

/-- The project lacks the feature, and the path of the features does not go up. -/
structure Config.Lacks (config : Config) (name : Text) (tree : Tree) : Prop where
  sound : tree.Sound
  root : tree.Holds (.folder config.root)
  plain : upName ∉ Path.names config.featuresPath
  absent : tree.get? (config.featurePath name).resolve ≠ some .folder

/-- The empty file system lacks every feature. -/
theorem Config.lacks_of_empty (hroot : config.root = [])
    (hplain : upName ∉ Path.names config.featuresPath)
    (hplace : (config.featurePath name).resolve ≠ []) : config.Lacks name {} := by
  have hget : ∀ place : Path, place ≠ [] → Tree.get? {} place = none := by
    intro place hne
    cases place with
    | nil => exact absurd rfl hne
    | cons first rest => rfl
  refine ⟨fun place entry hentry => ?_, ?_, hplain, ?_⟩
  · cases place with
    | nil => rfl
    | cons first rest =>
        rw [hget _ (List.cons_ne_nil _ _)] at hentry
        cases hentry
  · rw [hroot]
    exact ⟨by decide, rfl⟩
  · rw [hget _ hplace]
    nofun

/-! ## Items of the feature -/

/-- The item lies in the folder of a layer, at the end of a row of names. -/
def Item.IsOwn (item : Item) (target : Target) (layer : Layer) (row : List Text) : Prop :=
  ∃ rel, item.path = target.path rel ∧ Path.IsOwn rel layer row

theorem Item.IsOwn.path_eq (h : item.IsOwn target layer row) :
    item.path = target.folder ++ row := by
  obtain ⟨rel, hpath, hrel⟩ := h
  rw [hpath, Target.path, Path.join_of_relative hrel.relative.relative, hrel.relative.names]

theorem Item.IsOwn.mem_places {place : Path} (h : item.IsOwn target layer row)
    (hplace : place ∈ item.path.places) :
    place ∈ target.folder.passed ∨ ∃ first, first <+: row ∧ place = target.folder.resolve ++ first := by
  obtain ⟨rel, hpath, hrel⟩ := h
  rw [hpath] at hplace
  exact Path.mem_places_of_relative hrel.relative hplace

theorem Item.IsOwn.row_ne_nil (h : item.IsOwn target layer row) : row ≠ [] := by
  obtain ⟨rel, -, hrel⟩ := h
  rintro rfl
  cases hrel.head

theorem Item.IsOwn.place_eq (h : item.IsOwn target layer row) :
    item.place = target.folder.resolve ++ row := by
  obtain ⟨rel, hpath, hrel⟩ := h
  rw [Item.place, hpath, Target.path, Path.resolve_join hrel.relative]

/-- Items at one place lie in the folder of one layer. -/
theorem Item.IsOwn.unique {made : Item} {layer' : Layer} {row' : List Text}
    (h : item.IsOwn target layer row) (h' : made.IsOwn target layer' row')
    (hplace : item.place = made.place) : layer = layer' ∧ row = row' := by
  have hrow : row = row' := by
    rw [h.place_eq, h'.place_eq] at hplace
    exact List.append_cancel_left hplace
  refine ⟨?_, hrow⟩
  obtain ⟨rel, -, hown⟩ := h
  obtain ⟨rel', -, hown'⟩ := h'
  have hhead := hown.head
  rw [hrow, hown'.head] at hhead
  exact Layer.folder_injective (Option.some.inj hhead).symm

/-- The folders on the way to something that can be found. -/
theorem Tree.holds_of_find {first row : Path} (hrow : row ≠ [])
    (h : tree.find (first ++ row) = .ok (first ++ row).resolve) : tree.Holds (.folder first) := by
  induction row using List.reverseRecOn with
  | nil => exact absurd rfl hrow
  | append_singleton row last ih =>
      rw [← List.append_assoc] at h
      have hparent := Tree.Holds.parent h (by simp)
      rw [List.dropLast_concat] at hparent
      by_cases hnil : row = []
      · rwa [hnil, List.append_nil] at hparent
      · exact ih hnil hparent.find

/-- Where something of the feature is, the feature is. -/
theorem Item.IsOwn.folder (h : item.IsOwn target layer row) (hholds : tree.Holds item) :
    tree.Holds (.folder target.folder) := by
  have hfind := hholds.find
  rw [Item.place, h.path_eq] at hfind
  exact Tree.holds_of_find h.row_ne_nil hfind

/-- The names of a text follow a path that leads through folders. -/
theorem Path.join_eq_append {base : Path} (h : tree.Holds (.folder base)) (text : Text) :
    ∃ first, base.join text = first ++ Path.names text ∧
      ∀ place ∈ first.passed, tree.get? place = some .folder := by
  rw [Path.join]
  split
  · rw [Path.ofAbsolute]
    split
    · refine ⟨[[]], rfl, fun place hplace => ?_⟩
      rw [List.mem_singleton.1 hplace]
      rfl
    · exact ⟨[], rfl, fun place hplace => by cases hplace⟩
  · exact ⟨base, rfl, h.passed⟩

/-- Plain names follow a path that leads through folders, and make up the path of the feature's folder
with it. -/
theorem Config.exists_featurePath (hroot : tree.Holds (.folder config.root))
    (hplain : upName ∉ Path.names config.featuresPath) (hname : FeatureName name) :
    ∃ first row, config.featurePath name = first ++ row ∧
      (∀ place ∈ first.passed, tree.get? place = some .folder) ∧
      ∀ other ∈ row, other ≠ [] ∧ other ≠ upName := by
  obtain ⟨first, hjoin, hpassed⟩ := Path.join_eq_append hroot config.featuresPath
  refine ⟨first, Path.names config.featuresPath ++ [name], ?_, hpassed, ?_⟩
  · rw [Config.featurePath, Path.join_of_relative hname.relative.relative, hname.relative.names,
      hjoin, List.append_assoc]
  · refine List.forall_mem_append.2 ⟨fun other hother => ⟨?_, fun hup => hplain (hup ▸ hother)⟩,
      hname.relative.plain⟩
    rintro rfl
    simp [Path.names] at hother

/-- If the feature's folder is there, its path leads to it. -/
theorem Config.holds_featurePath (hsound : tree.Sound) (hroot : tree.Holds (.folder config.root))
    (hplain : upName ∉ Path.names config.featuresPath) (hname : FeatureName name)
    (hfits : (config.featurePath name).Fits)
    (hget : tree.get? (config.featurePath name).resolve = some .folder) :
    tree.Holds (.folder (config.featurePath name)) := by
  obtain ⟨first, row, hpath, hpassed, hrow⟩ := Config.exists_featurePath hroot hplain hname
  refine ⟨Tree.find_eq_ok_iff.2 ⟨hfits, fun place hplace => ?_, rfl⟩, hget⟩
  rw [Item.path, hpath, Path.passed_append] at hplace
  rcases List.mem_append.1 hplace with hplace | hplace
  · exact hpassed place hplace
  · obtain ⟨front, rest, rfl, hrest, rfl⟩ := Path.passedFrom_of_plain hrow hplace
    rw [hpath, Path.resolve_append, Path.foldl_enter_of_plain hrow, ← List.append_assoc] at hget
    exact hsound.folder_of_append hrest hget

namespace Config.Lacks

variable (h : config.Lacks name tree)

include h

/-- The way to the feature's folder does not lead through the folder. -/
theorem not_mem_passed (hname : FeatureName name)
    (hnone : tree.get? (config.featurePath name).resolve = none) (row : Path) :
    (config.featurePath name).resolve ++ row ∉ (config.featurePath name).passed := by
  obtain ⟨first, names, hpath, hpassed, hnames⟩ := Config.exists_featurePath h.root h.plain hname
  intro hmem
  have hfolder : (config.featurePath name).resolve ++ row ∉ first.passed := by
    intro hmem
    have hfolder := hpassed _ hmem
    rw [h.sound.get?_append_eq_none hnone] at hfolder
    cases hfolder
  rw [hpath, Path.passed_append, ← hpath] at hmem
  rcases List.mem_append.1 hmem with hmem | hmem
  · exact hfolder hmem
  · obtain ⟨front, rest, hrow, hrest, hplace⟩ := Path.passedFrom_of_plain hnames hmem
    rw [hpath, Path.resolve_append, Path.foldl_enter_of_plain hnames, hrow, List.append_assoc,
      List.append_assoc] at hplace
    have hshort := List.append_cancel_left (List.append_cancel_left hplace |>.trans
      (List.append_nil front).symm)
    exact hrest (List.append_eq_nil_iff.1 hshort).1

/-- Where something of the feature can be made, nothing stands at its folder. -/
theorem get?_eq_none (hmakes : tree.Makes items other) (hitem : item ∈ items)
    (hown : item.IsOwn target layer row) (hfolder : target.folder = config.featurePath name) :
    tree.get? (config.featurePath name).resolve = none := by
  have hplace : other.get? (config.featurePath name).resolve = some .folder := by
    rw [← hfolder]
    exact (hown.folder (hmakes.holds item hitem)).get
  rcases hmakes.below.none_or_folder hplace with hnone | hsome
  · exact hnone
  · exact absurd hsome h.absent

theorem featureExists (hfits : (config.featurePath name).Fits) :
    config.featureExists name tree = .ok false := by
  obtain ⟨known, hknown⟩ : ∃ known, tree.hasFolder (config.featurePath name) = .ok known :=
    Tree.hasFolder_of_fits hfits
  cases known with
  | false => exact hknown
  | true => exact absurd (Tree.hasFolder_eq_true_iff.1 hknown).2 h.absent

end Config.Lacks

/-! ## The errors shared by all features -/

/-- The names on the way from the root to the errors shared by all features. -/
def errorRow : List Text := ["lib", "core", "error", "error.dart"]

theorem Config.errorUnionPath_eq (config : Config) :
    config.errorUnionPath = config.root ++ errorRow := by
  have hstart : Text.startsWith (Config.errorUnionLocation : Text) "/" = false := by decide
  have hnames : Path.names Config.errorUnionLocation = errorRow := by decide
  rw [Config.errorUnionPath, Path.join_of_relative hstart, hnames]

theorem errorRow_plain : ∀ name ∈ errorRow, name ≠ [] ∧ name ≠ upName := by
  decide

/-- The place of the errors shared by all features. -/
def Config.errorPlace (config : Config) : Path := config.root.resolve ++ errorRow

theorem Config.resolve_errorUnionPath (config : Config) :
    config.errorUnionPath.resolve = config.errorPlace := by
  rw [config.errorUnionPath_eq, Path.resolve_append, Path.foldl_enter_of_plain errorRow_plain]
  rfl

theorem Config.getLast?_errorPlace (config : Config) :
    config.errorPlace.getLast? = some ("error.dart" : Text) := by
  rw [Config.errorPlace, List.getLast?_append]
  rfl

theorem place_of_mem_errorItems (h : item ∈ errorItems config tree) :
    item.place = config.errorPlace := by
  rw [errorItems] at h
  split at h
  · cases h
  · rw [List.mem_singleton.1 h]
    exact config.resolve_errorUnionPath

/-- No file of the feature lies at the place of the errors. -/
theorem place_ne_errorPlace {file : FeatureFile} (hplaced : Placed target.feature endpoints)
    (hfile : file ∈ featureFiles target.feature endpoints layers) :
    (target.path file.1).resolve ≠ config.errorPlace := by
  obtain ⟨folder, last, hsited⟩ := sited_of_mem_featureFiles hplaced hfile
  intro heq
  have hlast := config.getLast?_errorPlace
  rw [← heq, Target.path, Path.resolve_join hsited.relative, ← List.append_assoc,
    List.getLast?_concat, Option.some.injEq] at hlast
  exact hsited.relative.other last (by simp) hlast

/-- The errors are made behind the items of a feature, which stay as they are. -/
theorem Tree.Makes.append_errors {middle : Tree} (hplaced : Placed target.feature endpoints)
    (h : tree.Makes (target.fullItems endpoints layers) middle)
    (herrors : middle.Makes (errorItems config middle) other) :
    tree.Makes (target.fullItems endpoints layers ++ errorItems config middle) other := by
  refine h.append herrors fun path text hitem made hmade hplace => ?_
  obtain ⟨file, hfile, rfl, -⟩ := mem_featureFiles_of_item hitem
  exact absurd (hplace.symm.trans (place_of_mem_errorItems hmade)) (place_ne_errorPlace hplaced hfile)

/-- The items that ensuring the errors makes when the feature is made: none if they are there, or
if the way to the feature leads through their place. -/
def Config.missingErrors (config : Config) (name : Text) (tree : Tree) : List Item :=
  if (tree.get? config.errorPlace).isSome ∨ config.errorPlace ∈ (config.featurePath name).passed
    then []
  else [.file config.errorUnionPath errorUnionFile]

/-- A file of the feature is never that of the errors. -/
theorem Item.IsOwn.errorPlace (h : item.IsOwn target layer row) (hname : FeatureName name)
    (hfolder : target.folder = config.featurePath name)
    (hmem : config.errorPlace ∈ item.path.places) :
    config.errorPlace ∈ (config.featurePath name).passed := by
  have hlast : config.errorPlace.getLast? = some ("error.dart" : Text) := by
    rw [Config.errorPlace, List.getLast?_append]
    rfl
  rcases h.mem_places hmem with hpassed | ⟨first, hfirst, hplace⟩
  · rwa [hfolder] at hpassed
  · obtain ⟨rel, -, hrel⟩ := h
    rw [hplace, hfolder] at hlast
    by_cases hnil : first = []
    · rw [hnil, List.append_nil, hname.resolve_featurePath, List.getLast?_concat,
        Option.some.injEq] at hlast
      refine absurd ?_ hname.noDot
      rw [hlast]
      decide
    · rw [List.getLast?_append_of_ne_nil _ hnil] at hlast
      exact absurd rfl (hrel.relative.other _ (hfirst.subset (List.mem_of_getLast? hlast)))

/-- Nothing of the feature stands on the way to the errors. -/
theorem Config.Lacks.not_mem_error_places (h : config.Lacks name tree)
    (hnone : tree.get? (config.featurePath name).resolve = none)
    (hrow : row.head? = some layer.folder) :
    (config.featurePath name).resolve ++ row ∉ config.errorUnionPath.places := by
  obtain ⟨head, rest, rfl⟩ : ∃ head rest, row = head :: rest := by
    cases row with
    | nil => cases hrow
    | cons head rest => exact ⟨head, rest, rfl⟩
  obtain rfl : head = layer.folder := Option.some.inj hrow
  have hforeign : layer.folder ∉ errorRow := by
    cases layer <;> decide
  have hfolders : ∀ place, tree.get? place = some .folder →
      ∀ names, (config.featurePath name).resolve ++ names ≠ place := by
    rintro place hplace names rfl
    rw [h.sound.get?_append_eq_none hnone] at hplace
    cases hplace
  rw [config.errorUnionPath_eq, Path.places, Path.passed_append, Path.resolve_append,
    Path.foldl_enter_of_plain errorRow_plain]
  have hbelow : ∀ first, first <+: errorRow →
      (config.featurePath name).resolve ++ layer.folder :: rest ≠ config.root.resolve ++ first := by
    intro first hfirst heq
    rcases List.append_eq_append_iff.1 heq with ⟨names, hroot, -⟩ | ⟨names, -, hnames⟩
    · exact hfolders _ h.root.get names hroot.symm
    · refine hforeign (hfirst.subset ?_)
      rw [hnames]
      simp
  intro hmem
  rcases List.mem_append.1 hmem with hmem | hmem
  · rcases List.mem_append.1 hmem with hmem | hmem
    · exact hfolders _ (h.root.passed _ hmem) _ rfl
    · obtain ⟨first, rest', hfirst, -, hplace⟩ := Path.passedFrom_of_plain errorRow_plain hmem
      exact hbelow first ⟨rest', hfirst.symm⟩ hplace
  · exact hbelow errorRow (List.prefix_refl _) (List.mem_singleton.1 hmem)

/-- The items lie in the feature's folder. -/
def Target.Owns (target : Target) (items : List Item) : Prop :=
  ∀ item ∈ items, ∃ layer row, item.IsOwn target layer row

/-- The target of a feature that the project lacks. -/
structure Target.Begins (config : Config) (target : Target) (start : Tree) : Prop where
  lacks : config.Lacks target.feature.name start
  name : FeatureName target.feature.name
  folder : target.folder = config.featurePath target.feature.name
  models : target.feature.modelFolder = ("model" : Text)

/-- Nothing has been made for the layer. -/
def Target.Lacks (target : Target) (items : List Item) (layer : Layer) : Prop :=
  ∀ item ∈ items, ∀ layer' row, item.IsOwn target layer' row → layer' ≠ layer

/-- Whether the errors are there once the feature has been made. -/
theorem Target.Begins.has_errors (h : target.Begins config tree) (hmakes : tree.Makes items other)
    (hown : target.Owns items) (hne : items ≠ []) (hfits : config.errorUnionPath.Fits) :
    other.has config.errorUnionPath =
      .ok (config.missingErrors target.feature.name tree).isEmpty := by
  have hroot := hmakes.below.holds_folder h.lacks.root
  rw [config.errorUnionPath_eq] at hfits ⊢
  rw [Tree.has_append (hmakes.sound h.lacks.sound) hroot errorRow_plain hfits]
  show Except.ok (other.get? config.errorPlace).isSome = _
  obtain ⟨item, hitem⟩ := List.exists_mem_of_ne_nil _ hne
  obtain ⟨layer, row, hitemOwn⟩ := hown item hitem
  have hpassed := (hitemOwn.folder (hmakes.holds item hitem)).passed
  rw [Config.missingErrors]
  by_cases hway : config.errorPlace ∈ (config.featurePath target.feature.name).passed
  · rw [if_pos (.inr hway), hpassed _ (h.folder ▸ hway)]
    rfl
  · have hrest : other.get? config.errorPlace = tree.get? config.errorPlace := by
      refine hmakes.rest _ fun made hmade hplace => hway ?_
      obtain ⟨layer, row, hmadeOwn⟩ := hown made hmade
      exact hmadeOwn.errorPlace h.name h.folder hplace
    rw [hrest]
    cases hget : (tree.get? config.errorPlace).isSome with
    | true => rw [if_pos (.inl rfl), List.isEmpty_nil]
    | false => rw [if_neg (by simpa using hway), List.isEmpty_cons]

/-! ## Trees in which the feature has been made -/

/-- The tree results from one without the feature by making items of the feature, and the errors
shared by all features. -/
structure Config.Grown (config : Config) (target : Target) (start : Tree) (items : List Item)
    (tree : Tree) : Prop where
  makes : start.Makes (items ++ config.missingErrors target.feature.name start) tree
  has : tree.has config.errorUnionPath = .ok true
  owns : target.Owns items
  ne_nil : items ≠ []

theorem errorItems_eq_of_has {known : Bool} (h : tree.has config.errorUnionPath = .ok known) :
    errorItems config tree =
      if known then [] else [.file config.errorUnionPath errorUnionFile] := by
  cases known with
  | true => exact errorItems_of_has h
  | false =>
      rw [errorItems, h]
      rfl

theorem Config.missingErrors_cases (config : Config) (name : Text) (tree : Tree) :
    config.missingErrors name tree = [] ∨
      config.missingErrors name tree = [.file config.errorUnionPath errorUnionFile] := by
  rw [Config.missingErrors]
  split
  · exact .inl rfl
  · exact .inr rfl

theorem Target.Begins.errorItems_eq (h : target.Begins config tree)
    (hmakes : tree.Makes items other) (hown : target.Owns items) (hne : items ≠ [])
    (hfits : config.errorUnionPath.Fits) :
    errorItems config other = config.missingErrors target.feature.name tree := by
  rw [errorItems_eq_of_has (h.has_errors hmakes hown hne hfits)]
  rcases config.missingErrors_cases target.feature.name tree with herrors | herrors
  · rw [herrors]
    rfl
  · rw [herrors]
    rfl

theorem Tree.fits_of_has {path : Path} (h : tree.has path = .ok true) : path.Fits :=
  (Tree.find_eq_ok_iff.1 (Tree.has_eq_true_iff.1 h).1).1

/-- If the errors are missing, no file of the feature is made at their place. -/
theorem Item.IsOwn.place_ne_error (h : item.IsOwn target layer row)
    (hstart : target.Begins config tree)
    (hmissing : config.missingErrors target.feature.name tree ≠ []) :
    item.place ≠ config.errorUnionPath.resolve := by
  intro hplace
  have hresolve : config.errorUnionPath.resolve = config.errorPlace := by
    rw [config.errorUnionPath_eq, Path.resolve_append, Path.foldl_enter_of_plain errorRow_plain]
    rfl
  have hmem : config.errorPlace ∈ item.path.places := by
    rw [← hresolve, ← hplace]
    exact Path.resolve_mem_places item.path
  have hway := h.errorPlace hstart.name hstart.folder hmem
  rw [Config.missingErrors, if_pos (.inr hway)] at hmissing
  exact hmissing rfl

/-- Making the errors after items of the feature. -/
theorem Config.Grown.of_makes {start middle : Tree} (h : target.Begins config start)
    (hmakes : start.Makes items middle) (howns : target.Owns items) (hne : items ≠ [])
    (herrors : middle.Makes (errorItems config middle) tree)
    (hhas : tree.has config.errorUnionPath = .ok true) : config.Grown target start items tree where
  makes := by
    have hfits := Tree.fits_of_has hhas
    rw [h.errorItems_eq hmakes howns hne hfits] at herrors
    refine hmakes.append herrors fun path text hfile made hmade hplace => ?_
    rcases config.missingErrors_cases target.feature.name start with hnil | hmissing
    · rw [hnil] at hmade
      cases hmade
    · rw [hmissing, List.mem_singleton] at hmade
      obtain ⟨layer, row, hown⟩ := howns _ hfile
      have hne := hown.place_ne_error h (by simp [hmissing])
      rw [hmade] at hplace
      exact absurd hplace.symm hne
  has := hhas
  owns := howns
  ne_nil := hne

namespace Config.Grown

variable {start : Tree}

theorem below (h : config.Grown target start items tree) : start.Below tree := h.makes.below

theorem holds (h : config.Grown target start items tree) (hitem : item ∈ items) : tree.Holds item :=
  h.makes.holds item (List.mem_append_left _ hitem)

theorem sound (h : config.Grown target start items tree) (hsound : start.Sound) : tree.Sound :=
  h.makes.sound hsound

/-- A tree in which less has been made lies below one in which more has been made. -/
theorem below_of (h : config.Grown target start items tree)
    (h' : config.Grown target start items' other) (hitems : ∀ item ∈ items, other.HasLike item) :
    tree.Below other := by
  refine h.makes.below_of h'.below (List.forall_mem_append.2 ⟨hitems, fun item hitem => ?_⟩)
  exact (h'.makes.holds item (List.mem_append_right _ hitem)).hasLike

/-- Making more items of the feature. Files that have been made before and are not made again are
made by both together. -/
theorem extend {all : List Item} (h : config.Grown target start items tree)
    (hstart : target.Begins config start) (hmakes : tree.Makes items' other)
    (howns : target.Owns all) (hne : all ≠ [])
    (hcover : ∀ item ∈ items ++ items', ∃ made ∈ all, made.path = item.path)
    (hall : ∀ item ∈ all, item ∈ items' ∨ item ∈ items ∧ ∀ path text, item = .file path text →
      ∀ made ∈ items', made.place = path.resolve → made.entry = .file (.text text)) :
    config.Grown target start all other where
  makes := by
    refine h.makes.trans hmakes (fun item hitem => ?_) fun item hitem => ?_
    · rw [List.append_assoc, List.mem_append, List.mem_append] at hitem
      rcases hitem with hitem | herror | hitem
      · obtain ⟨made, hmade, hpath⟩ := hcover item (List.mem_append_left _ hitem)
        exact ⟨made, List.mem_append_left _ hmade, hpath⟩
      · exact ⟨item, List.mem_append_right _ herror, rfl⟩
      · obtain ⟨made, hmade, hpath⟩ := hcover item (List.mem_append_right _ hitem)
        exact ⟨made, List.mem_append_left _ hmade, hpath⟩
    · rcases List.mem_append.1 hitem with hitem | herror
      · rcases hall item hitem with hnew | ⟨hold, hkeep⟩
        · exact .inl hnew
        · exact .inr ⟨List.mem_append_left _ hold, hkeep⟩
      · refine .inr ⟨List.mem_append_right _ herror, ?_⟩
        rintro path text rfl made hmade hplace
        rcases config.missingErrors_cases target.feature.name start with hnil | hmissing
        · rw [hnil] at herror
          cases herror
        · obtain ⟨made', hmade', hpath⟩ := hcover made (List.mem_append_right _ hmade)
          obtain ⟨layer, row, hown⟩ := howns made' hmade'
          have hne := hown.place_ne_error hstart (by simp [hmissing])
          rw [hmissing, List.mem_singleton, Item.file.injEq] at herror
          refine absurd ?_ hne
          rw [Item.place, hpath, ← herror.1]
          exact hplace
  has := hmakes.below.has h.has
  owns := howns
  ne_nil := hne

/-- The feature's folder is there. -/
theorem folder (h : config.Grown target start items tree) :
    tree.Holds (.folder target.folder) := by
  obtain ⟨item, hitem⟩ := List.exists_mem_of_ne_nil _ h.ne_nil
  obtain ⟨layer, row, hown⟩ := h.owns item hitem
  exact hown.folder (h.holds hitem)

theorem start_get? (h : config.Grown target start items tree) (hstart : target.Begins config start) :
    start.get? (config.featurePath target.feature.name).resolve = none := by
  rcases h.below.none_or_folder (hstart.folder ▸ h.folder.get) with hnone | hsome
  · exact hnone
  · exact absurd hsome hstart.lacks.absent

/-- Nothing stands where no item has been made. -/
theorem get?_eq_none (h : config.Grown target start items tree)
    (hstart : target.Begins config start) (hrow : row.head? = some layer.folder)
    (hitems : ∀ item ∈ items, ∀ layer row', item.IsOwn target layer row' → ¬ row <+: row') :
    tree.get? (target.folder.resolve ++ row) = none := by
  have hnone := h.start_get? hstart
  have hrest : tree.get? (target.folder.resolve ++ row) =
      start.get? (target.folder.resolve ++ row) := by
    refine h.makes.rest _ fun item hitem hplace => ?_
    rcases List.mem_append.1 hitem with hitem | hitem
    · obtain ⟨layer', row', hown⟩ := h.owns item hitem
      rcases hown.mem_places hplace with hpassed | ⟨first, hfirst, heq⟩
      · rw [hstart.folder] at hpassed
        exact hstart.lacks.not_mem_passed hstart.name hnone row hpassed
      · rw [List.append_cancel_left heq] at hitems
        exact hitems item hitem layer' row' hown hfirst
    · rcases config.missingErrors_cases target.feature.name start with hnil | hmissing
      · rw [hnil] at hitem
        cases hitem
      · rw [hmissing, List.mem_singleton] at hitem
        rw [hitem, hstart.folder] at hplace
        exact hstart.lacks.not_mem_error_places hnone hrow hplace
  rw [hrest, hstart.folder]
  exact hstart.lacks.sound.get?_append_eq_none hnone row

/-- Nothing stands in the folder of a layer for which no item has been made. -/
theorem get?_of_lacks {rel : Text} (h : config.Grown target start items tree)
    (hstart : target.Begins config start) (hown : Path.IsOwn rel layer row)
    (hlacks : target.Lacks items layer) : tree.get? (target.path rel).resolve = none := by
  rw [Target.path, Path.resolve_join hown.relative]
  refine h.get?_eq_none hstart hown.head fun item hitem layer' row' hitemOwn hpre => ?_
  refine hlacks item hitem layer' row' hitemOwn ?_
  obtain ⟨rel', -, hother⟩ := hitemOwn
  obtain ⟨rest, rfl⟩ := hpre
  have hhead : (row ++ rest).head? = row.head? := by
    obtain ⟨second, hsecond, -⟩ := hown.second
    cases row with
    | nil => cases hsecond
    | cons first row => rfl
  have hsame := hother.head
  rw [hhead, hown.head] at hsame
  exact (Layer.folder_injective (Option.some.inj hsame)).symm

/-- The feature is there. -/
theorem featureExists (h : config.Grown target start items tree)
    (hstart : target.Begins config start) :
    config.featureExists target.feature.name tree = .ok true := by
  rw [Config.featureExists, ← hstart.folder]
  exact h.folder.hasFolder

end Config.Grown

/-! ## The target in later runs -/

theorem Path.fits_models {folder : Path} {name : Text}
    (h : Path.Fits (folder ++ [("data" : Text), "remote", "service", name])) :
    Path.Fits (folder ++ [("data" : Text), "models"]) := by
  have hfront : folder ++ [("data" : Text), "remote", "service", name] =
      folder ++ [("data" : Text), "remote"] ++ [("service" : Text)] ++ [name] := by simp
  rw [hfront] at h
  exact h.of_concat.of_concat.replace_last (by decide) (by decide)

theorem dataModels_plain : ∀ name ∈ [("data" : Text), "models"], name ≠ [] ∧ name ≠ upName := by
  decide

theorem Config.modelsPath_eq (config : Config) (name : Text) :
    config.modelsPath name = config.featurePath name ++ [("data" : Text), "models"] := by
  have hrel : Path.Relative ("data/models" : Text) ["data", "models"] := by decide
  rw [Config.modelsPath, Path.join_of_relative hrel.relative, hrel.names]

theorem Target.servicePath_eq (hname : FeatureName target.feature.name) :
    target.servicePath = target.folder ++
      [("data" : Text), "remote", "service", target.feature.name ++ ("_service.dart" : Text)] := by
  have hrel : Path.Relative (ClassFile.service.path target.feature.name)
      ((SourceFile.ofClass .service).row target.feature.name) :=
    (SourceFile.ofClass .service).relative hname
  rw [Target.servicePath, Target.path, Path.join_of_relative hrel.relative, hrel.names]
  rfl

/-- Where the models of the feature would be looked for, nothing stands. -/
theorem Config.Grown.target_eq_of_models {start : Tree}
    (h : config.Grown target start items tree) (hstart : target.Begins config start)
    (hmodels : (config.modelsPath target.feature.name).Fits) :
    config.target target.feature.project target.feature.name tree = .ok target := by
  obtain ⟨known, hknown⟩ : ∃ known, tree.hasFolder (config.modelsPath target.feature.name) =
      .ok known := Tree.hasFolder_of_fits hmodels
  have hfalse : known = false := by
    cases known with
    | false => rfl
    | true =>
        have hget := (Tree.hasFolder_eq_true_iff.1 hknown).2
        rw [config.modelsPath_eq, Path.resolve_append, Path.foldl_enter_of_plain dataModels_plain,
          ← hstart.folder] at hget
        have hhead : ([("data" : Text), "models"] : List Text).head? = some Layer.data.folder := rfl
        have hnone := h.get?_eq_none hstart hhead fun item _ layer row hown hpre => by
          obtain ⟨rel, -, hown⟩ := hown
          obtain ⟨rest, rfl⟩ := hpre
          obtain ⟨second, hsecond, hne⟩ := hown.second
          exact absurd (Option.some.inj hsecond).symm hne
        rw [hnone] at hget
        cases hget
  rw [hfalse] at hknown
  rw [Config.target_eq_ok_iff]
  refine ⟨false, hknown, ?_⟩
  obtain ⟨⟨project, name, folder⟩, place⟩ := target
  obtain rfl : folder = ("model" : Text) := hstart.models
  obtain rfl : place = config.featurePath name := hstart.folder
  rfl

theorem Config.Grown.target_eq {start : Tree} (h : config.Grown target start items tree)
    (hstart : target.Begins config start) (hfits : target.servicePath.Fits) :
    config.target target.feature.project target.feature.name tree = .ok target := by
  refine h.target_eq_of_models hstart ?_
  rw [Target.servicePath_eq hstart.name, hstart.folder] at hfits
  rw [config.modelsPath_eq]
  exact Path.fits_models hfits

/-- The path at which models are looked for fits if the feature's folder is there and the path can
be asked for. -/
theorem Config.fits_modelsPath {known : Bool} {name : Text}
    (hfits : (config.featurePath name).Fits)
    (h : tree.hasFolder (config.modelsPath name) = .ok known) :
    (config.modelsPath name).Fits := by
  have hshort : ∀ folder ∈ [("data" : Text), "models"],
      folder.contains '\x00' = false ∧ Tree.byteCount folder ≤ Tree.nameLimit := by decide
  rw [config.modelsPath_eq] at h ⊢
  have hzero : (config.featurePath name ++ [("data" : Text), "models"]).any
      (·.contains '\x00') = false := by
    rw [List.any_append, hfits.noZero, Bool.false_or, List.any_eq_false]
    exact fun folder hmem => Bool.not_eq_true _ ▸ (hshort folder hmem).1
  refine ⟨hzero, ?_, fun folder hmem => ?_⟩
  · by_contra hlong
    have hfind : tree.find (config.featurePath name ++ [("data" : Text), "models"]) =
        .error .tooLong := by
      rw [Tree.find, hzero, if_neg Bool.false_ne_true, if_pos (Nat.not_le.1 hlong)]
    rw [Tree.hasFolder, Tree.look, hfind] at h
    cases h
  · rcases List.mem_append.1 hmem with hmem | hmem
    · exact hfits.names folder hmem
    · exact (hshort folder hmem).2

/-- Where the data layer has not been generated, there is no service file. -/
theorem Config.Grown.readService_of_lacks {start : Tree}
    (h : config.Grown target start items tree) (hstart : target.Begins config start)
    (hfits : target.servicePath.Fits) (hdata : target.Lacks items .data) :
    target.readService tree = .ok [] := by
  have hown := own_source hstart.name (.ofClass .service)
  have hnone := h.get?_of_lacks hstart hown hdata
  have hhas : tree.has target.servicePath = .ok false := by
    rw [Target.path, Path.resolve_join hown.relative] at hnone
    have hjoin := Tree.has_join (h.sound hstart.lacks.sound) h.folder hown.relative hfits
    rw [hnone] at hjoin
    exact hjoin
  rw [Target.readService, hhas]

/-! ## The first run -/

/-- All that a full generation makes lies in the folders of the chosen layers. -/
theorem owns_fullItems (hplaced : Placed target.feature endpoints)
    (hmodels : target.feature.modelFolder = ("model" : Text))
    (h : item ∈ target.fullItems endpoints layers) :
    ∃ layer row, layers.includes layer = true ∧ item.IsOwn target layer row := by
  rw [Target.fullItems, List.mem_append] at h
  rcases h with h | h
  · obtain ⟨folder, hfolder, rfl⟩ := List.mem_map.1 h
    obtain ⟨layer, row, hlayer, hown⟩ := own_of_mem_featureFolders hmodels hfolder
    exact ⟨layer, row, hlayer, folder, rfl, hown⟩
  · obtain ⟨file, hfile, rfl⟩ := List.mem_map.1 h
    obtain ⟨layer, row, hlayer, hown⟩ := own_of_mem_featureFiles hplaced hmodels hfile
    exact ⟨layer, row, hlayer, file.1, rfl, hown⟩

/-- The target of a feature that the project lacks. -/
def Config.freshTarget (config : Config) (project name : Text) : Target :=
  config.targetWith project name "model"

/-- In a project without the feature, a full generation that makes anything uses the folder for
models that is made by default. -/
theorem generateFull_first {desk desk' : Desk} {outcome : Outcome}
    (hstart : config.Lacks name desk.tree) (hname : FeatureName name)
    (hmethods : ∀ endpoint ∈ endpoints, '/' ∉ endpoint.methodName)
    (hitems : (config.freshTarget project name).fullItems endpoints layers ≠ [])
    (h : (generateFull config project name endpoints layers).runOn desk = (.ok outcome, desk')) :
    (config.freshTarget project name).Begins config desk.tree ∧
      config.target project name desk.tree = .ok (config.freshTarget project name) ∧
      (layers.data = true → endpoints.all (·.hasShowableModels) = true) ∧
      config.Grown (config.freshTarget project name) desk.tree
        ((config.freshTarget project name).fullItems endpoints layers) desk'.tree := by
  have hbegins : (config.freshTarget project name).Begins config desk.tree :=
    ⟨hstart, hname, rfl, rfl⟩
  obtain ⟨target, middle, htarget, hshowable, hmakes, herrors, hhas, -⟩ :=
    generateFull_makes hname hmethods h
  have hsame : target = config.freshTarget project name := by
    obtain ⟨hasModels, hmodels, rfl⟩ := Config.target_eq_ok_iff.1 htarget
    cases hasModels with
    | false => rfl
    | true =>
        have hget := (Tree.hasFolder_eq_true_iff.1 hmodels).2
        rw [config.modelsPath_eq, Path.resolve_append, Path.foldl_enter_of_plain dataModels_plain]
          at hget
        exact absurd (hstart.sound.folder_of_append (by simp) hget) hstart.absent
  subst hsame
  have hplaced : Placed (config.freshTarget project name).feature endpoints :=
    .of_target hname hmethods htarget
  have howns : (config.freshTarget project name).Owns
      ((config.freshTarget project name).fullItems endpoints layers) := by
    intro item hitem
    obtain ⟨layer, row, -, hown⟩ := owns_fullItems hplaced rfl hitem
    exact ⟨layer, row, hown⟩
  exact ⟨hbegins, htarget, hshowable, .of_makes hbegins hmakes howns hitems herrors hhas⟩

/-- Below a tree that has been grown, a first run returns if that tree has what the run makes. -/
theorem Config.Grown.full_run {desk : Desk} {single : Tree} {action : ExistsAction}
    (h : config.Grown target desk.tree items single) (hstart : target.Begins config desk.tree)
    (hfound : config.target target.feature.project target.feature.name desk.tree = .ok target)
    (hcheck : checkRun config target.feature.name endpoints layers = .ok ())
    (hmethods : ∀ endpoint ∈ endpoints, '/' ∉ endpoint.methodName)
    (hshowable : layers.data = true → endpoints.all (·.hasShowableModels) = true)
    (hlike : ∀ item ∈ target.fullItems endpoints layers, single.HasLike item)
    (hitems : target.fullItems endpoints layers ≠ []) :
    ∃ outcome desk', (generate config target.feature.project target.feature.name endpoints layers
        action).runOn desk = (.ok outcome, desk') ∧
      config.Grown target desk.tree (target.fullItems endpoints layers) desk'.tree ∧
      desk'.tree.Below single := by
  have hplaced : Placed target.feature endpoints := .of_target hstart.name hmethods hfound
  have howns : target.Owns (target.fullItems endpoints layers) := by
    intro item hitem
    obtain ⟨layer, row, -, hown⟩ := owns_fullItems hplaced hstart.models hitem
    exact ⟨layer, row, hown⟩
  have hexists : config.featureExists target.feature.name desk.tree = .ok false :=
    hstart.lacks.featureExists (hstart.folder ▸ h.folder.fits)
  obtain ⟨outcome, desk', hrun⟩ : ∃ outcome desk', (generateFull config target.feature.project
      target.feature.name endpoints layers).runOn desk = (.ok outcome, desk') := by
    refine generateFull_runOn hfound hshowable h.below hlike (fun middle hmiddle => ?_) hplaced
    rw [hstart.has_errors hmiddle howns hitems (Tree.fits_of_has h.has)]
    rcases config.missingErrors_cases target.feature.name desk.tree with hnone | hmissing
    · rw [hnone]
      exact .inl rfl
    · refine .inr ⟨by rw [hmissing]; rfl, ?_⟩
      have hholds := h.makes.holds (.file config.errorUnionPath errorUnionFile)
        (List.mem_append_right _ (by rw [hmissing]; exact List.mem_singleton_self _))
      exact hholds.holdsFile
  obtain ⟨target', middle, htarget, -, hmakes, herrors, hhas, -⟩ :=
    generateFull_makes hstart.name hmethods hrun
  obtain rfl : target = target' := Except.ok.inj (hfound.symm.trans htarget)
  have hgrown := Config.Grown.of_makes hstart hmakes howns hitems herrors hhas
  exact ⟨outcome, desk', generate_of_absent hcheck hexists hrun, hgrown, hgrown.below_of h hlike⟩

end Scaffold
