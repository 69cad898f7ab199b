import Mathlib.Data.List.Pairwise
import Scaffold.Proofs.Project.Start
import Scaffold.Proofs.Project.Warnings
import Scaffold.Proofs.Tree.Opening

/-!
# Files one by one

Extending a feature treats its files one by one (`generate_settles`): what becomes of a file depends
on its own text and on the endpoints that are taken in, a file without an anchor is left alone with
a warning, and the report names the files that have been written. Nothing else in the project
changes, but for the errors shared by all features if they are missing.
-/

namespace Scaffold

variable {desk desk' : Desk} {target : Target} {config : Config} {feature : Feature}
  {endpoints : List Endpoint} {layers : Layers} {project name : Text} {tree other : Tree}
  {slot : Slot} {slots : List Slot} {part : Part}

/-! ## Trees in which a feature can be extended -/

/-- Whether nothing of another kind stands where the slot is: a file that is read is a text. -/
def Slot.suits : Slot → Option Entry → Bool
  | .folder _, some (.file _) => false
  | .file .., some .folder => false
  | .file _ _ reads _, some (.file (.bytes _)) => !reads
  | _, _ => true

/-- The slots can be gone through: the ways to them are open and nothing of another kind stands
there. So it is for the errors shared by all features. -/
structure Config.Receives (config : Config) (target : Target) (slots : List Slot) (tree : Tree) :
    Prop where
  sound : tree.Sound
  root : tree.Holds (.folder config.root)
  folder : tree.Holds (.folder target.folder)
  ways : ∀ slot ∈ slots, tree.Open (target.path slot.path)
  suits : ∀ slot ∈ slots, slot.suits (tree.get? (slot.place target)) = true
  errors : tree.Open config.errorUnionPath
  errorFile : tree.get? config.errorPlace ≠ some .folder

/-- Some item of the slot's kind at its place. -/
def Slot.sample (target : Target) : Slot → Item
  | .file path full _ _ => .file (target.path path) full
  | .folder path => .folder (target.path path)

theorem Slot.sample_path (target : Target) (slot : Slot) :
    (slot.sample target).path = target.path slot.path := by
  cases slot <;> rfl

theorem Slot.sample_place (target : Target) (slot : Slot) :
    (slot.sample target).place = slot.place target := by
  cases slot <;> rfl

theorem Slot.sample_file (h : (slot.sample target).entry ≠ .folder) :
    ∀ path, slot ≠ .folder path := by
  rintro path rfl
  exact h rfl

/-- Slots at one place are the same. -/
theorem Slot.Spread.eq_of_place {other : Slot} (hspread : Slot.Spread slots) (hslot : slot ∈ slots)
    (hother : other ∈ slots) (hplace : slot.place target = other.place target) : slot = other := by
  by_contra hne
  have hsymm : Std.Symm fun a b : Slot => Path.names a.path ≠ Path.names b.path :=
    ⟨fun _ _ h => h.symm⟩
  exact Slot.place_ne target (hspread.sited slot hslot) (hspread.sited other hother)
    (hspread.apart.forall hslot hother hne) hplace

/-- No slot lies at the place of the errors. -/
theorem Slot.place_ne_errorPlace (config : Config) (hslot : slot.IsSited) :
    slot.place target ≠ config.errorPlace := by
  obtain ⟨folder, last, hlies⟩ := hslot
  intro heq
  have hlast := config.getLast?_errorPlace
  rw [← heq, Slot.place_eq hlies, ← List.append_assoc, List.getLast?_concat, Option.some.injEq]
    at hlast
  exact hlies.relative.other last (List.mem_append_right _ (List.mem_singleton_self last)) hlast

namespace Config.Receives

variable (h : config.Receives target slots tree)

include h

/-- A place on the way to a slot, where there is no folder, lies below the feature's folder. -/
theorem exists_of_passed {folder : List Text} {last : Text} {place : Path}
    (hslot : slot.LiesAt folder last) (hplace : place ∈ (target.path slot.path).passed)
    (hnot : tree.get? place ≠ some .folder) :
    ∃ first, first ≠ [] ∧ first <+: folder ∧ place = target.folder.resolve ++ first := by
  have hpath : target.path slot.path = target.folder ++ (folder ++ [last]) := by
    rw [Target.path, Path.join_of_relative hslot.relative.relative, hslot.relative.names]
  rw [hpath, Path.passed_append] at hplace
  rcases List.mem_append.1 hplace with hplace | hplace
  · exact absurd (h.folder.passed _ hplace) hnot
  · obtain ⟨first, rest, hrow, hrest, rfl⟩ :=
      Path.passedFrom_of_plain hslot.relative.plain hplace
    refine ⟨first, ?_, ?_, rfl⟩
    · rintro rfl
      rw [List.append_nil] at hnot
      exact hnot h.folder.get
    · obtain ⟨front, final, rfl⟩ := List.eq_nil_or_concat rest |>.resolve_left hrest
      rw [List.concat_eq_append, ← List.append_assoc] at hrow
      exact ⟨front, (List.append_inj' hrow rfl).1.symm⟩

/-- The item of a slot where nothing stands is not in the way of another slot. -/
theorem clear_of_slot {other : Slot} (hspread : Slot.Spread slots) (hslot : slot ∈ slots)
    (hother : other ∈ slots) (hnone : tree.get? (slot.place target) = none) :
    Tree.ClearOf (slot.sample target) (other.sample target) := by
  obtain ⟨folder, last, hlies⟩ := hspread.sited slot hslot
  obtain ⟨folder', last', hlies'⟩ := hspread.sited other hother
  refine ⟨fun hfile hway => ?_, fun hplace => ?_⟩
  · rw [Slot.sample_path, Slot.sample_place] at hway
    obtain ⟨first, -, hfirst, hplace⟩ := h.exists_of_passed hlies' hway (by rw [hnone]; nofun)
    rw [Slot.place_eq hlies] at hplace
    have hmem : last ∈ first := by
      rw [← List.append_cancel_left hplace]
      exact List.mem_append_right _ (List.mem_singleton_self last)
    exact hlies'.folders last (hfirst.subset hmem) (hlies.dotted (Slot.sample_file hfile))
  · rw [Slot.sample_place, Slot.sample_place] at hplace
    rw [hspread.eq_of_place hslot hother hplace]

/-- The errors are at no place of a slot, and not on the way to one. -/
theorem errors_clear_of_slot (hspread : Slot.Spread slots) (hslot : slot ∈ slots)
    (hnone : tree.get? config.errorPlace = none) :
    config.errorPlace ∉ (target.path slot.path).places := by
  intro hmem
  rcases List.mem_append.1 hmem with hway | hplace
  · obtain ⟨folder, last, hlies⟩ := hspread.sited slot hslot
    obtain ⟨first, hne, hfirst, hplace⟩ := h.exists_of_passed hlies hway (by rw [hnone]; nofun)
    have hlast := config.getLast?_errorPlace
    rw [hplace, List.getLast?_append_of_ne_nil _ hne] at hlast
    refine hlies.relative.other _ (List.mem_append_left _ ?_) rfl
    exact hfirst.subset (List.mem_of_getLast? hlast)
  · exact Slot.place_ne_errorPlace config (hspread.sited slot hslot) (List.mem_singleton.1 hplace).symm

/-- A file of a slot where nothing stands is not in the way of the errors. -/
theorem slot_clear_of_errors (hspread : Slot.Spread slots) (hslot : slot ∈ slots)
    (hfile : ∀ path, slot ≠ .folder path) (hnone : tree.get? (slot.place target) = none) :
    slot.place target ∉ config.errorUnionPath.passed := by
  obtain ⟨folder, last, hlies⟩ := hspread.sited slot hslot
  intro hway
  rw [config.errorUnionPath_eq, Path.passed_append] at hway
  rcases List.mem_append.1 hway with hway | hway
  · rw [h.root.passed _ hway] at hnone
    cases hnone
  · obtain ⟨first, rest, hrow, hrest, hplace⟩ := Path.passedFrom_of_plain errorRow_plain hway
    have hdots : ∀ first rest, errorRow = first ++ rest → rest ≠ [] → ∀ name ∈ first, '.' ∉ name := by
      intro first rest hrow hrest
      obtain ⟨front, final, rfl⟩ := (List.eq_nil_or_concat rest).resolve_left hrest
      rw [List.concat_eq_append, ← List.append_assoc] at hrow
      have hfront : errorRow.dropLast = first ++ front := by
        rw [hrow, List.dropLast_concat]
      have hall : ∀ name ∈ errorRow.dropLast, '.' ∉ name := by decide
      exact fun name hname => hall name (hfront ▸ List.mem_append_left _ hname)
    by_cases hnil : first = []
    · rw [hplace, hnil, List.append_nil] at hnone
      exact absurd (hnone.symm.trans h.root.get) nofun
    · have hlast : (slot.place target).getLast? = some last := by
        rw [Slot.place_eq hlies, ← List.append_assoc, List.getLast?_concat]
      rw [hplace, List.getLast?_append_of_ne_nil _ hnil] at hlast
      exact hdots first rest hrow hrest last (List.mem_of_getLast? hlast) (hlies.dotted hfile)

/-- The errors are not on the way to themselves. -/
theorem errors_clear (hnone : tree.get? config.errorPlace = none) :
    config.errorPlace ∉ config.errorUnionPath.passed := by
  intro hway
  rw [config.errorUnionPath_eq, Path.passed_append] at hway
  rcases List.mem_append.1 hway with hway | hway
  · exact absurd (hnone.symm.trans (h.root.passed _ hway)) nofun
  · obtain ⟨first, rest, hrow, hrest, hplace⟩ := Path.passedFrom_of_plain errorRow_plain hway
    have hfirst : errorRow = first := List.append_cancel_left hplace
    rw [← hfirst] at hrow
    exact hrest (List.append_right_eq_self.1 hrow.symm)

theorem admits_sample (hslot : slot ∈ slots) : tree.Admits (slot.sample target) := by
  have hsuits := h.suits slot hslot
  cases slot with
  | folder path =>
      show tree.get? (target.path path).resolve = none ∨ _
      have hplace : (Slot.folder path).place target = (target.path path).resolve := rfl
      rw [hplace] at hsuits
      match hget : tree.get? (target.path path).resolve with
      | none => exact .inl rfl
      | some .folder => exact .inr rfl
      | some (.file _) =>
          rw [hget] at hsuits
          cases hsuits
  | file path full reads update =>
      intro hfolder
      have hplace : (Slot.file path full reads update).place target = (target.path path).resolve := rfl
      rw [hplace, hfolder] at hsuits
      cases hsuits

theorem allows_of_hasLike {third : Tree} (hslot : slot ∈ slots)
    (hlike : third.HasLike (slot.sample target)) : slot.Allows target tree third := by
  have hsuits := h.suits slot hslot
  cases slot with
  | folder path => exact ⟨Tree.Holds.find hlike, Tree.Holds.get hlike⟩
  | file path full reads update =>
      refine ⟨Tree.HoldsFile.find hlike, ?_⟩
      cases hget : tree.get? ((Slot.file path full reads update).place target) with
      | none => exact Tree.HoldsFile.get hlike
      | some entry =>
          rw [hget] at hsuits
          cases entry with
          | folder => cases hsuits
          | file content =>
              cases content with
              | text text => trivial
              | bytes bytes => simpa [Slot.suits] using hsuits

/-- Above the tree there is one that has something at the place of each slot, and the errors. -/
theorem exists_above (hspread : Slot.Spread slots) :
    ∃ third, tree.Below third ∧ (∀ slot ∈ slots, slot.Allows target tree third) ∧
      (tree.get? config.errorPlace = none → third.HoldsFile config.errorUnionPath) := by
  let errors : List Item :=
    if tree.get? config.errorPlace = none then [.file config.errorUnionPath []] else []
  have herrors : ∀ item ∈ errors, tree.get? config.errorPlace = none ∧
      item = .file config.errorUnionPath [] := by
    intro item hitem
    by_cases hnone : tree.get? config.errorPlace = none
    · simp only [errors, if_pos hnone, List.mem_singleton] at hitem
      exact ⟨hnone, hitem⟩
    · simp only [errors, if_neg hnone, List.not_mem_nil] at hitem
  have hplace : (Item.file config.errorUnionPath []).place = config.errorPlace :=
    config.resolve_errorUnionPath
  have hopen : ∀ item ∈ slots.map (·.sample target) ++ errors, tree.Open item.path := by
    intro item hitem
    rcases List.mem_append.1 hitem with hitem | hitem
    · obtain ⟨slot, hslot, rfl⟩ := List.mem_map.1 hitem
      rw [Slot.sample_path]
      exact h.ways slot hslot
    · rw [(herrors item hitem).2]
      exact h.errors
  have hadmits : ∀ item ∈ slots.map (·.sample target) ++ errors, tree.Admits item := by
    intro item hitem
    rcases List.mem_append.1 hitem with hitem | hitem
    · obtain ⟨slot, hslot, rfl⟩ := List.mem_map.1 hitem
      exact h.admits_sample hslot
    · rw [(herrors item hitem).2]
      show tree.get? config.errorUnionPath.resolve ≠ some .folder
      rw [config.resolve_errorUnionPath]
      exact h.errorFile
  have hclear : ∀ item ∈ slots.map (·.sample target) ++ errors, tree.get? item.place = none →
      ∀ other ∈ slots.map (·.sample target) ++ errors, Tree.ClearOf item other := by
    intro item hitem hnone other hother
    rcases List.mem_append.1 hitem with hitem | hitem
    · obtain ⟨slot, hslot, rfl⟩ := List.mem_map.1 hitem
      rw [Slot.sample_place] at hnone
      rcases List.mem_append.1 hother with hother | hother
      · obtain ⟨made, hmade, rfl⟩ := List.mem_map.1 hother
        exact h.clear_of_slot hspread hslot hmade hnone
      · obtain ⟨-, rfl⟩ := herrors other hother
        refine ⟨fun hfile => ?_, fun heq => ?_⟩
        · rw [Slot.sample_place]
          exact h.slot_clear_of_errors hspread hslot (Slot.sample_file hfile) hnone
        · rw [Slot.sample_place, hplace] at heq
          exact absurd heq (Slot.place_ne_errorPlace config (hspread.sited slot hslot))
    · obtain ⟨hmissing, rfl⟩ := herrors item hitem
      rcases List.mem_append.1 hother with hother | hother
      · obtain ⟨slot, hslot, rfl⟩ := List.mem_map.1 hother
        have hout := h.errors_clear_of_slot hspread hslot hmissing
        refine ⟨fun _ hway => hout ?_, fun heq => ?_⟩
        · rw [hplace, Slot.sample_path] at hway
          exact Path.passed_subset_places hway
        · rw [Slot.sample_place, hplace] at heq
          exact absurd heq.symm (Slot.place_ne_errorPlace config (hspread.sited slot hslot))
      · obtain ⟨-, rfl⟩ := herrors other hother
        refine ⟨fun _ hway => ?_, fun _ => Iff.rfl⟩
        rw [hplace] at hway
        exact h.errors_clear hmissing hway
  obtain ⟨third, hbelow, hlike⟩ := Tree.exists_above hopen hadmits hclear
  refine ⟨third, hbelow, fun slot hslot => ?_, fun hmissing => ?_⟩
  · exact h.allows_of_hasLike hslot
      (hlike _ (List.mem_append_left _ (List.mem_map_of_mem hslot)))
  · have hitem : Item.file config.errorUnionPath [] ∈ errors := by
      simp only [errors, if_pos hmissing, List.mem_singleton]
    exact hlike _ (List.mem_append_right _ hitem)

end Config.Receives

/-! ## What becomes of the files -/

/-- The files that are left alone once they are there: the models and the screen. -/
def onceFiles (feature : Feature) (endpoints : List Endpoint) (layers : Layers) :
    List FeatureFile :=
  layers.models feature.modelFolder endpoints ++ layers.screen feature

/-- The slots of the layers: files that are extended, files that are left alone, folders. -/
theorem mem_appendSlots :
    slot ∈ appendSlots feature endpoints layers ↔
      slot ∈ (extendedParts feature endpoints layers).map Part.slot ∨
        slot ∈ (onceFiles feature endpoints layers).map onceSlot ∨
        slot ∈ layers.widgets.map Slot.folder := by
  have hite : ∀ {α β : Type} (f : α → β) (condition : Prop) [Decidable condition] (xs : List α),
      (if condition then xs else []).map f = if condition then xs.map f else [] := by
    intro α β f condition _ xs
    split <;> rfl
  simp only [appendSlots, dataSlots, presentationSlots, extendedParts, blocParts, onceFiles,
    Layers.models, Layers.screen, Layers.widgets, List.map_append, List.mem_append, hite,
    List.mem_ite_nil_right, Bool.and_eq_true, List.map_singleton]
  generalize (slot ∈ List.map onceSlot _) = models
  generalize (slot ∈ List.map _ (dataParts _ _)) = parts
  generalize (slot ∈ List.map _ (domainParts _ _)) = parts'
  generalize (slot ∈ List.map Part.slot [_, _, _]) = parts''
  grind

/-- A file where no file is made stays as it is, and no file comes up there. -/
theorem Tree.Makes.get?_file {items : List Item} {place : Path} (h : tree.Makes items other)
    (hplace : ∀ path text, Item.file path text ∈ items → path.resolve ≠ place) (content : Content) :
    other.get? place = some (.file content) ↔ tree.get? place = some (.file content) := by
  by_cases hmem : ∃ item ∈ items, place ∈ item.path.places
  · obtain ⟨item, hitem, hmem⟩ := hmem
    have hfolder : other.get? place = some .folder := by
      rcases List.mem_append.1 hmem with hway | hlast
      · exact (h.holds item hitem).passed place hway
      · obtain rfl := List.mem_singleton.1 hlast
        cases item with
        | folder path => exact (h.holds _ hitem).get
        | file path text => exact absurd rfl (hplace path text hitem)
    rw [hfolder]
    refine ⟨nofun, fun hfile => ?_⟩
    obtain ⟨content', hcontent⟩ := h.below.file _ _ hfile
    rw [hfolder] at hcontent
    cases hcontent
  · rw [h.rest place fun item hitem hway => hmem ⟨item, hitem, hway⟩]

/-- What stands at a place stays there where no file is made. -/
theorem Tree.Makes.get?_of_some {items : List Item} {place : Path} {entry : Entry}
    (h : tree.Makes items other)
    (hplace : ∀ path text, Item.file path text ∈ items → path.resolve ≠ place)
    (hget : tree.get? place = some entry) : other.get? place = some entry := by
  cases entry with
  | folder => exact h.below.folder _ hget
  | file content => exact (h.get?_file hplace content).2 hget

/-- What extending a feature leaves and reports. Each file that is extended, and each model and the
screen, depends on what stood at its own place. -/
structure Config.Settles (config : Config) (target : Target) (admission : Admission)
    (layers : Layers) (before after : Tree) (outcome : Outcome) : Prop where
  part : ∀ part ∈ extendedParts target.feature admission.admitted layers,
    after.get? (target.path part.path).resolve =
      some (.file (.text (part.settleIn target before).text))
  once : ∀ file ∈ onceFiles target.feature admission.admitted layers,
    after.get? (target.path file.1).resolve =
      some ((before.get? (target.path file.1).resolve).getD (.file (.text file.2)))
  errors : after.get? config.errorPlace =
    some ((before.get? config.errorPlace).getD (.file (.text errorUnionFile)))
  rest : ∀ place content,
    (∀ part ∈ extendedParts target.feature admission.admitted layers,
      place ≠ (target.path part.path).resolve) →
    (∀ file ∈ onceFiles target.feature admission.admitted layers,
      place ≠ (target.path file.1).resolve) → place ≠ config.errorPlace →
    (after.get? place = some (.file content) ↔ before.get? place = some (.file content))
  nodup_written : outcome.filesWritten.Nodup
  mem_written : ∀ path, path ∈ outcome.filesWritten ↔
    (∃ part ∈ extendedParts target.feature admission.admitted layers, part.path = path ∧
      (part.settleIn target before).isWritten = true) ∨
    ∃ file ∈ onceFiles target.feature admission.admitted layers, file.1 = path ∧
      before.get? (target.path file.1).resolve = none
  warnings : outcome.warnings = admission.warnings ++
    (extendedParts target.feature admission.admitted layers).filterMap
      (·.warningIn? target before)

/-- Asking whether the errors are there sees what stands at their place. -/
theorem Config.Receives.has_errorUnion {items : List Item} (h : config.Receives target slots tree)
    (hmakes : tree.Makes items other) :
    other.has config.errorUnionPath = .ok (other.get? config.errorPlace).isSome := by
  have hfits := h.errors.fits
  rw [config.errorUnionPath_eq] at hfits ⊢
  exact Tree.has_append (hmakes.sound h.sound) (hmakes.below.holds_folder h.root) errorRow_plain hfits

/-- A file that is extended is missing or a text. -/
theorem Config.Receives.part_entry {admitted : List Endpoint} {part : Part}
    (h : config.Receives target (appendSlots target.feature admitted layers) tree)
    (hpart : part ∈ extendedParts target.feature admitted layers) :
    tree.get? (part.slot.place target) = none ∨
      ∃ text, tree.get? (part.slot.place target) = some (.file (.text text)) := by
  have hsuits := h.suits _ (slot_mem_appendSlots hpart)
  match hget : tree.get? (part.slot.place target) with
  | none => exact .inl rfl
  | some .folder =>
      rw [hget] at hsuits
      cases hsuits
  | some (.file (.text text)) => exact .inr ⟨text, rfl⟩
  | some (.file (.bytes _)) =>
      rw [hget] at hsuits
      cases hsuits

/-- A file that is left alone once it is there is written if nothing is there. -/
theorem text?_onceSlot (file : FeatureFile) (entry : Option Entry) :
    (onceSlot file).text? entry = if entry = none then some file.2 else none := by
  match entry with
  | none => rfl
  | some .folder => rfl
  | some (.file (.text _)) => rfl
  | some (.file (.bytes _)) => rfl

/-- An item at the place of a slot is made of that slot. -/
theorem Slot.item?_of_place (hspread : Slot.Spread slots) (hslot : slot ∈ slots) {path : Path}
    {text : Text} (hitem : .file path text ∈ Slot.items target slots tree)
    (hplace : path.resolve = slot.place target) : slot.item? target tree = some (.file path text) := by
  obtain ⟨made, hmade, hsome, hpath⟩ := Slot.path_of_mem_items hitem
  have hsame : made.place target = slot.place target := by
    rw [← hplace, Slot.place, ← hpath]
    rfl
  rwa [← hspread.eq_of_place hmade hslot hsame]

/-- The item of a slot stands in the end: the errors do not lie at its place. -/
theorem Extended.holds_item {admitted : List Endpoint} {middle : Tree} {path : Path} {text : Text}
    (h : Extended config target admitted layers tree middle other)
    (hplaced : Placed target.feature admitted)
    (hslot : slot ∈ appendSlots target.feature admitted layers)
    (hitem : slot.item? target tree = some (.file path text)) : other.Holds (.file path text) := by
  have hmem : Item.file path text ∈
      Slot.items target (appendSlots target.feature admitted layers) tree :=
    List.mem_filterMap.2 ⟨slot, hslot, hitem⟩
  have hplace : path.resolve = slot.place target := by
    obtain ⟨made, hmade, -, hpath⟩ := Slot.path_of_mem_items (List.mem_filterMap.2
      ⟨slot, List.mem_singleton_self slot, hitem⟩)
    rw [Slot.place, ← List.mem_singleton.1 hmade, ← hpath]
    rfl
  refine h.errors.keeps (h.slots.holds _ hmem) fun made hmade heq => ?_
  exact absurd ((hplace.symm.trans heq.symm).trans (place_of_mem_errorItems hmade))
    (Slot.place_ne_errorPlace config ((spread_appendSlots hplaced).sited slot hslot))

namespace Extended

variable {admitted : List Endpoint} {middle : Tree}
  (h : Extended config target admitted layers tree middle other)
  (hplaced : Placed target.feature admitted)

include h hplaced

/-- What stands at the place of a file in the end depends on what stood there. -/
theorem get?_place (hslot : slot ∈ appendSlots target.feature admitted layers)
    (hfile : ∀ path, slot ≠ .folder path) :
    other.get? (slot.place target) = (slot.text? (tree.get? (slot.place target))).elim
      (tree.get? (slot.place target)) fun text => some (.file (.text text)) := by
  have hspread : Slot.Spread (appendSlots target.feature admitted layers) :=
    spread_appendSlots hplaced
  obtain ⟨path, full, reads, update, rfl⟩ : ∃ path full reads update,
      slot = .file path full reads update := by
    cases slot with
    | folder path => exact absurd rfl (hfile path)
    | file path full reads update => exact ⟨path, full, reads, update, rfl⟩
  generalize hslotName : Slot.file path full reads update = slot at *
  have hitem? : slot.item? target tree =
      (slot.text? (tree.get? (slot.place target))).map (.file (target.path path)) := by
    rw [← hslotName]
    rfl
  cases htext : slot.text? (tree.get? (slot.place target)) with
  | some text =>
      rw [htext] at hitem?
      have hplace : (target.path path).resolve = slot.place target := by
        rw [← hslotName]
        rfl
      rw [← hplace]
      exact (h.holds_item hplaced hslot hitem?).get
  | none =>
      rw [htext] at hitem?
      -- a missing file would be made
      obtain ⟨entry, hget⟩ : ∃ entry, tree.get? (slot.place target) = some entry := by
        refine Option.ne_none_iff_exists'.1 fun hget => ?_
        rw [hget, ← hslotName] at htext
        cases htext
      show other.get? (slot.place target) = tree.get? (slot.place target)
      rw [hget]
      refine h.errors.get?_of_some (fun path text hmade heq => ?_)
        (h.slots.get?_of_some (fun path text hmade heq => ?_) hget)
      · exact Slot.place_ne_errorPlace config (hspread.sited slot hslot)
          (heq.symm.trans (place_of_mem_errorItems hmade))
      · have hsome := Slot.item?_of_place hspread hslot hmade heq
        rw [hitem?] at hsome
        cases hsome

variable (hreceives : config.Receives target (appendSlots target.feature admitted layers) tree)

include hreceives

theorem get?_part {part : Part} (hpart : part ∈ extendedParts target.feature admitted layers) :
    other.get? (target.path part.path).resolve =
      some (.file (.text (part.settleIn target tree).text)) := by
  have hentry := hreceives.part_entry hpart
  have hget := h.get?_place hplaced (slot_mem_appendSlots hpart) nofun
  rw [Part.text?_slot hentry] at hget
  cases hwritten : (part.settleIn target tree).isWritten with
  | true =>
      rw [hwritten, if_pos rfl] at hget
      exact hget
  | false =>
      rw [hwritten, if_neg Bool.false_ne_true] at hget
      have hplace : (target.path part.path).resolve = part.slot.place target := rfl
      rw [hplace, hget]
      rcases hentry with hnone | ⟨text, htext⟩
      · rw [Part.settleIn, hplace, Tree.textAt?_of_none hnone] at hwritten
        cases hwritten
      · rw [Part.settleIn, hplace, Tree.textAt?_of_get htext] at hwritten ⊢
        rw [htext, Part.settle_text_of_not_written hwritten]
        rfl

theorem get?_once {file : FeatureFile} (hfile : file ∈ onceFiles target.feature admitted layers) :
    other.get? (target.path file.1).resolve =
      some ((tree.get? (target.path file.1).resolve).getD (.file (.text file.2))) := by
  have hslot : onceSlot file ∈ appendSlots target.feature admitted layers :=
    mem_appendSlots.2 (.inr (.inl (List.mem_map_of_mem hfile)))
  have hsuits := hreceives.suits _ hslot
  have hget := h.get?_place hplaced hslot nofun
  have hplace : (onceSlot file).place target = (target.path file.1).resolve := rfl
  rw [hplace] at hget hsuits
  rw [hget]
  match hentry : tree.get? (target.path file.1).resolve with
  | none => rfl
  | some .folder =>
      rw [hentry] at hsuits
      cases hsuits
  | some (.file (.text _)) => rfl
  | some (.file (.bytes _)) => rfl

theorem get?_errors :
    other.get? config.errorPlace =
      some ((tree.get? config.errorPlace).getD (.file (.text errorUnionFile))) := by
  have hspread : Slot.Spread (appendSlots target.feature admitted layers) :=
    spread_appendSlots hplaced
  have hhas := hreceives.has_errorUnion h.slots
  cases hget : tree.get? config.errorPlace with
  | none =>
      have hmiddle : middle.get? config.errorPlace = none := by
        rw [h.slots.rest config.errorPlace fun item hitem hplace => ?_, hget]
        obtain ⟨slot, hslot, -, hpath⟩ := Slot.path_of_mem_items hitem
        exact hreceives.errors_clear_of_slot hspread hslot hget (hpath ▸ hplace)
      have hitems : errorItems config middle = [.file config.errorUnionPath errorUnionFile] := by
        rw [errorItems, hhas, hmiddle]
        rfl
      have hholds := (h.errors.holds _ (hitems ▸ List.mem_singleton_self _)).get
      rwa [Item.place, Item.path, config.resolve_errorUnionPath] at hholds
  | some entry =>
      obtain ⟨content, rfl⟩ : ∃ content, entry = .file content := by
        cases entry with
        | folder => exact absurd hget hreceives.errorFile
        | file content => exact ⟨content, rfl⟩
      have hmiddle : middle.get? config.errorPlace = some (.file content) := by
        refine (h.slots.get?_file (fun path text hmade heq => ?_) content).2 hget
        obtain ⟨slot, hslot, -, hpath⟩ := Slot.path_of_mem_items hmade
        have hpath : path = target.path slot.path := hpath
        have hplace : slot.place target = config.errorPlace := by rw [← heq, hpath, Slot.place]
        exact Slot.place_ne_errorPlace config (hspread.sited slot hslot) hplace
      have hitems : errorItems config middle = [] := by
        rw [hmiddle] at hhas
        exact errorItems_of_has hhas
      have herrors := h.errors
      rw [hitems] at herrors
      rw [herrors.rest config.errorPlace fun item hitem => absurd hitem List.not_mem_nil, hmiddle]
      rfl

omit hreceives hplaced in
/-- No other file changes. -/
theorem get?_rest {place : Path} {content : Content}
    (hparts : ∀ part ∈ extendedParts target.feature admitted layers,
      place ≠ (target.path part.path).resolve)
    (honce : ∀ file ∈ onceFiles target.feature admitted layers,
      place ≠ (target.path file.1).resolve) (herrors : place ≠ config.errorPlace) :
    other.get? place = some (.file content) ↔ tree.get? place = some (.file content) := by
  refine (h.errors.get?_file (fun path text hmade heq => ?_) content).trans
    (h.slots.get?_file (fun path text hmade heq => ?_) content)
  · exact herrors (heq.symm.trans (place_of_mem_errorItems hmade))
  · obtain ⟨slot, hslot, hsome, hpath⟩ := Slot.path_of_mem_items hmade
    have hpath : path = target.path slot.path := hpath
    rw [hpath] at heq
    rcases mem_appendSlots.1 hslot with hslot | hslot | hslot
    · obtain ⟨part, hpart, rfl⟩ := List.mem_map.1 hslot
      exact hparts part hpart heq.symm
    · obtain ⟨file, hfile, rfl⟩ := List.mem_map.1 hslot
      exact honce file hfile heq.symm
    · obtain ⟨folder, -, rfl⟩ := List.mem_map.1 hslot
      cases hsome

end Extended

/-- The errors are there once the slots have been gone through, or else they can be made. -/
theorem Config.Receives.has_errors {items : List Item} {third : Tree}
    (h : config.Receives target slots tree) (hmakes : tree.Makes items other)
    (herrors : tree.get? config.errorPlace = none → third.HoldsFile config.errorUnionPath) :
    other.has config.errorUnionPath = .ok true ∨
      other.has config.errorUnionPath = .ok false ∧ third.HoldsFile config.errorUnionPath := by
  have hhas := h.has_errorUnion hmakes
  cases hget : other.get? config.errorPlace with
  | some entry => exact .inl (by rw [hhas, hget]; rfl)
  | none =>
      refine .inr ⟨by rw [hhas, hget]; rfl, herrors ?_⟩
      cases hstart : tree.get? config.errorPlace with
      | none => rfl
      | some entry =>
          cases entry with
          | folder => rw [hmakes.below.folder _ hstart] at hget; cases hget
          | file content =>
              obtain ⟨content', hcontent⟩ := hmakes.below.file _ _ hstart
              rw [hcontent] at hget
              cases hget

/-! ## The report -/

section

variable {admitted : List Endpoint}

theorem Slot.Spread.nodup_written (hspread : Slot.Spread slots) :
    (Slot.written target slots tree).Nodup := by
  refine List.pairwise_filterMap.2 (hspread.apart.imp fun {a b} hapart => ?_)
  intro path hpath path' hpath' heq
  obtain ⟨_, -, rfl⟩ := Option.map_eq_some_iff.1 hpath
  obtain ⟨_, -, rfl⟩ := Option.map_eq_some_iff.1 hpath'
  exact hapart (congrArg Path.names heq)

/-- The files that are written: those that are extended to another text or rendered in full. -/
theorem mem_written_iff
    (hreceives : config.Receives target (appendSlots target.feature admitted layers) tree)
    {path : Text} :
    path ∈ Slot.written target (appendSlots target.feature admitted layers) tree ↔
      (∃ part ∈ extendedParts target.feature admitted layers, part.path = path ∧
        (part.settleIn target tree).isWritten = true) ∨
      ∃ file ∈ onceFiles target.feature admitted layers, file.1 = path ∧
        tree.get? (target.path file.1).resolve = none := by
  have hpart : ∀ part ∈ extendedParts target.feature admitted layers,
      (part.slot.written? target tree = some path ↔
        part.path = path ∧ (part.settleIn target tree).isWritten = true) := by
    intro part hpart
    rw [Slot.written?, Part.text?_slot (hreceives.part_entry hpart)]
    cases (part.settleIn target tree).isWritten <;> simp [Part.slot, Slot.path]
  have honce : ∀ file : FeatureFile, (onceSlot file).written? target tree = some path ↔
      file.1 = path ∧ tree.get? (target.path file.1).resolve = none := by
    intro file
    have hplace : (onceSlot file).place target = (target.path file.1).resolve := rfl
    rw [Slot.written?, text?_onceSlot, hplace]
    split <;> simp [onceSlot, Slot.path, *]
  constructor
  · intro hmem
    obtain ⟨slot, hslot, hsome⟩ := List.mem_filterMap.1 hmem
    rcases mem_appendSlots.1 hslot with hslot | hslot | hslot
    · obtain ⟨part, hmem, rfl⟩ := List.mem_map.1 hslot
      exact .inl ⟨part, hmem, (hpart part hmem).1 hsome⟩
    · obtain ⟨file, hmem, rfl⟩ := List.mem_map.1 hslot
      exact .inr ⟨file, hmem, (honce file).1 hsome⟩
    · obtain ⟨folder, -, rfl⟩ := List.mem_map.1 hslot
      cases hsome
  · rintro (⟨part, hmem, hwritten⟩ | ⟨file, hmem, hwritten⟩)
    · exact List.mem_filterMap.2 ⟨_, slot_mem_appendSlots hmem, (hpart part hmem).2 hwritten⟩
    · exact List.mem_filterMap.2 ⟨_, mem_appendSlots.2 (.inr (.inl (List.mem_map_of_mem hmem))),
        (honce file).2 hwritten⟩

end

/-- Extending a feature settles each file by itself. It fails only if a model cannot be written, and
then nothing has changed. -/
theorem generate_settles {content : Text}
    (hcheck : checkRun config name endpoints layers = .ok ())
    (hmethods : ∀ endpoint ∈ endpoints, '/' ∉ endpoint.methodName)
    (htarget : config.target project name desk.tree = .ok target)
    (hcontent : target.readService desk.tree = .ok content)
    (hnew : (target.admission content endpoints).admitted ≠ [])
    (hreceives : config.Receives target
      (appendSlots target.feature (target.admission content endpoints).admitted layers) desk.tree) :
    ∃ answer desk', (generate config project name endpoints layers .append).runOn desk =
        (answer, desk') ∧
      match answer with
      | .ok outcome => config.Settles target (target.admission content endpoints) layers desk.tree
          desk'.tree outcome
      | .error error => error = .work (.value .longToShow) ∧ layers.data = true ∧
          (target.admission content endpoints).admitted.all (·.hasShowableModels) = false ∧
          desk'.tree = desk.tree := by
  obtain ⟨hchecked, -, -⟩ := checkRun_eq_ok.1 hcheck
  have hname := FeatureName.of_isFeatureName (Config.isFeatureName_of_checkName hchecked)
  obtain ⟨hsame, hplace⟩ := Config.name_of_target htarget
  have hfolder : desk.tree.Holds (.folder (config.featurePath name)) := hplace ▸ hreceives.folder
  have hexists : config.featureExists name desk.tree = .ok true := hfolder.hasFolder
  have hplaced : Placed target.feature (target.admission content endpoints).admitted :=
    .of_target hname (fun endpoint hmem => hmethods endpoint (mem_of_admitted hmem)) htarget
  have hspread : Slot.Spread (appendSlots target.feature
      (target.admission content endpoints).admitted layers) := spread_appendSlots hplaced
  by_cases hshowable : layers.data = true →
      (target.admission content endpoints).admitted.all (·.hasShowableModels) = true
  · obtain ⟨third, hbelow, hallows, herrors⟩ := hreceives.exists_above hspread
    obtain ⟨outcome, desk', hrun⟩ := generateAppend_runOn hname hmethods hreceives.sound hfolder
      htarget hcontent hnew hbelow hshowable hallows fun middle hmakes =>
        hreceives.has_errors hmakes herrors
    obtain ⟨target', content', htarget', hcontent', -, hcases⟩ :=
      generateAppend_makes hname hmethods hreceives.sound hfolder hrun
    obtain rfl : target = target' := Except.ok.inj (htarget.symm.trans htarget')
    obtain rfl : content = content' := Except.ok.inj (hcontent.symm.trans hcontent')
    refine ⟨.ok outcome, desk', generate_of_present hcheck hexists hrun, ?_⟩
    obtain ⟨hempty, -⟩ | ⟨-, ⟨middle, hextended⟩, hwritten, hwarnings⟩ := hcases
    · exact absurd hempty hnew
    · exact {
        part := fun part hpart => hextended.get?_part hplaced hreceives hpart
        once := fun file hfile => hextended.get?_once hplaced hreceives hfile
        errors := hextended.get?_errors hplaced hreceives
        rest := fun place content hparts honce herrors => hextended.get?_rest hparts honce herrors
        nodup_written := hwritten ▸ hspread.nodup_written
        mem_written := fun path => hwritten ▸ mem_written_iff hreceives
        warnings := hwarnings }
  · rw [Classical.not_imp, Bool.not_eq_true] at hshowable
    obtain ⟨hdata, hshowable⟩ := hshowable
    obtain ⟨desk', hrun, htree⟩ := generateAppend_of_unshowable htarget hcontent hnew hdata hshowable
    refine ⟨.error (.work (.value .longToShow)), desk', ?_, rfl, hdata, hshowable, htree⟩
    rw [generate_append_runOn hcheck hexists, hrun]
    rfl

/-! ## A service file without a brace -/

instance {path : Path} : Decidable path.Fits :=
  decidable_of_iff (path.any (·.contains '\x00') = false ∧
    Tree.byteCount path.text ≤ Tree.pathLimit ∧
    ∀ name ∈ path, Tree.byteCount name ≤ Tree.nameLimit)
    ⟨fun ⟨hzero, hsize, hnames⟩ => ⟨hzero, hsize, hnames⟩, fun h => ⟨h.noZero, h.size, h.names⟩⟩

instance {path : Path} : Decidable (tree.Open path) :=
  decidable_of_iff (path.Fits ∧
    ∀ place ∈ path.passed, tree.get? place = none ∨ tree.get? place = some .folder)
    ⟨fun ⟨hfits, hpassed⟩ => ⟨hfits, hpassed⟩, fun h => ⟨h.fits, h.passed⟩⟩

/-- A project whose service file has been emptied. -/
def emptiedTree : Tree where
  entries := [(["lib"], .folder), (["lib", "features"], .folder),
    (["lib", "features", "news"], .folder), (["lib", "features", "news", "data"], .folder),
    (["lib", "features", "news", "data", "remote"], .folder),
    (["lib", "features", "news", "data", "remote", "service"], .folder),
    (["lib", "features", "news", "data", "remote", "service", "news_service.dart"],
      .file (.text "// emptied"))]

/-- The target of the feature in the project. -/
def emptiedTarget : Target := ⟨⟨"shop", "news", "model"⟩, ["lib", "features", "news"]⟩

/-- An endpoint that needs no model. -/
def newsEndpoint : Endpoint where
  path := "/news"
  method := "get"

theorem emptiedTree_receives : Config.Receives {} emptiedTarget
    (appendSlots emptiedTarget.feature [newsEndpoint] {}) emptiedTree where
  sound := Tree.sound_of_entries (by decide)
  root := ⟨by decide, rfl⟩
  folder := ⟨by decide, by decide⟩
  ways := by
    have hall : (appendSlots emptiedTarget.feature [newsEndpoint] {}).all
        (fun slot => decide (emptiedTree.Open (emptiedTarget.path slot.path))) = true := by
      decide +kernel
    exact fun slot hslot => of_decide_eq_true (List.all_eq_true.1 hall slot hslot)
  suits := by
    have hall : (appendSlots emptiedTarget.feature [newsEndpoint] {}).all
        (fun slot => slot.suits (emptiedTree.get? (slot.place emptiedTarget))) = true := by
      decide +kernel
    exact List.all_eq_true.1 hall
  errors := by decide +kernel
  errorFile := by decide

/-- The service file is skipped, and all others are made. -/
theorem generate_settles_emptied : ∃ outcome desk',
    (generate {} "shop" "news" [newsEndpoint] {} .append).runOn ⟨emptiedTree, []⟩ =
      (.ok outcome, desk') ∧
    outcome.warnings = ["Skipped data/remote/service/news_service.dart: no closing brace found"] ∧
    Config.Settles {} emptiedTarget ⟨[newsEndpoint], []⟩ {} emptiedTree desk'.tree outcome := by
  have hcontent : emptiedTarget.readService emptiedTree = .ok "// emptied" := rfl
  have hadmission : emptiedTarget.admission "// emptied" [newsEndpoint] = ⟨[newsEndpoint], []⟩ := rfl
  obtain ⟨answer, desk', hrun, hsettles⟩ := @generate_settles ⟨emptiedTree, []⟩ emptiedTarget {}
    [newsEndpoint] {} "shop" "news" "// emptied" rfl (by decide) rfl hcontent (by decide)
    (hadmission ▸ emptiedTree_receives)
  rw [hadmission] at hsettles
  cases answer with
  | error error =>
      obtain ⟨-, -, hshowable, -⟩ := hsettles
      cases hshowable
  | ok outcome =>
      refine ⟨outcome, desk', hrun, ?_, hsettles⟩
      rw [hsettles.warnings]
      decide +kernel

end Scaffold
