import Scaffold.Proofs.Project.Slots

/-!
# Extending a feature

What extending a feature makes (`generateAppend_makes`): the slots of the layers for the endpoints
that are admitted, and the errors shared by all features. It returns on every tree below one that
allows the slots (`generateAppend_runOn`).
-/

namespace Scaffold

variable {desk desk' : Desk} {target : Target} {config : Config} {feature : Feature}
  {endpoints : List Endpoint} {layers : Layers} {project name : Text} {part : Part}

/-! ## Single slots -/

/-- What becomes of a text that is there, nothing if it stays as it is. -/
def Part.update (part : Part) (content : Text) : Option Text :=
  match part.extend content with
  | .ok updated => if updated = content then none else some updated
  | .error _ => none

/-- The slot of a file that is extended. -/
def Part.slot (part : Part) : Slot := .file part.path part.full true part.update

/-- The slot of a file that is left alone once it is there. -/
def onceSlot (file : FeatureFile) : Slot := .file file.1 file.2 false fun _ => none

/-- Asking whether something is there sees what stands at the place. -/
theorem Ready.has {tree : Tree} {rel : Text} {row : List Text} (hready : Ready target tree)
    (hrel : Path.Relative rel row) (hfits : (target.path rel).Fits) :
    tree.has (target.path rel) = .ok (tree.get? (target.path rel).resolve).isSome := by
  rw [Target.path, Path.resolve_join hrel]
  exact Tree.has_join hready.sound hready.folder hrel hfits

/-- In a sound tree, nothing stands at the place of a file that is not there and then is made. -/
theorem get?_eq_none_of_made {path text : Text} {folder : List Text} {last : Text} {other : Tree}
    (hready : Ready target desk.tree) (hrel : Path.Relative path (folder ++ [last]))
    (hhas : desk.tree.has (target.path path) = .ok false)
    (hmakes : desk.tree.Makes [.file (target.path path) text] other) :
    desk.tree.get? (target.path path).resolve = none := by
  have hfits := (hmakes.holds _ (List.mem_singleton.2 rfl)).fits
  have hsome := hready.has hrel hfits
  rw [hhas, Except.ok.injEq] at hsome
  exact Option.isNone_iff_eq_none.1 (by simpa using hsome.symm)

/-- Creating a file that is not there. -/
theorem created_makes {path full : Text} {reads : Bool} {update : Text → Option Text}
    {folder : List Text} {last : Text} (hready : Ready target desk.tree)
    (hrel : Path.Relative path (folder ++ [last]))
    (hhas : desk.tree.has (target.path path) = .ok false)
    (hcreate : (createFile target (path, full)).runOn desk = (.ok (), desk')) :
    desk.tree.Makes (Slot.items target [.file path full reads update] desk.tree) desk'.tree ∧
      [path] = Slot.written target [.file path full reads update] desk.tree ∧
      (Slot.file path full reads update).Stands target desk'.tree := by
  have hmakes := createFile_makes hcreate
  have hnone := get?_eq_none_of_made hready hrel hhas hmakes
  have hholds := hmakes.holds _ (List.mem_singleton.2 rfl)
  refine ⟨?_, ?_, hholds.find, _, hholds.get, fun _ => ⟨full, rfl⟩⟩
  · simpa [Slot.items, Slot.item?, Slot.text?, hnone] using hmakes
  · have hnone' : desk.tree.get? ((Slot.file path full reads update).place target) = none := hnone
    simp [Slot.written, Slot.written?, Slot.text?, hnone', Slot.path]

/-- A text that is read is the text of a file, with the ends of its lines made alike. -/
theorem readText_eq_ok {tree : Tree} {path : Path} {content : Text}
    (h : tree.readText path = .ok content) :
    ∃ text, tree.find path = .ok path.resolve ∧
      tree.get? path.resolve = some (.file (.text text)) ∧ content = universalNewlines text := by
  rw [Tree.readText] at h
  split at h
  · cases h
  · next place hfind =>
    obtain rfl := (Tree.find_eq_ok_iff.1 hfind).2.2
    split at h
    · cases h
    · cases h
    · cases h
    · next text hget => exact ⟨text, hfind, hget, (Except.ok.inj h).symm⟩

theorem readText_of_get {tree : Tree} {path : Path} {text : Text}
    (hfind : tree.find path = .ok path.resolve)
    (hget : tree.get? path.resolve = some (.file (.text text))) :
    tree.readText path = .ok (universalNewlines text) := by
  simp [Tree.readText, hfind, hget]

/-- What a slot of a text that is there makes. -/
theorem Part.items_slot {text : Text} {tree : Tree}
    (hget : tree.get? (target.path part.path).resolve = some (.file (.text text))) :
    Slot.items target [part.slot] tree =
        ((part.update (universalNewlines text)).map (.file (target.path part.path))).toList ∧
      Slot.written target [part.slot] tree =
        ((part.update (universalNewlines text)).map fun _ => part.path).toList := by
  have hitem : part.slot.item? target tree =
      (part.slot.text? (tree.get? (target.path part.path).resolve)).map
        (.file (target.path part.path)) := rfl
  have hwritten : part.slot.written? target tree =
      (part.slot.text? (tree.get? (target.path part.path).resolve)).map fun _ => part.path := rfl
  rw [Slot.items_singleton, Slot.written_singleton, hitem, hwritten, hget]
  exact ⟨rfl, rfl⟩

theorem appendPart_does {folder : List Text} {last : Text}
    (hrel : Path.Relative part.path (folder ++ [last])) :
    Does target Report.written [] (appendPart target part) [part.slot] where
  makes := by
    intro desk desk' report hready hrun
    obtain ⟨known, middle, hask, hrest⟩ := Work.runOn_bind_eq_ok.1 hrun
    obtain ⟨hhas, rfl⟩ := runOn_ask_eq_ok.1 hask
    cases known with
    | false =>
        obtain ⟨⟨⟩, last, hcreate, hreport⟩ := Work.runOn_bind_eq_ok.1 hrest
        obtain ⟨heq, rfl⟩ := Prod.mk.injEq .. ▸ hreport
        obtain rfl := Except.ok.inj heq
        obtain ⟨hmakes, hwritten, hstands⟩ := created_makes hready hrel hhas hcreate
        exact ⟨hmakes, hwritten, List.forall_mem_singleton.2 hstands⟩
    | true =>
        obtain ⟨content, last, hread, hrest⟩ := Work.runOn_bind_eq_ok.1 hrest
        obtain ⟨hread, rfl⟩ := runOn_readText_eq_ok.1 hread
        obtain ⟨text, hfind, hget, rfl⟩ := readText_eq_ok hread
        obtain ⟨hitems, hwritten⟩ := Part.items_slot hget
        have hstands : part.slot.Stands target last.tree := ⟨hfind, _, hget, fun _ => ⟨text, rfl⟩⟩
        rw [hitems, hwritten, Part.update]
        split at hrest
        · next anchor hextend =>
          obtain ⟨⟨⟩, warned, hwarn, hreport⟩ := Work.runOn_bind_eq_ok.1 hrest
          obtain ⟨-, rfl⟩ := Prod.mk.injEq .. ▸ hwarn
          obtain ⟨heq, rfl⟩ := Prod.mk.injEq .. ▸ hreport
          obtain rfl := Except.ok.inj heq
          rw [hextend]
          exact ⟨Tree.Makes.refl _, rfl, List.forall_mem_singleton.2 hstands⟩
        · next updated hextend =>
          rw [hextend]
          by_cases hsame : updated = universalNewlines text
          · rw [if_pos hsame] at hrest
            obtain ⟨⟨⟩, said, hsay, hreport⟩ := Work.runOn_bind_eq_ok.1 hrest
            obtain ⟨-, rfl⟩ := Prod.mk.injEq .. ▸ hsay
            obtain ⟨heq, rfl⟩ := Prod.mk.injEq .. ▸ hreport
            obtain rfl := Except.ok.inj heq
            simp only [hsame, if_true]
            exact ⟨Tree.Makes.refl _, rfl, List.forall_mem_singleton.2 hstands⟩
          · rw [if_neg hsame] at hrest
            obtain ⟨⟨⟩, written, hwrite, hrest⟩ := Work.runOn_bind_eq_ok.1 hrest
            obtain ⟨⟨⟩, said, hsay, hreport⟩ := Work.runOn_bind_eq_ok.1 hrest
            obtain ⟨-, rfl⟩ := Prod.mk.injEq .. ▸ hsay
            obtain ⟨heq, rfl⟩ := Prod.mk.injEq .. ▸ hreport
            obtain rfl := Except.ok.inj heq
            have hmakes := writeFile_makes hwrite
            have hholds := hmakes.holds _ (List.mem_singleton.2 rfl)
            have hstands' : part.slot.Stands target written.tree :=
              ⟨hholds.find, _, hholds.get, fun _ => ⟨updated, rfl⟩⟩
            simp only [hsame, if_false]
            exact ⟨hmakes, rfl, List.forall_mem_singleton.2 hstands'⟩
  returns := by
    intro desk third hready hbelow hallows
    obtain ⟨hfind, hallows⟩ := hallows part.slot (List.mem_singleton.2 rfl)
    have hfits := (Tree.find_eq_ok_iff.1 hfind).1
    have hhas := hready.has hrel hfits
    have hplace : part.slot.place target = (target.path part.path).resolve := rfl
    rw [appendPart]
    cases hget : desk.tree.get? (target.path part.path).resolve with
    | none =>
        rw [hget] at hhas
        have hfile : third.HoldsFile (target.path part.path) := by
          refine ⟨hfind, ?_⟩
          rw [hplace, hget] at hallows
          exact hallows
        obtain ⟨created, hcreate, -⟩ : ∃ created, (createFile target (part.path, part.full)).runOn
            desk = (.ok (), created) ∧ created.tree.Below third := createFile_runOn hbelow hfile
        refine ⟨{ written := [part.path] }, created, ?_⟩
        rw [Work.runOn_bind_of_ok (runOn_ask_of_ok hhas)]
        exact Work.runOn_bind_of_ok hcreate
    | some entry =>
        rw [hget] at hhas
        obtain ⟨text, rfl⟩ : ∃ text, entry = .file (.text text) := by
          rw [hplace, hget] at hallows
          match entry, hallows with
          | .file (.text text), _ => exact ⟨text, rfl⟩
        have hfound : desk.tree.find (target.path part.path) = .ok (target.path part.path).resolve :=
          (Tree.has_eq_true_iff.1 hhas).1
        have hread := readText_of_get hfound hget
        rw [Work.runOn_bind_of_ok (runOn_ask_of_ok hhas)]
        show ∃ report desk', ((readText (target.path part.path)) >>= _).runOn desk = (.ok report, desk')
        rw [Work.runOn_bind_of_ok (runOn_readText_eq_ok.2 ⟨hread, rfl⟩)]
        split
        · exact ⟨_, _, rfl⟩
        · split
          · exact ⟨_, _, rfl⟩
          · next updated _ _ =>
            have hfile : third.HoldsFile (target.path part.path) :=
              hbelow.holdsFile ⟨hfound, .text text, hget⟩
            obtain ⟨written, hwrite⟩ := writeFile_runOn hbelow hfile updated
            exact ⟨_, _, Work.runOn_bind_of_ok hwrite⟩

/-- A file that is left alone once it is there. -/
theorem once_does {file : FeatureFile} {folder : List Text} {last : Text}
    {quiet : Work WorkError Report} (hrel : Path.Relative file.1 (folder ++ [last]))
    (hquiet : ∀ desk, ∃ desk', quiet.runOn desk = (.ok {}, desk') ∧ desk'.tree = desk.tree) :
    Does target Report.written []
      (ask (·.has (target.path file.1)) >>= fun known =>
        if known = true then quiet
        else createFile target file >>= fun _ => pure { written := [file.1] })
      [onceSlot file] where
  makes := by
    intro desk desk' report hready hrun
    obtain ⟨known, middle, hask, hrest⟩ := Work.runOn_bind_eq_ok.1 hrun
    obtain ⟨hhas, rfl⟩ := runOn_ask_eq_ok.1 hask
    cases known with
    | false =>
        obtain ⟨⟨⟩, last, hcreate, hreport⟩ := Work.runOn_bind_eq_ok.1 hrest
        obtain ⟨heq, rfl⟩ := Prod.mk.injEq .. ▸ hreport
        obtain rfl := Except.ok.inj heq
        obtain ⟨hmakes, hwritten, hstands⟩ := created_makes hready hrel hhas hcreate
        exact ⟨hmakes, hwritten, List.forall_mem_singleton.2 hstands⟩
    | true =>
        obtain ⟨last, hquiet, htree⟩ := hquiet middle
        rw [if_pos rfl, hquiet, Prod.mk.injEq] at hrest
        obtain ⟨heq, rfl⟩ := hrest
        obtain rfl := Except.ok.inj heq
        obtain ⟨hfind, hsome⟩ := Tree.has_eq_true_iff.1 hhas
        obtain ⟨entry, hget⟩ := Option.isSome_iff_exists.1 hsome
        have hitem : (onceSlot file).item? target middle.tree = none := by
          show ((onceSlot file).text? (middle.tree.get? (target.path file.1).resolve)).map _ = none
          rw [hget]
          match entry with
          | .folder => rfl
          | .file (.text _) => rfl
          | .file (.bytes _) => rfl
        have hwritten : (onceSlot file).written? target middle.tree = none := by
          show ((onceSlot file).text? (middle.tree.get? (target.path file.1).resolve)).map _ = none
          rw [hget]
          match entry with
          | .folder => rfl
          | .file (.text _) => rfl
          | .file (.bytes _) => rfl
        have hstands : (onceSlot file).Stands target last.tree := by
          rw [htree]
          exact ⟨hfind, entry, hget, nofun⟩
        rw [Slot.items_singleton, Slot.written_singleton, hitem, hwritten, htree]
        exact ⟨Tree.Makes.refl _, rfl, htree ▸ List.forall_mem_singleton.2 hstands⟩
  returns := by
    intro desk third hready hbelow hallows
    obtain ⟨hfind, hallows⟩ := hallows (onceSlot file) (List.mem_singleton.2 rfl)
    have hfits := (Tree.find_eq_ok_iff.1 hfind).1
    have hhas := hready.has hrel hfits
    have hplace : (onceSlot file).place target = (target.path file.1).resolve := rfl
    cases hget : desk.tree.get? (target.path file.1).resolve with
    | none =>
        rw [hget] at hhas
        have hfile : third.HoldsFile (target.path file.1) := by
          refine ⟨hfind, ?_⟩
          rw [hplace, hget] at hallows
          exact hallows
        obtain ⟨created, hcreate, -⟩ := createFile_runOn hbelow hfile
        refine ⟨{ written := [file.1] }, created, ?_⟩
        rw [Work.runOn_bind_of_ok (runOn_ask_of_ok hhas)]
        exact Work.runOn_bind_of_ok hcreate
    | some entry =>
        rw [hget] at hhas
        obtain ⟨desk', hquiet, -⟩ := hquiet desk
        refine ⟨{}, desk', ?_⟩
        rw [Work.runOn_bind_of_ok (runOn_ask_of_ok hhas)]
        exact hquiet

theorem appendModel_does {file : FeatureFile} {folder : List Text} {last : Text}
    (hrel : Path.Relative file.1 (folder ++ [last])) :
    Does target Report.written [] (appendModel target file) [onceSlot file] :=
  once_does hrel fun desk => ⟨desk, rfl, rfl⟩

theorem appendScreen_does (hname : FeatureName target.feature.name) :
    Does target Report.written [] (appendScreen target)
      [onceSlot (screenPath target.feature.name, renderScreen target.feature)] := by
  have hsited := sited_screen hname (renderScreen target.feature)
  have hquiet : ∀ (text : Text) (desk : Desk), ∃ desk',
      (Work.say text >>= fun _ => pure {} : Work WorkError Report).runOn desk = (.ok {}, desk') ∧
        desk'.tree = desk.tree :=
    fun text desk => ⟨desk.tell (text ++ ['\n']), Work.runOn_bind_of_ok (Work.runOn_say _ _), rfl⟩
  unfold appendScreen
  -- the texts are long, and are kept closed
  generalize screenPath target.feature.name = path at *
  generalize renderScreen target.feature = text at *
  have honce : Does target Report.written [] _ [onceSlot (path, text)] :=
    once_does hsited.relative (hquiet ("  " ++ path ++ " already exists (no changes)"))
  exact honce

theorem makeFolder_does {folder : Text} (before : List Text) :
    Does target (fun _ : Unit => before) before (makeFolders (target.path folder))
      [.folder folder] where
  makes := by
    intro desk desk' answer _ hrun
    have hmakes := makeFolders_makes hrun
    have hholds := hmakes.holds _ (List.mem_singleton.2 rfl)
    refine ⟨hmakes, by simp [Slot.written, Slot.written?, Slot.text?], ?_⟩
    exact List.forall_mem_singleton.2 ⟨hholds.find, hholds.get⟩
  returns := by
    intro desk third _ hbelow hallows
    obtain ⟨hfind, hget⟩ := hallows (.folder folder) (List.mem_singleton.2 rfl)
    exact ⟨(), makeFolders_runOn hbelow ⟨hfind, hget⟩⟩

/-! ## Layers -/

/-- The slots of the files of the data layer. -/
def dataSlots (feature : Feature) (endpoints : List Endpoint) : List Slot :=
  (modelFiles feature.modelFolder endpoints).map onceSlot ++
    (dataParts feature endpoints).map Part.slot

/-- The slots of the presentation layer. -/
def presentationSlots (feature : Feature) (endpoints : List Endpoint) (components : Components) :
    List Slot :=
  (if components.bloc then
    [eventPart feature endpoints, statePart feature endpoints, blocPart feature endpoints].map
      Part.slot
   else []) ++
  (if components.screens then [onceSlot (screenPath feature.name, renderScreen feature)] else []) ++
  (if components.widgets then [Slot.folder widgetFolder] else [])

/-- The slots that extending the layers goes through. -/
def appendSlots (feature : Feature) (endpoints : List Endpoint) (layers : Layers) : List Slot :=
  (if layers.data then dataSlots feature endpoints else []) ++
  (if layers.domain then (domainParts feature endpoints).map Part.slot else []) ++
  (if layers.presentation then presentationSlots feature endpoints layers.components else [])

/-- The folder of the widgets, if the layers ask for it. -/
def Layers.widgets (layers : Layers) : List Text :=
  if layers.presentation && layers.components.widgets then [widgetFolder] else []

/-- Extending goes through the files of a full generation, and through the folder of the widgets. -/
theorem appendSlots_perm {β : Type} {view : Slot → β} {onFile : FeatureFile → β} {onFolder : Text → β}
    (hfile : ∀ path full reads update, view (.file path full reads update) = onFile (path, full))
    (hfolder : ∀ path, view (.folder path) = onFolder path) :
    ((appendSlots feature endpoints layers).map view).Perm
      ((featureFiles feature endpoints layers).map onFile ++ layers.widgets.map onFolder) := by
  have hmodels : ∀ files : List FeatureFile, (files.map onceSlot).map view = files.map onFile := by
    intro files
    rw [List.map_map]
    exact List.map_congr_left fun file _ => hfile file.1 file.2 _ _
  have hparts : ∀ parts : List Part, (parts.map Part.slot).map view =
      (fullFiles parts).map onFile := by
    intro parts
    rw [fullFiles, List.map_map, List.map_map]
    exact List.map_congr_left fun part _ => hfile part.path part.full _ _
  have hdata : (dataSlots feature endpoints).map view =
      (modelFiles feature.modelFolder endpoints ++ fullFiles (dataParts feature endpoints)).map
        onFile := by
    rw [dataSlots, List.map_append, hmodels, hparts, List.map_append]
  have hbloc : ∀ event state bloc : Part, ([event, state, bloc].map Part.slot).map view =
      [onFile (event.path, event.full), onFile (state.path, state.full),
        onFile (bloc.path, bloc.full)] := fun event state bloc => hparts [event, state, bloc]
  obtain ⟨data, domain, presentation, bloc, screens, widgets⟩ := layers
  rw [appendSlots, featureFiles, Layers.widgets, List.map_append, List.map_append, List.map_append,
    List.map_append, List.append_assoc, List.append_assoc, List.append_assoc]
  refine List.Perm.append ?_ (List.Perm.append ?_ ?_)
  · cases data
    · exact List.Perm.refl _
    · rw [if_pos rfl, if_pos rfl, hdata]
  · cases domain
    · exact List.Perm.refl _
    · rw [if_pos rfl, if_pos rfl, hparts]
  · cases presentation
    · exact List.Perm.refl _
    · rw [if_pos rfl, if_pos rfl, presentationSlots, List.map_append, List.map_append,
        List.map_append, List.append_assoc, List.append_assoc]
      refine List.Perm.append ?_ (List.Perm.append ?_ ?_)
      · cases bloc
        · exact List.Perm.refl _
        · rw [if_pos rfl, if_pos rfl, hbloc]
          exact (List.perm_append_comm : List.Perm ([_, _] ++ [_]) ([_] ++ [_, _]))
      · cases screens
        · exact List.Perm.refl _
        · rw [if_pos rfl, if_pos (by rfl)]
          exact List.Perm.of_eq (hmodels [(screenPath feature.name, renderScreen feature)])
      · cases widgets
        · exact List.Perm.refl _
        · rw [if_pos rfl, if_pos (by rfl), List.map_singleton, List.map_singleton, hfolder]

theorem appendSlots_paths :
    ((appendSlots feature endpoints layers).map Slot.path).Perm
      ((featureFiles feature endpoints layers).map (·.1) ++ layers.widgets) := by
  have h : ((appendSlots feature endpoints layers).map Slot.path).Perm
      ((featureFiles feature endpoints layers).map (·.1) ++ layers.widgets.map id) :=
    appendSlots_perm (fun _ _ _ _ => rfl) fun _ => rfl
  rwa [List.map_id] at h

theorem relative_widgetFolder : Path.Relative widgetFolder (["presentation"] ++ ["widget"]) := by
  decide

/-- The slots of a feature lie at different relative paths. -/
theorem spread_appendSlots (hplaced : Placed feature endpoints) :
    Slot.Spread (appendSlots feature endpoints layers) := by
  have hfile : ∀ {file : FeatureFile} {slot : Slot} {folder last}, Sited file folder last →
      slot.path = file.1 → slot.IsSited := by
    intro file slot folder last hsited hpath
    exact ⟨folder, last, hpath ▸ hsited.relative, hsited.folders, fun _ => hsited.dotted⟩
  have hpart : ∀ (source : SourceFile) (part : Part), source.part feature endpoints = part →
      part.slot.IsSited := by
    rintro source part rfl
    exact hfile (source.sited hplaced.name (source.part feature endpoints).full) rfl
  refine ⟨fun slot hslot => ?_, ?_⟩
  · rw [appendSlots, List.mem_append, List.mem_append] at hslot
    rcases hslot with (hslot | hslot) | hslot
    · have hslot := (ite_sublist _ _).subset hslot
      rw [dataSlots, List.mem_append] at hslot
      rcases hslot with hslot | hslot
      · obtain ⟨file, hmem, rfl⟩ := List.mem_map.1 hslot
        obtain ⟨_, -, hsited⟩ := sited_model hplaced hmem
        exact hfile hsited rfl
      · obtain ⟨part, hmem, rfl⟩ := List.mem_map.1 hslot
        obtain ⟨kind, -, rfl⟩ := List.mem_map.1 hmem
        exact hpart (.ofClass kind) _ rfl
    · obtain ⟨part, hmem, rfl⟩ := List.mem_map.1 ((ite_sublist _ _).subset hslot)
      obtain ⟨kind, -, rfl⟩ := List.mem_map.1 hmem
      exact hpart (.ofClass kind) _ rfl
    · have hslot := (ite_sublist _ _).subset hslot
      rw [presentationSlots, List.mem_append, List.mem_append] at hslot
      rcases hslot with (hslot | hslot) | hslot
      · obtain ⟨part, hmem, rfl⟩ := List.mem_map.1 ((ite_sublist _ _).subset hslot)
        simp only [List.mem_cons, List.not_mem_nil, or_false] at hmem
        rcases hmem with rfl | rfl | rfl
        · exact hpart .event _ rfl
        · exact hpart .state _ rfl
        · exact hpart .bloc _ rfl
      · rw [List.mem_singleton.1 ((ite_sublist _ _).subset hslot)]
        exact hfile (sited_screen hplaced.name (renderScreen feature)) rfl
      · rw [List.mem_singleton.1 ((ite_sublist _ _).subset hslot)]
        exact ⟨_, _, relative_widgetFolder, by decide, fun hne => absurd rfl (hne widgetFolder)⟩
  · have hwidgets : ∀ folder ∈ layers.widgets, folder = widgetFolder := fun folder hfolder =>
      List.mem_singleton.1 ((ite_sublist _ _).subset hfolder)
    have hall : ((appendSlots feature endpoints layers).map Slot.path).Pairwise fun a b =>
        Path.names a ≠ Path.names b := by
      refine (appendSlots_paths.pairwise_iff fun h => h.symm).2 (List.pairwise_append.2 ⟨?_, ?_, ?_⟩)
      · exact List.pairwise_map.2 (featureFiles_apart hplaced)
      · exact List.Pairwise.sublist (ite_sublist _ _) (List.pairwise_singleton ..)
      · intro path hpath folder hfolder
        obtain ⟨file, hmem, rfl⟩ := List.mem_map.1 hpath
        obtain ⟨folder', last, hsited⟩ := sited_of_mem_featureFiles hplaced hmem
        rw [hwidgets folder hfolder, hsited.relative.names, relative_widgetFolder.names]
        intro heq
        have hlast : last = ("widget" : Text) := by
          have := (List.append_inj' heq rfl).2
          simpa using this
        have hdot := hsited.dotted
        rw [hlast] at hdot
        exact absurd hdot (by decide)
    rwa [List.pairwise_map] at hall

theorem appendParts_does {parts : List Part} (hspread : Slot.Spread (parts.map Part.slot)) :
    Does target Report.written [] (appendParts target parts) (parts.map Part.slot) := by
  have hparts : Does target (fun reports : List Report => reports.flatMap Report.written) []
      (parts.mapM (appendPart target)) (parts.map Part.slot) := by
    refine Does.mapM (fun part hpart => ?_) hspread
    obtain ⟨folder, last, hsited⟩ := hspread.sited part.slot (List.mem_map_of_mem hpart)
    exact appendPart_does hsited.relative
  exact hparts.map Report.concat fun _ => rfl

theorem appendPartsIf_does {condition : Prop} [Decidable condition] {parts : List Part}
    (hspread : Slot.Spread (if condition then parts.map Part.slot else [])) :
    Does target Report.written [] (if condition then appendParts target parts else pure {})
      (if condition then parts.map Part.slot else []) := by
  refine Does.ite Report.written {} fun hchosen => ?_
  rw [if_pos hchosen] at hspread
  exact appendParts_does hspread

theorem appendData_does (hshowable : endpoints.all (·.hasShowableModels) = true)
    (hspread : Slot.Spread (dataSlots target.feature endpoints)) :
    Does target Report.written [] (appendData target endpoints)
      (dataSlots target.feature endpoints) := by
  have hmodels : Does target (fun reports : List Report => reports.flatMap Report.written) []
      ((modelFiles target.feature.modelFolder endpoints).mapM (appendModel target))
      ((modelFiles target.feature.modelFolder endpoints).map onceSlot) := by
    refine Does.mapM (fun file hfile => ?_) (hspread.sublist (List.sublist_append_left ..))
    obtain ⟨folder, last, hsited⟩ := hspread.sited (onceSlot file)
      (List.mem_append_left _ (List.mem_map_of_mem hfile))
    exact appendModel_does hsited.relative
  have hparts : Does target Report.written [] (appendParts target (dataParts target.feature endpoints))
      ((dataParts target.feature endpoints).map Part.slot) :=
    appendParts_does (hspread.sublist (List.sublist_append_right ..))
  have hlast : ∀ models : List Report, Does target Report.written (models.flatMap Report.written)
      (appendParts target (dataParts target.feature endpoints) >>= fun parts =>
        pure (Report.concat (models ++ [parts])))
      ((dataParts target.feature endpoints).map Part.slot) := fun models =>
    (hparts.shift _).map _ fun parts => by simp [Report.concat]
  have hcheck : checkModels endpoints = pure () := by
    rw [checkModels, if_pos hshowable]
  unfold appendData
  rw [hcheck, pure_bind]
  exact hmodels.bind hlast hspread

theorem appendPresentation_eq (components : Components) :
    appendPresentation target endpoints components = do
      let bloc ← (if components.bloc then
        appendParts target [eventPart target.feature endpoints, statePart target.feature endpoints,
          blocPart target.feature endpoints]
        else pure {} : Work WorkError Report)
      let screen ← (if components.screens then appendScreen target else pure {} :
        Work WorkError Report)
      (if components.widgets then makeFolders (target.path widgetFolder) else pure () :
        Work WorkError Unit)
      return Report.concat [bloc, screen] := by
  unfold appendPresentation
  obtain ⟨bloc, screens, widgets⟩ := components
  cases bloc <;> cases screens <;> cases widgets <;> rfl

theorem appendPresentation_does {components : Components}
    (hname : FeatureName target.feature.name)
    (hspread : Slot.Spread (presentationSlots target.feature endpoints components)) :
    Does target Report.written [] (appendPresentation target endpoints components)
      (presentationSlots target.feature endpoints components) := by
  rw [presentationSlots, List.append_assoc] at hspread ⊢
  rw [appendPresentation_eq]
  have hbloc : Does target Report.written [] (if components.bloc then
      appendParts target [eventPart target.feature endpoints, statePart target.feature endpoints,
        blocPart target.feature endpoints]
      else pure {}) (if components.bloc then
        [eventPart target.feature endpoints, statePart target.feature endpoints,
          blocPart target.feature endpoints].map Part.slot else []) :=
    appendPartsIf_does (hspread.sublist (List.sublist_append_left ..))
  have hscreen : Does target Report.written [] (if components.screens then appendScreen target
      else pure {}) (if components.screens then
        [onceSlot (screenPath target.feature.name, renderScreen target.feature)] else []) :=
    Does.ite Report.written {} fun _ => appendScreen_does hname
  have hwidgets : ∀ before : List Text, Does target (fun _ : Unit => before) before
      (if components.widgets then makeFolders (target.path widgetFolder) else pure ())
      (if components.widgets then [Slot.folder widgetFolder] else []) :=
    fun before => Does.ite (fun _ : Unit => before) () fun _ => makeFolder_does before
  refine hbloc.bind (fun bloc => ?_) hspread
  refine (hscreen.shift bloc.written).bind (fun screen => ?_)
    (hspread.sublist (List.sublist_append_right ..))
  exact (hwidgets _).map (fun _ => Report.concat [bloc, screen]) fun _ => by simp [Report.concat]

theorem appendLayers_eq (layers : Layers) :
    appendLayers target endpoints layers = do
      let data ← (if layers.data then appendData target endpoints else pure {} :
        Work WorkError Report)
      let domain ← (if layers.domain then appendParts target (domainParts target.feature endpoints)
        else pure {} : Work WorkError Report)
      let presentation ← (if layers.presentation then
        appendPresentation target endpoints layers.components else pure {} : Work WorkError Report)
      return Report.concat [data, domain, presentation] := by
  unfold appendLayers
  obtain ⟨data, domain, presentation, components⟩ := layers
  cases data <;> cases domain <;> cases presentation <;> rfl

/-- Extending the layers goes through their slots. -/
theorem appendLayers_does (hplaced : Placed target.feature endpoints)
    (hshowable : layers.data = true → endpoints.all (·.hasShowableModels) = true) :
    Does target Report.written [] (appendLayers target endpoints layers)
      (appendSlots target.feature endpoints layers) := by
  have hspread : Slot.Spread (appendSlots target.feature endpoints layers) :=
    spread_appendSlots hplaced
  rw [appendSlots, List.append_assoc] at hspread ⊢
  rw [appendLayers_eq]
  have hdata : Does target Report.written [] (if layers.data then appendData target endpoints
      else pure {}) (if layers.data then dataSlots target.feature endpoints else []) := by
    refine Does.ite Report.written {} fun hchosen => ?_
    rw [if_pos hchosen] at hspread
    exact appendData_does (hshowable hchosen) (hspread.sublist (List.sublist_append_left ..))
  have hrest := hspread.sublist (List.sublist_append_right ..)
  have hdomain : Does target Report.written [] (if layers.domain then
      appendParts target (domainParts target.feature endpoints) else pure {})
      (if layers.domain then (domainParts target.feature endpoints).map Part.slot else []) :=
    appendPartsIf_does (hrest.sublist (List.sublist_append_left ..))
  have hpresentation : Does target Report.written [] (if layers.presentation then
      appendPresentation target endpoints layers.components else pure {})
      (if layers.presentation then
        presentationSlots target.feature endpoints layers.components else []) := by
    refine Does.ite Report.written {} fun hchosen => ?_
    rw [if_pos hchosen] at hrest
    exact appendPresentation_does hplaced.name (hrest.sublist (List.sublist_append_right ..))
  refine hdata.bind (fun data => ?_) hspread
  refine (hdomain.shift data.written).bind (fun domain => ?_) hrest
  exact (hpresentation.shift (data.written ++ domain.written)).map
    (fun presentation => Report.concat [data, domain, presentation])
    fun presentation => by simp [Report.concat]

end Scaffold
