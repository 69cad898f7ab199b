import Scaffold.Project.Generation
import Scaffold.Proofs.Tree.Making

/-!
# Writing the files of a feature

The steps that a generation is made of: writing a file with the folders above it, writing several,
ensuring the errors shared by all features. Each step comes with what it makes when it succeeds
(`_makes`) and with a tree above that is enough for it to succeed (`_runOn`).
-/

namespace Scaffold

variable {desk desk' : Desk} {path : Path} {text : Text} {target : Target} {config : Config}
  {third : Tree}

/-- Writing a file makes it, and the folders on the way to it. -/
theorem writeFile_makes (h : (writeFile path text).runOn desk = (.ok (), desk')) :
    desk.tree.Makes [.file path text] desk'.tree := by
  obtain ⟨⟨⟩, middle, hfolders, hwrite⟩ := Work.runOn_bind_eq_ok.1 h
  have hwritten := writeText_makes hwrite
  have hne : path ≠ [] := (hwritten.holds (.file path text) (by simp)).holdsFile.ne_nil
  refine ⟨(makeFolders_makes hfolders).below.trans hwritten.below, hwritten.holds,
    fun place hplace => ?_⟩
  rw [hwritten.rest place hplace, (makeFolders_makes hfolders).rest place]
  intro item hitem hmem
  rw [List.mem_singleton.1 hitem] at hmem
  have hpassed : place ∈ path.passed := by
    rw [← Path.places_parent hne]
    exact hmem
  exact hplace _ (List.mem_singleton.2 rfl) (Path.passed_subset_places hpassed)

/-- Writing a file succeeds below a tree that has a file there. -/
theorem writeFile_runOn (hbelow : desk.tree.Below third) (hfile : third.HoldsFile path)
    (text : Text) : ∃ desk', (writeFile path text).runOn desk = (.ok (), desk') := by
  have hfolder := Tree.Holds.parent hfile.find hfile.ne_nil
  obtain ⟨middle, hmiddle⟩ := makeFolders_runOn hbelow hfolder
  have hmade := makeFolders_makes hmiddle
  have hmiddleBelow := hmade.below_of hbelow (by simpa [Tree.HasLike] using hfolder)
  have hparent := hmade.holds (.folder path.dropLast) (by simp)
  have hfind : middle.tree.find path = .ok path.resolve := by
    refine Tree.find_eq_ok_iff.2 ⟨(Tree.find_eq_ok_iff.1 hfile.find).1, fun p hp => ?_, rfl⟩
    rw [← Path.places_parent hfile.ne_nil] at hp
    rcases List.mem_append.1 hp with hp | hp
    · exact hparent.passed p hp
    · rw [List.mem_singleton.1 hp]
      exact hparent.get
  obtain ⟨content, hcontent⟩ := hfile.get
  obtain ⟨desk', hwrite⟩ := writeText_runOn text hfind (hmiddleBelow.ne_folder hcontent)
  exact ⟨desk', (Work.runOn_bind_of_ok hmiddle).trans hwrite⟩

/-! ## Several folders and files -/

/-- Folders of a feature as items. -/
def Target.folderItems (target : Target) (folders : List Text) : List Item :=
  folders.map fun folder => .folder (target.path folder)

/-- Files of a feature as items. -/
def Target.fileItems (target : Target) (files : List FeatureFile) : List Item :=
  files.map fun file => .file (target.path file.1) file.2

theorem makeAllFolders_makes {folders : List Text}
    (h : (folders.forM fun folder => makeFolders (target.path folder)).runOn desk =
      (.ok (), desk')) :
    desk.tree.Makes (target.folderItems folders) desk'.tree := by
  induction folders generalizing desk with
  | nil =>
      obtain ⟨-, rfl⟩ := Prod.mk.injEq .. ▸ h
      exact Tree.Makes.refl _
  | cons folder folders ih =>
      obtain ⟨⟨⟩, middle, hfirst, hrest⟩ := Work.runOn_bind_eq_ok.1 h
      refine (makeFolders_makes hfirst).append (ih hrest) ?_
      simp

theorem makeAllFolders_runOn {folders : List Text} (hbelow : desk.tree.Below third)
    (hfolders : ∀ folder ∈ folders, third.Holds (.folder (target.path folder))) :
    ∃ desk', (folders.forM fun folder => makeFolders (target.path folder)).runOn desk =
      (.ok (), desk') ∧ desk'.tree.Below third := by
  induction folders generalizing desk with
  | nil => exact ⟨desk, rfl, hbelow⟩
  | cons folder folders ih =>
      have hfolder := hfolders folder (by simp)
      obtain ⟨middle, hmiddle⟩ := makeFolders_runOn hbelow hfolder
      have hmiddleBelow :=
        (makeFolders_makes hmiddle).below_of hbelow (by simpa [Tree.HasLike] using hfolder)
      obtain ⟨desk', hrest, hdesk'⟩ := ih hmiddleBelow fun f hf => hfolders f (by simp [hf])
      exact ⟨desk', (Work.runOn_bind_of_ok hmiddle).trans hrest, hdesk'⟩

theorem createFile_makes {file : FeatureFile}
    (h : (createFile target file).runOn desk = (.ok (), desk')) :
    desk.tree.Makes [.file (target.path file.1) file.2] desk'.tree := by
  obtain ⟨⟨⟩, middle, hwrite, hsay⟩ := Work.runOn_bind_eq_ok.1 h
  obtain ⟨-, rfl⟩ := Prod.mk.injEq .. ▸ hsay
  have hmade := writeFile_makes hwrite
  exact hmade

theorem createFile_runOn {file : FeatureFile} (hbelow : desk.tree.Below third)
    (hfile : third.HoldsFile (target.path file.1)) :
    ∃ desk', (createFile target file).runOn desk = (.ok (), desk') ∧ desk'.tree.Below third := by
  obtain ⟨middle, hmiddle⟩ := writeFile_runOn hbelow hfile file.2
  refine ⟨middle.tell _, Work.runOn_bind_of_ok hmiddle, ?_⟩
  exact (writeFile_makes hmiddle).below_of hbelow (by simpa [Tree.HasLike] using hfile)

/-- Writing files at different places. -/
theorem createFiles_makes {files : List FeatureFile}
    (hfiles : files.Pairwise fun a b => (target.path a.1).resolve ≠ (target.path b.1).resolve)
    (h : (files.forM (createFile target)).runOn desk = (.ok (), desk')) :
    desk.tree.Makes (target.fileItems files) desk'.tree := by
  induction files generalizing desk with
  | nil =>
      obtain ⟨-, rfl⟩ := Prod.mk.injEq .. ▸ h
      exact Tree.Makes.refl _
  | cons file files ih =>
      obtain ⟨⟨⟩, middle, hfirst, hrest⟩ := Work.runOn_bind_eq_ok.1 h
      obtain ⟨hfile, hfiles⟩ := List.pairwise_cons.1 hfiles
      refine (createFile_makes hfirst).append (ih hfiles hrest) ?_
      intro path text hitem made hmade hplace
      cases List.mem_singleton.1 hitem
      obtain ⟨other, hother, rfl⟩ := List.mem_map.1 hmade
      exact absurd hplace.symm (hfile other hother)

theorem createFiles_runOn {files : List FeatureFile} (hbelow : desk.tree.Below third)
    (hfiles : ∀ file ∈ files, third.HoldsFile (target.path file.1)) :
    ∃ desk', (files.forM (createFile target)).runOn desk = (.ok (), desk') ∧
      desk'.tree.Below third := by
  induction files generalizing desk with
  | nil => exact ⟨desk, rfl, hbelow⟩
  | cons file files ih =>
      obtain ⟨middle, hmiddle, hmiddleBelow⟩ := createFile_runOn hbelow (hfiles file (by simp))
      obtain ⟨desk', hrest, hdesk'⟩ := ih hmiddleBelow fun f hf => hfiles f (by simp [hf])
      exact ⟨desk', (Work.runOn_bind_of_ok hmiddle).trans hrest, hdesk'⟩

/-! ## The errors shared by all features -/

/-- The items that ensuring the errors shared by all features makes: none if they are there. -/
def errorItems (config : Config) (tree : Tree) : List Item :=
  match tree.has config.errorUnionPath with
  | .ok true => []
  | _ => [.file config.errorUnionPath errorUnionFile]

theorem errorItems_of_has {tree : Tree} (h : tree.has config.errorUnionPath = .ok true) :
    errorItems config tree = [] := by
  simp [errorItems, h]

theorem ensureErrorUnion_makes (h : (ensureErrorUnion config).runOn desk = (.ok (), desk')) :
    desk.tree.Makes (errorItems config desk.tree) desk'.tree ∧
      desk'.tree.has config.errorUnionPath = .ok true := by
  obtain ⟨known, middle, hask, h⟩ := Work.runOn_bind_eq_ok.1 h
  obtain ⟨hhas, rfl⟩ := runOn_ask_eq_ok.1 hask
  cases known with
  | true =>
      obtain ⟨-, rfl⟩ := Prod.mk.injEq .. ▸ h
      rw [errorItems_of_has hhas]
      exact ⟨Tree.Makes.refl _, hhas⟩
  | false =>
      obtain ⟨⟨⟩, last, hwrite, hsay⟩ := Work.runOn_bind_eq_ok.1 h
      obtain ⟨-, rfl⟩ := Prod.mk.injEq .. ▸ hsay
      have hmade := writeFile_makes hwrite
      have hholds := hmade.holds (.file config.errorUnionPath errorUnionFile) (by simp)
      refine ⟨?_, hholds.has⟩
      simpa [errorItems, hhas] using hmade

theorem ensureErrorUnion_of_has (h : desk.tree.has config.errorUnionPath = .ok true) :
    (ensureErrorUnion config).runOn desk = (.ok (), desk) := by
  rw [ensureErrorUnion, Work.runOn_bind_of_ok (runOn_ask_of_ok h)]
  rfl

/-- Ensuring the errors succeeds if they are there, or else below a tree that has a file there. -/
theorem ensureErrorUnion_runOn (hbelow : desk.tree.Below third)
    (h : desk.tree.has config.errorUnionPath = .ok true ∨
      desk.tree.has config.errorUnionPath = .ok false ∧ third.HoldsFile config.errorUnionPath) :
    ∃ desk', (ensureErrorUnion config).runOn desk = (.ok (), desk') := by
  rcases h with hhas | ⟨hhas, hfile⟩
  · exact ⟨desk, ensureErrorUnion_of_has hhas⟩
  · obtain ⟨written, hwritten⟩ := writeFile_runOn hbelow hfile errorUnionFile
    refine ⟨written.tell ("  Created " ++ Config.errorUnionLocation ++ ['\n']), ?_⟩
    rw [ensureErrorUnion, Work.runOn_bind_of_ok (runOn_ask_of_ok hhas)]
    exact Work.runOn_bind_of_ok hwritten

end Scaffold
