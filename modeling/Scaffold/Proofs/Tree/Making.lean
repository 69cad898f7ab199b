import Scaffold.Proofs.Tree.Place
import Scaffold.Proofs.Tree.Run

/-!
# Making folders and files

What a step makes is a row of items, each a folder or a file with a text at a path. `Tree.Makes`
says that a tree becomes another one by making items: it holds them all and is changed at their
places only. Two trees that make the same items of one tree agree (`Makes.agree`), and making
succeeds on every tree below one that already has what is made (`makeFolders_runOn`,
`writeText_runOn`).
-/

namespace Scaffold

/-- A folder or a file with a text at a path. -/
inductive Item
  | folder (path : Path)
  | file (path : Path) (text : Text)

namespace Item

/-- The path of the item. -/
def path : Item → Path
  | folder path => path
  | file path _ => path

/-- The place that the path leads to. -/
def place (item : Item) : Path := item.path.resolve

/-- What stands at the place. -/
def entry : Item → Entry
  | folder _ => .folder
  | file _ text => .file (.text text)

end Item

/-- The places of a path, those on the way first. -/
def Path.places (path : Path) : List Path := path.passed ++ [path.resolve]

theorem Path.resolve_mem_places (path : Path) : path.resolve ∈ path.places := by
  simp [Path.places]

theorem Path.passed_subset_places {path place : Path} (h : place ∈ path.passed) :
    place ∈ path.places :=
  List.mem_append_left _ h

theorem Path.places_parent {path : Path} (h : path ≠ []) :
    Path.places path.dropLast = path.passed := by
  have hconcat : path.dropLast ++ [path.getLast h] = path := List.dropLast_concat_getLast h
  rw [← hconcat, Path.passed_concat, hconcat]
  rfl

/-- The way to a place goes on from the way to every part of its path. -/
theorem Path.places_subset_append (path row : Path) : path.places ⊆ (path ++ row).places := by
  intro place hplace
  cases row with
  | nil => rwa [List.append_nil]
  | cons name row =>
      rw [places, passed_append]
      refine List.mem_append_left _ ?_
      rcases List.mem_append.1 hplace with hplace | hplace
      · exact List.mem_append_left _ hplace
      · rw [List.mem_singleton.1 hplace]
        exact List.mem_append_right _ List.mem_cons_self

theorem Path.mem_places_concat {path place : Path} {name : Text} :
    place ∈ Path.places (path ++ [name]) ↔
      place ∈ path.places ∨ place = path.resolve.enter name := by
  rw [Path.places, Path.passed_concat, Path.resolve_append, List.mem_append, List.mem_singleton]
  rfl

/-- The places of a path are closed under going up. -/
theorem Path.dropLast_mem_places {path place : Path} (h : place ∈ path.places) :
    place.dropLast ∈ path.places := by
  induction path using List.reverseRecOn generalizing place with
  | nil =>
      rw [List.mem_singleton.1 h]
      exact Path.resolve_mem_places []
  | append_singleton above name ih =>
      rw [Path.mem_places_concat] at h ⊢
      rcases h with h | rfl
      · exact .inl (ih h)
      · have hhere := Path.resolve_mem_places above
        rw [Path.enter]
        split
        · exact .inl (ih (ih hhere))
        · split
          · exact .inl (ih hhere)
          · exact .inl (by rwa [List.dropLast_concat])

/-- The place above one of the places of a path is on the way. -/
theorem Path.dropLast_mem_passed {path place : Path} (h : place ∈ path.places) (hne : place ≠ []) :
    place.dropLast ∈ path.passed := by
  by_cases hnil : path = []
  · subst hnil
    exact absurd (List.mem_singleton.1 h) hne
  · have hconcat : path.dropLast ++ [path.getLast hnil] = path := List.dropLast_concat_getLast hnil
    rw [← Path.places_parent hnil]
    rw [← hconcat, Path.mem_places_concat] at h
    rcases h with h | rfl
    · exact Path.dropLast_mem_places h
    · have hhere := Path.resolve_mem_places path.dropLast
      rw [Path.enter]
      split
      · exact Path.dropLast_mem_places (Path.dropLast_mem_places hhere)
      · split
        · exact Path.dropLast_mem_places hhere
        · rwa [List.dropLast_concat]

namespace Tree

variable {tree other third middle : Tree} {items items' : List Item} {item : Item}
  {path place : Path} {text : Text}

/-- The item stands in the tree. -/
structure Holds (tree : Tree) (item : Item) : Prop where
  find : tree.find item.path = .ok item.place
  get : tree.get? item.place = some item.entry

/-- A file stands at the place of a path. -/
structure HoldsFile (tree : Tree) (path : Path) : Prop where
  find : tree.find path = .ok path.resolve
  get : ∃ content, tree.get? path.resolve = some (.file content)

theorem Holds.passed (h : tree.Holds item) :
    ∀ place ∈ item.path.passed, tree.get? place = some .folder :=
  (find_eq_ok_iff.1 h.find).2.1

theorem Holds.fits (h : tree.Holds item) : item.path.Fits := (find_eq_ok_iff.1 h.find).1

theorem Holds.holdsFile (h : tree.Holds (.file path text)) : tree.HoldsFile path :=
  ⟨h.find, .text text, h.get⟩

theorem Holds.has (h : tree.Holds item) : tree.has item.path = .ok true :=
  has_eq_true_iff.2 ⟨h.find, by rw [show item.path.resolve = item.place from rfl, h.get]; rfl⟩

theorem Holds.hasFolder (h : tree.Holds (.folder path)) : tree.hasFolder path = .ok true :=
  hasFolder_eq_true_iff.2 ⟨h.find, h.get⟩

theorem Below.holds_folder (h : tree.Below other) (hold : tree.Holds (.folder path)) :
    other.Holds (.folder path) :=
  ⟨h.find hold.find, h.folder _ hold.get⟩

theorem Below.holdsFile (h : tree.Below other) (hfile : tree.HoldsFile path) :
    other.HoldsFile path := by
  obtain ⟨hfind, content, hget⟩ := hfile
  exact ⟨h.find hfind, h.file _ content hget⟩

theorem HoldsFile.ne_nil (h : tree.HoldsFile path) : path ≠ [] := by
  rintro rfl
  obtain ⟨-, content, hget⟩ := h
  cases hget

theorem Holds.parent (hfind : tree.find path = .ok place) (h : path ≠ []) :
    tree.Holds (.folder path.dropLast) := by
  obtain ⟨hfits, hpassed, -⟩ := find_eq_ok_iff.1 hfind
  have hconcat : path.dropLast ++ [path.getLast h] = path := List.dropLast_concat_getLast h
  rw [← hconcat] at hfits
  rw [← Path.places_parent h] at hpassed
  refine ⟨find_eq_ok_iff.2 ⟨hfits.of_concat, ?_, rfl⟩, hpassed _ (Path.resolve_mem_places _)⟩
  exact fun p hp => hpassed p (Path.passed_subset_places hp)

/-- The tree becomes the other one by making the items: nothing else changes, no folder becomes a
file and no file a folder. -/
structure Makes (tree : Tree) (items : List Item) (other : Tree) : Prop where
  below : tree.Below other
  holds : ∀ item ∈ items, other.Holds item
  rest : ∀ place, (∀ item ∈ items, place ∉ item.path.places) → other.get? place = tree.get? place

theorem Makes.refl (tree : Tree) : tree.Makes [] tree :=
  ⟨Below.refl tree, nofun, fun _ _ => rfl⟩

/-- A file stays as it is unless another item is made at its place. -/
theorem Makes.keeps (h : middle.Makes items other) (hold : middle.Holds (.file path text))
    (hitems : ∀ made ∈ items, made.place = path.resolve → made.entry = .file (.text text)) :
    other.Holds (.file path text) := by
  refine ⟨h.below.find hold.find, ?_⟩
  by_cases hmem : ∃ made ∈ items, path.resolve ∈ made.path.places
  · obtain ⟨made, hmade, hplace⟩ := hmem
    have hmadeHolds := h.holds made hmade
    rcases List.mem_append.1 hplace with hpassed | hlast
    · obtain ⟨content, hcontent⟩ := h.below.file _ _ hold.get
      have hfolder : other.get? (Item.file path text).place = some .folder :=
        hmadeHolds.passed _ hpassed
      rw [hfolder] at hcontent
      cases hcontent
    · have heq : path.resolve = made.place := List.mem_singleton.1 hlast
      show other.get? path.resolve = _
      rw [heq, hmadeHolds.get, hitems made hmade heq.symm]
      rfl
  · have hrest : ∀ made ∈ items, path.resolve ∉ made.path.places :=
      fun made hmade hplace => hmem ⟨made, hmade, hplace⟩
    exact (h.rest _ hrest).trans hold.get

/-- Making more items. Files that the first step has made and the second one has not made again
are made by both together. -/
theorem Makes.trans {all : List Item} (h : tree.Makes items middle)
    (h' : middle.Makes items' other)
    (hcover : ∀ item ∈ items ++ items', ∃ made ∈ all, made.path = item.path)
    (hall : ∀ item ∈ all, item ∈ items' ∨ item ∈ items ∧ ∀ path text, item = .file path text →
      ∀ made ∈ items', made.place = path.resolve → made.entry = .file (.text text)) :
    tree.Makes all other where
  below := h.below.trans h'.below
  holds item hitem := by
    rcases hall item hitem with hnew | ⟨hold, hkeep⟩
    · exact h'.holds item hnew
    · cases item with
      | folder path => exact h'.below.holds_folder (h.holds _ hold)
      | file path text => exact h'.keeps (h.holds _ hold) (hkeep path text rfl)
  rest place hplace := by
    have hout : ∀ item ∈ items ++ items', place ∉ item.path.places := by
      intro item hitem
      obtain ⟨made, hmade, hpath⟩ := hcover item hitem
      exact hpath ▸ hplace made hmade
    rw [h'.rest place fun item hitem => hout item (List.mem_append_right _ hitem),
      h.rest place fun item hitem => hout item (List.mem_append_left _ hitem)]

/-- Making items one row after the other, at places that differ or with the same entries. -/
theorem Makes.append (h : tree.Makes items middle) (h' : middle.Makes items' other)
    (hitems : ∀ path text, .file path text ∈ items →
      ∀ made ∈ items', made.place = path.resolve → made.entry = .file (.text text)) :
    tree.Makes (items ++ items') other := by
  refine h.trans h' (fun item hitem => ⟨item, hitem, rfl⟩) fun item hitem => ?_
  rcases List.mem_append.1 hitem with hold | hnew
  · exact .inr ⟨hold, fun path text heq => hitems path text (heq ▸ hold)⟩
  · exact .inl hnew

/-- What stands at the places of an item follows from the item. -/
theorem Holds.get?_eq (h : tree.Holds item) (h' : other.Holds item)
    (hplace : place ∈ item.path.places) : tree.get? place = other.get? place := by
  rcases List.mem_append.1 hplace with hpassed | hlast
  · rw [h.passed place hpassed, h'.passed place hpassed]
  · obtain rfl : place = item.place := List.mem_singleton.1 hlast
    rw [h.get, h'.get]

/-- Two trees that make items of one tree agree where both make one item, or none. -/
theorem Makes.agree_at (h : tree.Makes items other) (h' : tree.Makes items' third)
    (hplace : (∃ item ∈ items, item ∈ items' ∧ place ∈ item.path.places) ∨
      ∀ item ∈ items ++ items', place ∉ item.path.places) :
    other.get? place = third.get? place := by
  rcases hplace with ⟨item, hitem, hitem', hmem⟩ | hout
  · exact (h.holds item hitem).get?_eq (h'.holds item hitem') hmem
  · rw [h.rest place fun item hitem => hout item (List.mem_append_left _ hitem),
      h'.rest place fun item hitem => hout item (List.mem_append_right _ hitem)]

/-- Two trees that make the same items of one tree agree. -/
theorem Makes.agree (h : tree.Makes items other) (h' : tree.Makes items' third)
    (hitems : ∀ item, item ∈ items ↔ item ∈ items') (place : Path) :
    other.get? place = third.get? place := by
  refine h.agree_at h' ?_
  by_cases hmem : ∃ item ∈ items, place ∈ item.path.places
  · obtain ⟨item, hitem, hplace⟩ := hmem
    exact .inl ⟨item, hitem, (hitems item).1 hitem, hplace⟩
  · refine .inr fun item hitem hplace => hmem ⟨item, ?_, hplace⟩
    rcases List.mem_append.1 hitem with hitem | hitem
    · exact hitem
    · exact (hitems item).2 hitem

/-- Making items keeps every entry in a folder. -/
theorem Makes.sound (h : tree.Makes items other) (hsound : tree.Sound) : other.Sound := by
  intro place entry hget
  by_cases hnil : place = []
  · subst hnil
    rfl
  by_cases hmem : ∃ item ∈ items, place ∈ item.path.places
  · obtain ⟨item, hitem, hplace⟩ := hmem
    exact (h.holds item hitem).passed _ (Path.dropLast_mem_passed hplace hnil)
  · have hrest := h.rest place fun item hitem hplace => hmem ⟨item, hitem, hplace⟩
    exact h.below.folder _ (hsound place entry (hrest ▸ hget))

/-- Something of the item's kind stands in the tree. -/
def HasLike (tree : Tree) : Item → Prop
  | .folder path => tree.Holds (.folder path)
  | .file path _ => tree.HoldsFile path

theorem Holds.hasLike (h : tree.Holds item) : tree.HasLike item := by
  cases item with
  | folder path => exact h
  | file path text => exact h.holdsFile

theorem HasLike.find (h : tree.HasLike item) : tree.find item.path = .ok item.place := by
  cases item with
  | folder path => exact Holds.find h
  | file path text => exact HoldsFile.find h

/-- A tree that is made stays below another one that has what is made. -/
theorem Makes.below_of (h : tree.Makes items other) (hbelow : tree.Below third)
    (hitems : ∀ item ∈ items, third.HasLike item) : other.Below third where
  folder place hp := by
    by_cases hmem : ∃ item ∈ items, place ∈ item.path.places
    · obtain ⟨item, hitem, hplace⟩ := hmem
      rcases List.mem_append.1 hplace with hpassed | hlast
      · exact (find_eq_ok_iff.1 (hitems item hitem).find).2.1 place hpassed
      · obtain rfl : place = item.place := List.mem_singleton.1 hlast
        have hentry := (h.holds item hitem).get
        have hlike := hitems item hitem
        cases item with
        | folder path => exact Holds.get hlike
        | file path text =>
            rw [hp] at hentry
            cases hentry
    · rw [h.rest place fun item hitem hplace => hmem ⟨item, hitem, hplace⟩] at hp
      exact hbelow.folder place hp
  file place content hp := by
    by_cases hmem : ∃ item ∈ items, place ∈ item.path.places
    · obtain ⟨item, hitem, hplace⟩ := hmem
      rcases List.mem_append.1 hplace with hpassed | hlast
      · rw [(h.holds item hitem).passed place hpassed] at hp
        cases hp
      · obtain rfl : place = item.place := List.mem_singleton.1 hlast
        have hentry := (h.holds item hitem).get
        have hlike := hitems item hitem
        cases item with
        | folder path =>
            rw [hp] at hentry
            cases hentry
        | file path text => exact HoldsFile.get hlike
    · rw [h.rest place fun item hitem hplace => hmem ⟨item, hitem, hplace⟩] at hp
      exact hbelow.file place content hp

/-- Putting an entry at the place of a path that can be found, where nothing of another kind
stands. -/
theorem makes_put (hfind : tree.find item.path = .ok item.place)
    (hfolder : item.entry = .folder → tree.get? item.place = none)
    (hfile : item.entry ≠ .folder → tree.get? item.place ≠ some .folder) :
    tree.Makes [item] (tree.put item.place item.entry) := by
  have hne : item.place ≠ [] := by
    intro hnil
    rw [hnil] at hfolder hfile
    by_cases hentry : item.entry = .folder
    · cases hfolder hentry
    · exact hfile hentry rfl
  have hbelow : tree.Below (tree.put item.place item.entry) := by
    refine ⟨fun place h => ?_, fun place content h => ?_⟩
    · by_cases hplace : place = item.place
      · subst hplace
        by_cases hentry : item.entry = .folder
        · rw [get?_put_self hne, hentry]
        · exact absurd h (hfile hentry)
      · rw [get?_put_of_ne hplace, h]
    · by_cases hplace : place = item.place
      · subst hplace
        by_cases hentry : item.entry = .folder
        · rw [hfolder hentry] at h
          cases h
        · rw [get?_put_self hne]
          cases item with
          | folder path => exact absurd rfl hentry
          | file path text => exact ⟨.text text, rfl⟩
      · exact ⟨content, by rw [get?_put_of_ne hplace, h]⟩
  refine ⟨hbelow, fun made hmade => ?_, fun place hplace => get?_put_of_ne ?_⟩
  · rw [List.mem_singleton.1 hmade]
    exact ⟨hbelow.find hfind, get?_put_self hne⟩
  · rintro rfl
    exact hplace item (by simp) (Path.resolve_mem_places _)

end Tree

variable {desk desk' : Desk} {path : Path} {text : Text} {third : Tree}

/-! ## Making folders -/

theorem makeLast_makes (h : (makeLast path).runOn desk = (.ok (), desk')) :
    desk.tree.Makes [.folder path] desk'.tree := by
  rw [makeLast, Work.runOn_bind_of_ok (Work.runOn_tree desk)] at h
  cases hfind : desk.tree.find path with
  | error obstacle =>
      simp only [Tree.makeFolder, hfind, Work.runOn_throw] at h
      cases h
  | ok place =>
      obtain rfl := (Tree.find_eq_ok_iff.1 hfind).2.2
      cases hget : desk.tree.get? path.resolve with
      | none =>
          simp only [Tree.makeFolder, hfind, hget] at h
          obtain ⟨-, rfl⟩ := Prod.mk.injEq .. ▸ h
          have hput : desk.tree.Makes [.folder path] (desk.tree.put path.resolve .folder) :=
            Tree.makes_put hfind (fun _ => hget) fun h => absurd rfl h
          exact hput
      | some entry =>
          simp only [Tree.makeFolder, hfind, hget, Option.isSome_some, if_true] at h
          rw [Work.runOn_bind_of_ok (Work.runOn_tree desk)] at h
          cases entry with
          | folder =>
              simp only [Tree.isFolder, Tree.look_of_find hfind, hget] at h
              obtain ⟨-, rfl⟩ := Prod.mk.injEq .. ▸ h
              have hold : desk.tree.Holds (.folder path) := ⟨hfind, hget⟩
              exact ⟨Tree.Below.refl _, by simpa using hold, fun _ _ => rfl⟩
          | file content =>
              simp [Tree.isFolder, Tree.look_of_find hfind, hget] at h

/-- Making a folder. -/
theorem makeFolders_makes (h : (makeFolders path).runOn desk = (.ok (), desk')) :
    desk.tree.Makes [.folder path] desk'.tree := by
  rw [makeFolders] at h
  induction path using List.reverseRecOn generalizing desk' with
  | nil => exact makeLast_makes h
  | append_singleton above name ih =>
      rw [List.reverse_concat, makeReversed, Work.runOn_bind_of_ok (Work.runOn_tree desk)] at h
      rw [List.reverse_cons, List.reverse_reverse] at h
      split at h
      · obtain ⟨⟨⟩, middle, habove, hlast⟩ := Work.runOn_bind_eq_ok.1 h
        have hlast := makeLast_makes hlast
        refine ⟨(ih habove).below.trans hlast.below, hlast.holds, fun place hplace => ?_⟩
        -- the places above are among those of the whole path
        have hout : place ∉ Path.places above := by
          intro hmem
          refine hplace _ (List.mem_singleton.2 rfl) ?_
          show place ∈ Path.places (above ++ [name])
          rw [Path.places, Path.passed_concat]
          exact List.mem_append_left _ hmem
        rw [hlast.rest place hplace, (ih habove).rest place (by simpa [Item.path] using hout)]
      · exact makeLast_makes h

theorem makeLast_runOn (hbelow : desk.tree.Below third)
    (hfind : desk.tree.find path = .ok path.resolve) (hfolder : third.Holds (.folder path)) :
    ∃ desk', (makeLast path).runOn desk = (.ok (), desk') := by
  rw [makeLast, Work.runOn_bind_of_ok (Work.runOn_tree desk)]
  rcases hbelow.none_or_folder hfolder.get with hget | hget
  · have hget : desk.tree.get? path.resolve = none := hget
    simp only [Tree.makeFolder, hfind, hget]
    exact ⟨_, rfl⟩
  · have hget : desk.tree.get? path.resolve = some .folder := hget
    simp only [Tree.makeFolder, hfind, hget, Option.isSome_some, if_true]
    rw [Work.runOn_bind_of_ok (Work.runOn_tree desk)]
    simp only [Tree.isFolder, Tree.look_of_find hfind, hget]
    exact ⟨_, rfl⟩

/-- Making a folder succeeds below a tree that has it. -/
theorem makeFolders_runOn (hbelow : desk.tree.Below third) (hfolder : third.Holds (.folder path)) :
    ∃ desk', (makeFolders path).runOn desk = (.ok (), desk') := by
  rw [makeFolders]
  induction path using List.reverseRecOn with
  | nil =>
      have hhere : desk.tree.find [] = .ok (Path.resolve []) :=
        Tree.find_eq_ok_iff.2 ⟨hfolder.fits, nofun, rfl⟩
      exact makeLast_runOn hbelow hhere hfolder
  | append_singleton above name ih =>
      rw [List.reverse_concat, makeReversed, Work.runOn_bind_of_ok (Work.runOn_tree desk)]
      rw [List.reverse_cons, List.reverse_reverse]
      have hfind : third.find (above ++ [name]) = .ok (Path.resolve (above ++ [name])) :=
        hfolder.find
      have habove : third.Holds (.folder above) := by
        simpa using Tree.Holds.parent hfind (by simp)
      obtain ⟨middle, hmiddle⟩ := ih habove
      by_cases hhere : ∃ place, desk.tree.find (above ++ [name]) = .ok place
      · obtain ⟨place, hhere⟩ := hhere
        obtain rfl := (Tree.find_eq_ok_iff.1 hhere).2.2
        have hnot : desk.tree.makeFolder (above ++ [name]) ≠ .failed .missing := by
          simp only [Tree.makeFolder, hhere]
          split <;> simp
        obtain ⟨desk', hlast⟩ := makeLast_runOn hbelow hhere hfolder
        refine ⟨desk', ?_⟩
        rw [← hlast]
        split
        · next hmissing => exact absurd hmissing hnot
        · rfl
      · -- the way there is missing, and is made first
        have hmissing := Tree.find_eq_missing hfolder.fits
          (fun p hp => hbelow.none_or_folder (hfolder.passed p hp))
          (fun place hplace => hhere ⟨place, hplace⟩)
        have hmade := makeFolders_makes hmiddle
        have hmiddleBelow := hmade.below_of hbelow (by simpa [Tree.HasLike] using habove)
        have hmiddleFind : middle.tree.find (above ++ [name]) =
            .ok (Path.resolve (above ++ [name])) := by
          refine Tree.find_eq_ok_iff.2 ⟨hfolder.fits, fun p hp => ?_, rfl⟩
          rw [Path.passed_concat] at hp
          have hholds := hmade.holds (.folder above) (by simp)
          rcases List.mem_append.1 hp with hp | hp
          · exact hholds.passed p hp
          · rw [List.mem_singleton.1 hp]
            exact hholds.get
        obtain ⟨desk', hlast⟩ := makeLast_runOn hmiddleBelow hmiddleFind hfolder
        refine ⟨desk', ?_⟩
        simp only [Tree.makeFolder, show desk.tree.find (above ++ [name]) = .error .missing from hmissing]
        rw [Work.runOn_bind_of_ok hmiddle, hlast]

/-! ## Writing texts -/

theorem writeText_makes (h : (writeText path text).runOn desk = (.ok (), desk')) :
    desk.tree.Makes [.file path text] desk'.tree := by
  rw [writeText, Work.runOn_bind_of_ok (Work.runOn_tree desk)] at h
  cases hfind : desk.tree.find path with
  | error obstacle =>
      simp only [hfind, Work.runOn_throw] at h
      cases h
  | ok place =>
      obtain rfl := (Tree.find_eq_ok_iff.1 hfind).2.2
      simp only [hfind] at h
      split at h
      · cases h
      · next hfolder =>
        obtain ⟨-, rfl⟩ := Prod.mk.injEq .. ▸ h
        have hput : desk.tree.Makes [.file path text]
            (desk.tree.put path.resolve (.file (.text text))) :=
          Tree.makes_put hfind nofun fun _ => hfolder
        exact hput

theorem writeText_runOn (text : Text) (hfind : desk.tree.find path = .ok path.resolve)
    (hplace : desk.tree.get? path.resolve ≠ some .folder) :
    ∃ desk', (writeText path text).runOn desk = (.ok (), desk') := by
  rw [writeText, Work.runOn_bind_of_ok (Work.runOn_tree desk)]
  simp only [hfind]
  exact ⟨_, rfl⟩

end Scaffold
