import Scaffold.Proofs.Tree.Making

/-!
# Trees that can be built on

The way to a path is open if only folders stand on it. Where the ways to some items are open and no
item stands in the way of another one, there is a tree above that has all of them
(`Tree.exists_above`), so making them succeeds.
-/

namespace Scaffold

namespace Tree

variable {tree other : Tree} {items : List Item} {item : Item} {path place : Path}

/-- The path is within the limits, and only folders stand on the way to its place. -/
structure Open (tree : Tree) (path : Path) : Prop where
  fits : path.Fits
  passed : ∀ place ∈ path.passed, tree.get? place = none ∨ tree.get? place = some .folder

/-- Nothing of another kind stands at the place of the item. -/
def Admits (tree : Tree) : Item → Prop
  | .folder path => tree.get? path.resolve = none ∨ tree.get? path.resolve = some .folder
  | .file path _ => tree.get? path.resolve ≠ some .folder

/-- The item stands at no place on the way to the other one, and both are of one kind if they stand
at the same place. -/
structure ClearOf (item other : Item) : Prop where
  way : item.entry ≠ .folder → item.place ∉ other.path.passed
  place : item.place = other.place → (item.entry = .folder ↔ other.entry = .folder)

/-- The tree with all items and the folders on the way to them, where nothing stands yet. -/
def above (tree : Tree) (items : List Item) : Tree where
  entries := tree.entries ++ ((items.flatMap (·.path.passed)).map (·, .folder) ++
    items.map fun item => (item.place, item.entry))

theorem get?_above (tree : Tree) (items : List Item) (h : place ≠ []) :
    (tree.above items).get? place = (tree.get? place).or
      ((((items.flatMap (·.path.passed)).map (·, Entry.folder)).lookup place).or
        ((items.map fun item => (item.place, item.entry)).lookup place)) := by
  cases place with
  | nil => exact absurd rfl h
  | cons name names =>
      show List.lookup _ _ = _
      rw [above, List.lookup_append, List.lookup_append]
      rfl

theorem below_above (tree : Tree) (items : List Item) : tree.Below (tree.above items) := by
  have hsome : ∀ place entry, tree.get? place = some entry →
      (tree.above items).get? place = some entry := by
    intro place entry hget
    by_cases hnil : place = []
    · subst hnil
      exact hget
    · rw [get?_above tree items hnil, hget, Option.some_or]
  exact ⟨fun place h => hsome place _ h, fun place content h => ⟨content, hsome place _ h⟩⟩

theorem lookup_map_folder {places : List Path} (place : Path) :
    (places.map (·, Entry.folder)).lookup place =
      if place ∈ places then some .folder else none := by
  induction places with
  | nil => rfl
  | cons first places ih =>
      rw [List.map_cons, List.lookup_cons, ih]
      by_cases hfirst : place = first
      · subst hfirst
        simp
      · have hbeq : (place == first) = false := by simpa using hfirst
        rw [hbeq]
        simp [hfirst]

/-- A place on the way to an item is a folder above. -/
theorem get?_above_of_passed (hitem : item ∈ items) (hopen : tree.Open item.path)
    (hplace : place ∈ item.path.passed) : (tree.above items).get? place = some .folder := by
  rcases hopen.passed place hplace with hnone | hfolder
  · have hne : place ≠ [] := by
      rintro rfl
      cases hnone
    have hmem : place ∈ items.flatMap (·.path.passed) := List.mem_flatMap.2 ⟨item, hitem, hplace⟩
    rw [get?_above tree items hne, hnone, lookup_map_folder, if_pos hmem]
    rfl
  · exact (below_above tree items).folder place hfolder

/-- Where nothing stands, something of an item's kind stands above. -/
theorem get?_above_of_place (hitem : item ∈ items) (hnone : tree.get? item.place = none)
    (hclear : ∀ other ∈ items, ClearOf item other) :
    ∃ entry, (tree.above items).get? item.place = some entry ∧
      (item.entry = .folder ↔ entry = .folder) := by
  have hne : item.place ≠ [] := by
    intro hnil
    rw [hnil] at hnone
    cases hnone
  rw [get?_above tree items hne, hnone, Option.none_or, lookup_map_folder]
  by_cases hpassed : item.place ∈ items.flatMap (·.path.passed)
  · obtain ⟨other, hother, hway⟩ := List.mem_flatMap.1 hpassed
    rw [if_pos hpassed]
    exact ⟨.folder, rfl, fun _ => rfl, fun _ => by_contra fun hfile =>
      (hclear other hother).way hfile hway⟩
  · rw [if_neg hpassed, Option.none_or]
    cases hlookup : (items.map fun item => (item.place, item.entry)).lookup item.place with
    | none =>
        have habsent := List.lookup_eq_none_iff.1 hlookup
        exact absurd (beq_self_eq_true item.place)
          (by simpa using habsent _ (List.mem_map_of_mem hitem))
    | some entry =>
        obtain ⟨first, last, heq, -⟩ := List.lookup_eq_some_iff.1 hlookup
        have hmem : (item.place, entry) ∈ items.map fun item => (item.place, item.entry) := by
          rw [heq]
          simp
        obtain ⟨other, hother, hpair⟩ := List.mem_map.1 hmem
        obtain ⟨hplace, rfl⟩ := Prod.mk.inj hpair
        exact ⟨_, rfl, (hclear other hother).place hplace.symm⟩

/-- Above a tree that admits items there is one that has them. -/
theorem exists_above (hopen : ∀ item ∈ items, tree.Open item.path)
    (hadmits : ∀ item ∈ items, tree.Admits item)
    (hclear : ∀ item ∈ items, tree.get? item.place = none → ∀ other ∈ items, ClearOf item other) :
    ∃ third, tree.Below third ∧ ∀ item ∈ items, third.HasLike item := by
  refine ⟨tree.above items, below_above tree items, fun item hitem => ?_⟩
  have hfind : (tree.above items).find item.path = .ok item.place :=
    find_eq_ok_iff.2 ⟨(hopen item hitem).fits,
      fun place hplace => get?_above_of_passed hitem (hopen item hitem) hplace, rfl⟩
  have hhere := hadmits item hitem
  have hnew : tree.get? item.place = none → ∃ entry, (tree.above items).get? item.place =
      some entry ∧ (item.entry = .folder ↔ entry = .folder) :=
    fun hnone => get?_above_of_place hitem hnone (hclear item hitem hnone)
  cases item with
  | folder path =>
      refine ⟨hfind, ?_⟩
      rcases hhere with hnone | hfolder
      · obtain ⟨entry, hget, hkind⟩ := hnew hnone
        obtain rfl := hkind.1 rfl
        exact hget
      · exact (below_above tree items).folder _ hfolder
  | file path text =>
      refine ⟨hfind, ?_⟩
      cases hget : tree.get? path.resolve with
      | none =>
          obtain ⟨entry, hget, hkind⟩ := hnew hget
          cases entry with
          | folder => exact absurd (hkind.2 rfl) nofun
          | file content => exact ⟨content, hget⟩
      | some entry =>
          cases entry with
          | folder => exact absurd hget hhere
          | file content => exact (below_above tree items).file _ content hget

end Tree

end Scaffold
