import Scaffold.Proofs.Project.Full

/-!
# Slots

A run that extends a feature goes through a row of slots, each a file or a folder at a fixed place.
What becomes of a slot depends only on what stands at its place, so the items that a whole row makes
can be read off the tree on which it starts (`Slot.items`). `Does` says so of a step; steps are put
together by `Does.bind`.
-/

namespace Scaffold

/-- A file that is written if it is missing or its text is updated, or a folder that is made. A file
that is read has to be a text. -/
inductive Slot
  | file (path full : Text) (reads : Bool) (update : Text → Option Text)
  | folder (path : Text)

namespace Slot

/-- The path of the slot below the feature's folder. -/
def path : Slot → Text
  | file path _ _ _ => path
  | folder path => path

/-- The place of the slot. -/
def place (target : Target) (slot : Slot) : Path := (target.path slot.path).resolve

/-- The text that is written, if any, where the given entry stands. -/
def text? (slot : Slot) (entry : Option Entry) : Option Text :=
  match slot, entry with
  | file _ full _ _, none => some full
  | file _ _ _ update, some (.file (.text content)) => update (universalNewlines content)
  | _, _ => none

/-- The item that is made of the slot, if any. -/
def item? (target : Target) (tree : Tree) (slot : Slot) : Option Item :=
  match slot with
  | folder path => some (.folder (target.path path))
  | file path full reads update =>
    ((file path full reads update).text? (tree.get? (target.path path).resolve)).map
      (.file (target.path path))

/-- The items that are made of the slots. -/
def items (target : Target) (slots : List Slot) (tree : Tree) : List Item :=
  slots.filterMap (item? target tree)

/-- The path of the file that is written, if any. -/
def written? (target : Target) (tree : Tree) (slot : Slot) : Option Text :=
  (slot.text? (tree.get? (slot.place target))).map fun _ => slot.path

/-- The paths of the files that are written. -/
def written (target : Target) (slots : List Slot) (tree : Tree) : List Text :=
  slots.filterMap (written? target tree)

/-- The slot lies at a relative path. Of its names at most the last one has a dot; that of a file
has one. -/
structure LiesAt (slot : Slot) (folder : List Text) (last : Text) : Prop where
  relative : Path.Relative slot.path (folder ++ [last])
  folders : ∀ name ∈ folder, '.' ∉ name
  dotted : (∀ path, slot ≠ .folder path) → '.' ∈ last

/-- The slot lies at some relative path. -/
def IsSited (slot : Slot) : Prop := ∃ folder last, slot.LiesAt folder last

/-- The slots lie at different relative paths. -/
structure Spread (slots : List Slot) : Prop where
  sited : ∀ slot ∈ slots, slot.IsSited
  apart : slots.Pairwise fun a b => Path.names a.path ≠ Path.names b.path

/-- What has been made of the slot, or been left alone, can be found. -/
def Stands (target : Target) (tree : Tree) (slot : Slot) : Prop :=
  tree.find (target.path slot.path) = .ok (slot.place target) ∧
    match slot with
    | folder _ => tree.get? (slot.place target) = some .folder
    | file _ _ reads _ => ∃ entry, tree.get? (slot.place target) = some entry ∧
        (reads = true → ∃ text, entry = .file (.text text))

/-- The slot can be gone through below a tree: what is made of it is there, and what is read is a
text. -/
def Allows (target : Target) (tree third : Tree) (slot : Slot) : Prop :=
  third.find (target.path slot.path) = .ok (slot.place target) ∧
    match slot with
    | folder _ => third.get? (slot.place target) = some .folder
    | file _ _ reads _ =>
      match tree.get? (slot.place target) with
      | none => ∃ content, third.get? (slot.place target) = some (.file content)
      | some (.file (.text _)) => True
      | some _ => reads = false

variable {target : Target} {tree other third : Tree} {slot : Slot} {slots others : List Slot}

theorem place_eq {folder : List Text} {last : Text} (h : slot.LiesAt folder last) :
    slot.place target = target.folder.resolve ++ (folder ++ [last]) :=
  Path.resolve_join h.relative

theorem items_append (target : Target) (slots others : List Slot) (tree : Tree) :
    items target (slots ++ others) tree = items target slots tree ++ items target others tree :=
  List.filterMap_append ..

theorem written_append (target : Target) (slots others : List Slot) (tree : Tree) :
    written target (slots ++ others) tree =
      written target slots tree ++ written target others tree :=
  List.filterMap_append ..

theorem items_singleton (target : Target) (slot : Slot) (tree : Tree) :
    items target [slot] tree = (slot.item? target tree).toList := by
  cases h : slot.item? target tree <;> simp [items, h]

theorem written_singleton (target : Target) (slot : Slot) (tree : Tree) :
    written target [slot] tree = (slot.written? target tree).toList := by
  cases h : slot.written? target tree <;> simp [written, h]

theorem path_of_mem_items {item : Item} (h : item ∈ items target slots tree) :
    ∃ slot ∈ slots, slot.item? target tree = some item ∧ item.path = target.path slot.path := by
  obtain ⟨slot, hslot, hitem⟩ := List.mem_filterMap.1 h
  refine ⟨slot, hslot, hitem, ?_⟩
  cases slot with
  | folder path =>
      rw [← Option.some.inj hitem]
      rfl
  | file path full reads update =>
      obtain ⟨text, -, rfl⟩ := Option.map_eq_some_iff.1 hitem
      rfl

/-- A file does not lie on the way to another slot. -/
theorem not_leads {folder folder' : List Text} {last last' : Text} {other : Slot}
    (h : slot.LiesAt folder last) (hfile : ∀ path, slot ≠ .folder path)
    (h' : other.LiesAt folder' last') (hne : folder ++ [last] ≠ folder' ++ [last']) :
    ¬ folder ++ [last] <+: folder' ++ [last'] := by
  intro hpre
  rw [List.prefix_concat_iff] at hpre
  rcases hpre with heq | hpre
  · exact hne heq
  · exact h'.folders last (hpre.subset (by simp)) (h.dotted hfile)

end Slot

/-- The tree is sound and has the feature's folder. -/
structure Ready (target : Target) (tree : Tree) : Prop where
  sound : tree.Sound
  folder : tree.Holds (.folder target.folder)

theorem Ready.of_makes {target : Target} {tree other : Tree} {items : List Item}
    (h : Ready target tree) (hmakes : tree.Makes items other) : Ready target other :=
  ⟨hmakes.sound h.sound, hmakes.below.holds_folder h.folder⟩

namespace Slot

variable {target : Target} {tree other third : Tree} {slot : Slot} {slots others : List Slot}

/-- What is made of some slots leaves alone what stands at the place of another file. -/
theorem get?_of_makes (hready : Ready target tree)
    (h : tree.Makes (items target slots tree) other) (hsited : ∀ slot ∈ slots, slot.IsSited)
    (hslot : slot.IsSited) (hfile : ∀ path, slot ≠ .folder path)
    (hapart : ∀ other ∈ slots, Path.names other.path ≠ Path.names slot.path) :
    other.get? (slot.place target) = tree.get? (slot.place target) := by
  obtain ⟨folder, last, hslot⟩ := hslot
  by_cases hmem : ∃ item ∈ items target slots tree, slot.place target ∈ item.path.places
  · obtain ⟨item, hitem, hplace⟩ := hmem
    obtain ⟨made, hmade, -, hpath⟩ := path_of_mem_items hitem
    obtain ⟨folder', last', hmade'⟩ := hsited made hmade
    rw [hpath] at hplace
    rcases Path.mem_places_of_relative hmade'.relative hplace with hpassed | ⟨first, hfirst, heq⟩
    · have hfolder := hready.folder.passed _ hpassed
      rw [hfolder, h.below.folder _ hfolder]
    · rw [place_eq hslot] at heq
      have hrow := List.append_cancel_left heq
      refine absurd (hrow ▸ hfirst) (not_leads hslot hfile hmade' fun hrows => ?_)
      exact hapart made hmade (by rw [hslot.relative.names, hmade'.relative.names, hrows])
  · exact h.rest _ fun item hitem hplace => hmem ⟨item, hitem, hplace⟩

theorem item?_congr (h : (∀ path, slot ≠ .folder path) →
      other.get? (slot.place target) = tree.get? (slot.place target)) :
    slot.item? target other = slot.item? target tree ∧
      slot.written? target other = slot.written? target tree := by
  cases slot with
  | folder path => exact ⟨rfl, rfl⟩
  | file path full reads update =>
      have hget : other.get? (target.path path).resolve = tree.get? (target.path path).resolve :=
        h nofun
      exact ⟨by rw [item?, item?, hget], by rw [written?, written?, h nofun]⟩

theorem items_congr (hready : Ready target tree) (h : tree.Makes (items target slots tree) other)
    (hspread : Spread (slots ++ others)) :
    items target others other = items target others tree ∧
      written target others other = written target others tree := by
  obtain ⟨-, -, hcross⟩ := List.pairwise_append.1 hspread.apart
  have hcongr : ∀ slot ∈ others, slot.item? target other = slot.item? target tree ∧
      slot.written? target other = slot.written? target tree := by
    intro slot hslot
    refine item?_congr fun hfile => get?_of_makes hready h
      (fun made hmade => hspread.sited made (List.mem_append_left _ hmade))
      (hspread.sited slot (List.mem_append_right _ hslot)) hfile fun made hmade => ?_
    exact hcross made hmade slot hslot
  exact ⟨List.filterMap_congr fun slot hslot => (hcongr slot hslot).1,
    List.filterMap_congr fun slot hslot => (hcongr slot hslot).2⟩

theorem place_ne (target : Target) {other : Slot} (hslot : slot.IsSited) (hother : other.IsSited)
    (hapart : Path.names slot.path ≠ Path.names other.path) :
    slot.place target ≠ other.place target := by
  obtain ⟨folder, last, hslot⟩ := hslot
  obtain ⟨folder', last', hother⟩ := hother
  rw [place_eq hslot, place_eq hother]
  intro h
  rw [hslot.relative.names, hother.relative.names] at hapart
  exact hapart (List.append_cancel_left h)

end Slot

/-! ## Steps -/

variable {target : Target} {α β : Type} {slots others : List Slot}

/-- The step goes through the slots: it makes their items, and it returns below every tree that
allows them. `names` gives the written paths that an answer reports, `before` those that have been
written before. -/
structure Does (target : Target) (names : α → List Text) (before : List Text)
    (step : Work WorkError α) (slots : List Slot) : Prop where
  makes : ∀ {desk desk' answer}, Ready target desk.tree → step.runOn desk = (.ok answer, desk') →
    desk.tree.Makes (Slot.items target slots desk.tree) desk'.tree ∧
      names answer = before ++ Slot.written target slots desk.tree ∧
      ∀ slot ∈ slots, slot.Stands target desk'.tree
  returns : ∀ {desk third}, Ready target desk.tree → desk.tree.Below third →
    (∀ slot ∈ slots, slot.Allows target desk.tree third) →
    ∃ answer desk', step.runOn desk = (.ok answer, desk')

namespace Slot

variable {tree other third : Tree} {slot : Slot}

theorem Allows.hasLike (h : slot.Allows target tree third) (hbelow : tree.Below third) {item : Item}
    (hitem : slot.item? target tree = some item) : third.HasLike item := by
  obtain ⟨hfind, h⟩ := h
  cases slot with
  | folder path =>
      rw [← Option.some.inj hitem]
      exact ⟨hfind, h⟩
  | file path full reads update =>
      obtain ⟨text, htext, rfl⟩ := Option.map_eq_some_iff.1 hitem
      refine ⟨hfind, ?_⟩
      have hplace : (target.path path).resolve = place target (file path full reads update) := rfl
      rw [hplace] at htext ⊢
      cases hget : tree.get? (place target (file path full reads update)) with
      | none =>
          rw [hget] at h
          exact h
      | some entry =>
          rw [hget] at htext
          cases entry with
          | folder => cases htext
          | file content => exact hbelow.file _ _ hget

theorem Allows.congr (h : slot.Allows target tree third)
    (hget : (∀ path, slot ≠ .folder path) →
      other.get? (slot.place target) = tree.get? (slot.place target)) :
    slot.Allows target other third := by
  unfold Allows at h ⊢
  cases slot with
  | folder path => exact h
  | file path full reads update =>
      rw [hget nofun]
      exact h

theorem Stands.keeps (h : slot.Stands target tree) (hbelow : tree.Below other)
    (hget : (∀ path, slot ≠ .folder path) →
      other.get? (slot.place target) = tree.get? (slot.place target)) :
    slot.Stands target other := by
  obtain ⟨hfind, h⟩ := h
  refine ⟨hbelow.find hfind, ?_⟩
  cases slot with
  | folder path => exact hbelow.folder _ h
  | file path full reads update =>
      show ∃ entry, other.get? _ = some entry ∧ _
      rw [hget nofun]
      exact h

end Slot

namespace Does

variable {names : α → List Text} {names' : β → List Text} {before : List Text}

theorem pure (names : α → List Text) (answer : α) :
    Does target names (names answer) (pure answer) [] where
  makes := by
    intro desk desk' answer' _ h
    obtain ⟨heq, rfl⟩ := Prod.mk.injEq .. ▸ h
    obtain rfl := Except.ok.inj heq
    exact ⟨Tree.Makes.refl _, by simp [Slot.written], by simp⟩
  returns _ _ _ := ⟨answer, _, rfl⟩

/-- One step after another. -/
theorem bind {first : Work WorkError α} {next : α → Work WorkError β}
    (h : Does target names before first slots)
    (h' : ∀ answer, Does target names' (names answer) (next answer) others)
    (hspread : Slot.Spread (slots ++ others)) :
    Does target names' before (first >>= next) (slots ++ others) where
  makes := by
    intro desk desk' answer hready hrun
    obtain ⟨middle, desk'', hfirst, hnext⟩ := Work.runOn_bind_eq_ok.1 hrun
    obtain ⟨hmakes, hnames, hstands⟩ := h.makes hready hfirst
    obtain ⟨hmakes', hnames', hstands'⟩ := (h' middle).makes (hready.of_makes hmakes) hnext
    obtain ⟨hitems, hwritten⟩ := Slot.items_congr hready hmakes hspread
    obtain ⟨-, -, hcross⟩ := List.pairwise_append.1 hspread.apart
    have hsited := fun slot hslot => hspread.sited slot (List.mem_append_left _ hslot)
    have hsited' := fun slot hslot => hspread.sited slot (List.mem_append_right _ hslot)
    refine ⟨?_, ?_, fun slot hslot => ?_⟩
    · rw [Slot.items_append, ← hitems]
      refine hmakes.append hmakes' fun path text hfile made hmade hplace => ?_
      obtain ⟨slot, hslot, -, hpath⟩ := Slot.path_of_mem_items hfile
      obtain ⟨other, hother, -, hpath'⟩ := Slot.path_of_mem_items hmade
      refine absurd ?_ (Slot.place_ne target (hsited slot hslot) (hsited' other hother)
        (hcross slot hslot other hother))
      rw [Slot.place, Slot.place, ← hpath, ← hpath']
      exact hplace.symm
    · rw [hnames', hnames, Slot.written_append, hwritten, List.append_assoc]
    · rcases List.mem_append.1 hslot with hslot | hslot
      · refine (hstands slot hslot).keeps hmakes'.below fun hfile => ?_
        exact Slot.get?_of_makes (hready.of_makes hmakes) hmakes' hsited' (hsited slot hslot) hfile
          fun other hother => (hcross slot hslot other hother).symm
      · exact hstands' slot hslot
  returns := by
    intro desk third hready hbelow hallows
    obtain ⟨middle, desk', hfirst⟩ := h.returns hready hbelow fun slot hslot =>
      hallows slot (List.mem_append_left _ hslot)
    obtain ⟨hmakes, -, -⟩ := h.makes hready hfirst
    obtain ⟨-, -, hcross⟩ := List.pairwise_append.1 hspread.apart
    have hbelow' : desk'.tree.Below third := by
      refine hmakes.below_of hbelow fun item hitem => ?_
      obtain ⟨slot, hslot, hitem, -⟩ := Slot.path_of_mem_items hitem
      exact (hallows slot (List.mem_append_left _ hslot)).hasLike hbelow hitem
    obtain ⟨answer, desk'', hnext⟩ := (h' middle).returns (hready.of_makes hmakes) hbelow'
      fun slot hslot => by
        refine (hallows slot (List.mem_append_right _ hslot)).congr fun hfile => ?_
        exact Slot.get?_of_makes hready hmakes
          (fun made hmade => hspread.sited made (List.mem_append_left _ hmade))
          (hspread.sited slot (List.mem_append_right _ hslot)) hfile
          fun made hmade => hcross made hmade slot hslot
    exact ⟨answer, desk'', (Work.runOn_bind_of_ok hfirst).trans hnext⟩

/-- Nothing else is written after what has been written before. -/
theorem shift {step : Work WorkError α} (h : Does target names [] step slots)
    (earlier : List Text) :
    Does target (fun answer => earlier ++ names answer) earlier step slots where
  makes := by
    intro desk desk' answer hready hrun
    obtain ⟨hmakes, hnames, hstands⟩ := h.makes hready hrun
    exact ⟨hmakes, by rw [hnames, List.nil_append], hstands⟩
  returns := h.returns

/-- An answer may be put in another form at the end. -/
theorem map {step : Work WorkError α} (h : Does target names before step slots) (f : α → β)
    (hf : ∀ answer, names' (f answer) = names answer) :
    Does target names' before (step >>= fun answer => Pure.pure (f answer)) slots where
  makes := by
    intro desk desk' answer hready hrun
    obtain ⟨first, middle, hfirst, hlast⟩ := Work.runOn_bind_eq_ok.1 hrun
    obtain ⟨heq, rfl⟩ := Prod.mk.injEq .. ▸ hlast
    obtain rfl := Except.ok.inj heq
    rw [hf]
    exact h.makes hready hfirst
  returns := by
    intro desk third hready hbelow hallows
    obtain ⟨answer, desk', hrun⟩ := h.returns hready hbelow hallows
    exact ⟨f answer, desk', Work.runOn_bind_of_ok hrun⟩

/-- A step that is left out makes nothing. -/
theorem ite {step : Work WorkError α} {condition : Prop} [Decidable condition]
    (names : α → List Text) (other : α)
    (h : condition → Does target names (names other) step slots) :
    Does target names (names other) (if condition then step else Pure.pure other)
      (if condition then slots else []) := by
  split
  · next hcondition => exact h hcondition
  · exact Does.pure names other

end Does

theorem Slot.Spread.sublist (h : Slot.Spread slots) (hsub : others.Sublist slots) :
    Slot.Spread others :=
  ⟨fun slot hslot => h.sited slot (hsub.subset hslot), h.apart.sublist hsub⟩

/-- Several steps that report what they write, one after the other. -/
theorem Does.mapM {γ : Type} {step : γ → Work WorkError α} {names : α → List Text} {xs : List γ}
    {slot : γ → Slot} (h : ∀ x ∈ xs, Does target names [] (step x) [slot x])
    (hspread : Slot.Spread (xs.map slot)) :
    Does target (fun answers : List α => answers.flatMap names) [] (xs.mapM step)
      (xs.map slot) := by
  induction xs with
  | nil => exact Does.pure (fun answers : List α => answers.flatMap names) []
  | cons x xs ih =>
      rw [List.mapM_cons]
      have hrest := ih (fun y hy => h y (by simp [hy]))
        (hspread.sublist (List.sublist_cons_self ..))
      refine (h x (by simp)).bind (fun first => ?_) hspread
      exact (hrest.shift (names first)).map (first :: ·) fun _ => by simp

end Scaffold
