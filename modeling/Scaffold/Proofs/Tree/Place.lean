import Mathlib.Data.List.Induction
import Scaffold.Tree.Basic

/-!
# Places of paths

The place that a path leads to is the path with its `..` resolved, whatever the tree; the tree only
decides whether the way there is open (`find_eq_ok_iff`). A tree lies below another one if that one
has all its folders and files; what can be found stays to be found above.
-/

namespace Scaffold

namespace Path

/-- The places on the way along the names, the last one apart. -/
def passedFrom : (here names : Path) → List Path
  | _, [] => []
  | here, name :: rest => here :: passedFrom (here.enter name) rest

/-- The places on the way to the place of a path, the root first. -/
def passed (path : Path) : List Path := passedFrom [] path

/-- The limits on names and paths that do not depend on the tree. -/
structure Fits (path : Path) : Prop where
  noZero : path.any (·.contains '\x00') = false
  size : Tree.byteCount path.text ≤ Tree.pathLimit
  names : ∀ name ∈ path, Tree.byteCount name ≤ Tree.nameLimit

/-- The way along two rows of names goes along the first and then along the second. -/
theorem passedFrom_append (here first second : Path) :
    passedFrom here (first ++ second) =
      passedFrom here first ++ passedFrom (first.foldl enter here) second := by
  induction first generalizing here with
  | nil => rfl
  | cons name first ih => simp [passedFrom, ih]

/-- The second of two paths is followed from the place of the first. -/
theorem resolve_append (first second : Path) :
    resolve (first ++ second) = second.foldl enter first.resolve := by
  simp [resolve]

/-- What is passed on the way to a path behind another is passed on the way to that one or behind
it. -/
theorem passed_append (first second : Path) :
    passed (first ++ second) = passed first ++ passedFrom first.resolve second :=
  passedFrom_append [] first second

/-- The folder that holds a path is the last place on the way to it. -/
@[simp] theorem passed_concat (path : Path) (name : Text) :
    passed (path ++ [name]) = passed path ++ [path.resolve] :=
  passed_append path [name]

end Path

/-! ## Limits -/

/-- The bytes of two texts add up. -/
theorem Tree.byteCount_append (a b : Text) :
    Tree.byteCount (a ++ b) = Tree.byteCount a + Tree.byteCount b := by
  have hfold : ∀ n, b.foldl (fun count c => count + c.utf8Size) n =
      n + b.foldl (fun count c => count + c.utf8Size) 0 := by
    induction b with
    | nil => simp
    | cons c b ih =>
        intro n
        rw [List.foldl_cons, List.foldl_cons, ih, ih (0 + c.utf8Size)]
        omega
  rw [Tree.byteCount, Tree.byteCount, List.foldl_append, hfold]
  rfl

/-- The start of a path that fits fits. -/
theorem Path.Fits.of_concat {path : Path} {name : Text} (h : Path.Fits (path ++ [name])) :
    path.Fits := by
  have htext : ∃ rest, (path ++ [name]).text = path.text ++ rest := by
    match path with
    | [] => cases name <;> exact ⟨_, rfl⟩
    | [[]] => exact ⟨name, by simp [Path.text]⟩
    | [c :: first] => exact ⟨'/' :: name, by simp [Path.text]⟩
    | first :: second :: rest => exact ⟨'/' :: name, by simp [Path.text]⟩
  obtain ⟨rest, hrest⟩ := htext
  refine ⟨?_, Nat.le_trans ?_ h.size, fun n hn => h.names n (by simp [hn])⟩
  · have := h.noZero
    rw [List.any_append, Bool.or_eq_false_iff] at this
    exact this.1
  · rw [hrest, Tree.byteCount_append]
    exact Nat.le_add_right _ _

/-- A path that fits still fits with a shorter last name. -/
theorem Path.Fits.replace_last {path : Path} {name last last' : Text}
    (h : Path.Fits (path ++ [name, last])) (hzero : last'.contains '\x00' = false)
    (hsize : Tree.byteCount last' ≤ Tree.byteCount last) : Path.Fits (path ++ [name, last']) := by
  have htext : ∀ final : Text, (path ++ [name, final]).text =
      (path ++ [name]).flatMap ('/' :: ·) ++ '/' :: final := by
    intro final
    have hflat : (path ++ [name, final]).text = (path ++ [name, final]).flatMap ('/' :: ·) := by
      match path with
      | [] => simp [Path.text]
      | [first] => simp [Path.text]
      | first :: second :: rest => simp [Path.text]
    rw [hflat]
    simp
  refine ⟨?_, ?_, ?_⟩
  · have hold := h.noZero
    simp only [List.any_append, List.any_cons, List.any_nil, Bool.or_false,
      Bool.or_eq_false_iff] at hold ⊢
    exact ⟨hold.1, hold.2.1, hzero⟩
  · have hold := h.size
    rw [htext, Tree.byteCount_append] at hold ⊢
    have hcons : ∀ final : Text, Tree.byteCount ('/' :: final) =
        Tree.byteCount ['/'] + Tree.byteCount final := fun final => Tree.byteCount_append ['/'] final
    rw [hcons] at hold ⊢
    omega
  · intro other hother
    rcases List.mem_append.1 hother with hfront | hback
    · exact h.names other (List.mem_append_left _ hfront)
    · rcases List.mem_cons.1 hback with rfl | hback
      · exact h.names other (by simp)
      · rw [List.mem_singleton.1 hback]
        exact Nat.le_trans hsize (h.names last (by simp))

namespace Tree

variable {tree other : Tree} {path place here names : Path}

/-- Names are followed exactly if folders stand on the way and no name is too long. -/
theorem follow_eq_ok_iff :
    tree.follow here names = .ok place ↔
      (∀ passed ∈ Path.passedFrom here names, tree.get? passed = some .folder) ∧
      (∀ name ∈ names, byteCount name ≤ nameLimit) ∧ place = names.foldl Path.enter here := by
  induction names generalizing here with
  | nil => simp [follow, Path.passedFrom, eq_comm]
  | cons name rest ih =>
      rw [follow]
      split
      · next hget => simp [Path.passedFrom, hget]
      · next hget => simp [Path.passedFrom, hget]
      · next hget =>
        split
        · next hlong => simp [Path.passedFrom, hget, Nat.not_le.2 hlong]
        · next hshort => simp [Path.passedFrom, hget, ih, Nat.not_lt.1 hshort]

/-- A path is found exactly if it fits and folders stand on the way; the place is where its names
lead. -/
theorem find_eq_ok_iff :
    tree.find path = .ok place ↔
      path.Fits ∧ (∀ passed ∈ path.passed, tree.get? passed = some .folder) ∧
      place = path.resolve := by
  rw [find]
  split
  · next hzero =>
    refine ⟨nofun, fun h => ?_⟩
    rw [h.1.noZero] at hzero
    cases hzero
  · next hzero =>
    split
    · next hlong =>
      exact ⟨nofun, fun h => absurd h.1.size (Nat.not_le.2 hlong)⟩
    · next hshort =>
      rw [follow_eq_ok_iff]
      constructor
      · rintro ⟨hpassed, hnames, rfl⟩
        exact ⟨⟨by simpa using hzero, Nat.not_lt.1 hshort, hnames⟩, hpassed, rfl⟩
      · rintro ⟨hfits, hpassed, rfl⟩
        exact ⟨hpassed, hfits.names, rfl⟩

/-- The text of the file at a place. -/
def textAt? (tree : Tree) (place : Path) : Option Text :=
  match tree.get? place with
  | some (.file (.text text)) => some text
  | _ => none

/-- A file that is there has its text. -/
theorem textAt?_of_get {text : Text} (h : tree.get? place = some (.file (.text text))) :
    tree.textAt? place = some text := by
  rw [textAt?, h]

/-- Where nothing is there is no text. -/
theorem textAt?_of_none (h : tree.get? place = none) : tree.textAt? place = none := by
  rw [textAt?, h]

/-- A text that is accepted is that of a file. -/
theorem exists_of_textAt? {accepts : Text → Bool} (h : (tree.textAt? place).any accepts = true) :
    ∃ text, tree.get? place = some (.file (.text text)) ∧ accepts text = true := by
  unfold textAt? at h
  split at h
  · next text hget => exact ⟨text, hget, h⟩
  · cases h

/-- A path that does not lead anywhere because of what is missing. -/
theorem find_eq_missing (hfits : path.Fits)
    (h : ∀ passed ∈ path.passed, tree.get? passed = none ∨ tree.get? passed = some .folder)
    (hne : ∀ place, tree.find path ≠ .ok place) : tree.find path = .error .missing := by
  have hfollow : ∀ here names, (∀ name ∈ names, byteCount name ≤ nameLimit) →
      (∀ passed ∈ Path.passedFrom here names,
        tree.get? passed = none ∨ tree.get? passed = some .folder) →
      (∀ place, tree.follow here names ≠ .ok place) → tree.follow here names = .error .missing := by
    intro here names
    induction names generalizing here with
    | nil =>
        intro _ _ hne
        exact absurd rfl (hne here)
    | cons name rest ih =>
        intro hnames hpassed hne
        have hshort := hnames name (by simp)
        rcases hpassed here (by simp [Path.passedFrom]) with hget | hget
        · simp [follow, hget]
        · simp only [follow, hget, Nat.not_lt.2 hshort, if_false] at hne ⊢
          exact ih _ (fun n hn => hnames n (by simp [hn]))
            (fun p hp => hpassed p (by simp [Path.passedFrom, hp])) hne
  have hzero := hfits.noZero
  have hsize := Nat.not_lt.2 hfits.size
  simp only [find, hzero, hsize, if_false, Bool.false_eq_true] at hne ⊢
  exact hfollow [] path hfits.names h hne

/-! ## Trees above one another -/

/-- All folders of the tree are folders of the other one, and its files are files there. -/
structure Below (tree other : Tree) : Prop where
  folder : ∀ place, tree.get? place = some .folder → other.get? place = some .folder
  file : ∀ place content, tree.get? place = some (.file content) →
    ∃ content', other.get? place = some (.file content')

/-- A tree is below itself. -/
theorem Below.refl (tree : Tree) : tree.Below tree :=
  ⟨fun _ h => h, fun _ content h => ⟨content, h⟩⟩

/-- Being below is passed on. -/
theorem Below.trans {third : Tree} (h : tree.Below other) (h' : other.Below third) :
    tree.Below third where
  folder place hp := h'.folder place (h.folder place hp)
  file place content hp := by
    obtain ⟨content', hc⟩ := h.file place content hp
    exact h'.file place content' hc

/-- A path that is found is found in every tree above, at the same place. -/
theorem Below.find (h : tree.Below other) (hfind : tree.find path = .ok place) :
    other.find path = .ok place := by
  rw [find_eq_ok_iff] at hfind ⊢
  exact ⟨hfind.1, fun p hp => h.folder p (hfind.2.1 p hp), hfind.2.2⟩

/-- Where the tree has an entry, it is of the kind that the other one has there. -/
theorem Below.none_or_folder (h : tree.Below other) (hp : other.get? place = some .folder) :
    tree.get? place = none ∨ tree.get? place = some .folder := by
  cases hget : tree.get? place with
  | none => exact .inl rfl
  | some entry =>
      cases entry with
      | folder => exact .inr rfl
      | file content =>
          obtain ⟨content', hc⟩ := h.file place content hget
          rw [hp] at hc
          cases hc

/-- A file above is no folder below. -/
theorem Below.ne_folder {content : Content} (h : tree.Below other)
    (hp : other.get? place = some (.file content)) : tree.get? place ≠ some .folder := by
  intro hfolder
  rw [h.folder place hfolder] at hp
  cases hp

/-- Every entry stands in a folder. -/
def Sound (tree : Tree) : Prop :=
  ∀ place entry, tree.get? place = some entry → tree.get? place.dropLast = some .folder

/-- It is enough that every listed entry stands in a folder. -/
theorem sound_of_entries (h : ∀ entry ∈ tree.entries, tree.get? entry.1.dropLast = some .folder) :
    tree.Sound := by
  intro place entry hget
  cases place with
  | nil => rfl
  | cons name names =>
      obtain ⟨first, last, heq, -⟩ := List.lookup_eq_some_iff.1 hget
      exact h (name :: names, entry) (by simp [heq])

/-- Nothing stands below a place at which nothing stands. -/
theorem Sound.get?_append_eq_none (h : tree.Sound) (hplace : tree.get? place = none)
    (names : Path) : tree.get? (place ++ names) = none := by
  induction names using List.reverseRecOn with
  | nil => simpa using hplace
  | append_singleton names name ih =>
      by_contra hentry
      obtain ⟨entry, hget⟩ := Option.ne_none_iff_exists'.1 hentry
      have := h _ _ hget
      rw [← List.append_assoc, List.dropLast_concat, ih] at this
      cases this

/-- Everything above an entry is a folder. -/
theorem Sound.folder_of_append (h : tree.Sound) {names : Path} {entry : Entry} (hne : names ≠ [])
    (hget : tree.get? (place ++ names) = some entry) : tree.get? place = some .folder := by
  induction names using List.reverseRecOn generalizing entry with
  | nil => exact absurd rfl hne
  | append_singleton names name ih =>
      have habove := h _ _ hget
      rw [← List.append_assoc, List.dropLast_concat] at habove
      by_cases hnil : names = []
      · rwa [hnil, List.append_nil] at habove
      · exact ih hnil habove

/-! ## Questions about a tree -/

/-- A path within the limits is not refused for its size or its characters. -/
theorem find_of_fits (h : path.Fits) :
    tree.find path ≠ .error .tooLong ∧ tree.find path ≠ .error .zeroByte := by
  have hfollow : ∀ here names, (∀ name ∈ names, byteCount name ≤ nameLimit) →
      tree.follow here names ≠ .error .tooLong ∧ tree.follow here names ≠ .error .zeroByte := by
    intro here names
    induction names generalizing here with
    | nil => simp [follow]
    | cons name rest ih =>
        intro hnames
        have hshort := Nat.not_lt.2 (hnames name (by simp))
        rw [follow]
        split
        · simp
        · simp
        · rw [if_neg hshort]
          exact ih _ fun n hn => hnames n (by simp [hn])
  rw [find, h.noZero, if_neg (by simp), if_neg (Nat.not_lt.2 h.size)]
  exact hfollow [] path h.names

/-- A path within the limits can be asked for. -/
theorem look_of_fits (h : path.Fits) :
    tree.look path = .ok (match tree.find path with
      | .ok place => tree.get? place
      | .error _ => none) := by
  obtain ⟨hlong, hzero⟩ := find_of_fits h
  cases hfind : tree.find path with
  | ok place => simp [look, hfind]
  | error obstacle =>
      cases obstacle with
      | tooLong => exact absurd hfind hlong
      | _ => simp [look, hfind]

/-- Within the limits it can be told whether a folder is there. -/
theorem hasFolder_of_fits (h : path.Fits) : ∃ known, tree.hasFolder path = .ok known := by
  rw [hasFolder, look_of_fits h]
  exact ⟨_, rfl⟩

/-- Within the limits it can be told whether something is there. -/
theorem has_of_fits (h : path.Fits) : ∃ known, tree.has path = .ok known := by
  rw [has, look_of_fits h]
  exact ⟨_, rfl⟩

/-- Looking at a path that is found shows what stands at its place. -/
theorem look_of_find (h : tree.find path = .ok place) : tree.look path = .ok (tree.get? place) := by
  simp [look, h]

/-- At a path that is found there is something exactly if its place is taken. -/
theorem has_of_find (h : tree.find path = .ok place) :
    tree.has path = .ok (tree.get? place).isSome := by
  simp [has, look_of_find h, Except.map]

/-- At a path that is found there is a folder exactly if one stands at its place. -/
theorem hasFolder_of_find (h : tree.find path = .ok place) :
    tree.hasFolder path = .ok (tree.get? place == some .folder) := by
  simp [hasFolder, look_of_find h, Except.map]

/-- Something is there exactly if the path is found and its place is taken. -/
theorem has_eq_true_iff :
    tree.has path = .ok true ↔
      tree.find path = .ok path.resolve ∧ (tree.get? path.resolve).isSome = true := by
  cases hfind : tree.find path with
  | ok place =>
      obtain rfl := (find_eq_ok_iff.1 hfind).2.2
      simp [has_of_find hfind]
  | error obstacle => cases obstacle <;> simp [has, look, hfind, Except.map]

/-- A folder is there exactly if the path is found and one stands at its place. -/
theorem hasFolder_eq_true_iff :
    tree.hasFolder path = .ok true ↔
      tree.find path = .ok path.resolve ∧ tree.get? path.resolve = some .folder := by
  cases hfind : tree.find path with
  | ok place =>
      obtain rfl := (find_eq_ok_iff.1 hfind).2.2
      simp [hasFolder_of_find hfind]
  | error obstacle => cases obstacle <;> simp [hasFolder, look, hfind, Except.map]

/-- What is there is there in every tree above. -/
theorem Below.has (h : tree.Below other) (hhas : tree.has path = .ok true) :
    other.has path = .ok true := by
  rw [has_eq_true_iff] at hhas ⊢
  refine ⟨h.find hhas.1, ?_⟩
  obtain ⟨entry, hentry⟩ := Option.isSome_iff_exists.1 hhas.2
  cases entry with
  | folder => rw [h.folder _ hentry, Option.isSome_some]
  | file content =>
      obtain ⟨content', hcontent⟩ := h.file _ content hentry
      rw [hcontent, Option.isSome_some]

end Tree

end Scaffold
