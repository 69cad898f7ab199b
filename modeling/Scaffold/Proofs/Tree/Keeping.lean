import Scaffold.Proofs.Tree.Making

/-!
# What work keeps

Work keeps a property of trees if every run of it leaves a tree with the property when it starts
from one, a run that fails included. Making folders touches no file, and writing a text touches only
the place of its path (`Work.Keeps.makeFolders`, `Work.Keeps.writeText`). `Work.Answers` says what is
true of everything that work answers.
-/

namespace Scaffold

/-- Each run leaves a tree with the property if it starts from one. -/
def Work.Keeps {ε α : Type} (holds : Tree → Prop) (work : Work ε α) : Prop :=
  ∀ desk : Desk, holds desk.tree → holds (work.runOn desk).2.tree

/-- The file at the place, if there is one, is a text of the given kind. -/
def Tree.Bears (accepts : Text → Prop) (place : Path) (tree : Tree) : Prop :=
  ∀ content, tree.get? place = some (.file content) → ∃ text, content = .text text ∧ accepts text

namespace Tree.Bears

variable {accepts : Text → Prop} {place other : Path} {tree : Tree} {text : Text}

theorem put_folder (h : tree.Bears accepts place) (other : Path) :
    (tree.put other .folder).Bears accepts place := by
  intro content hget
  by_cases hplace : place = other
  · subst hplace
    by_cases hne : place = []
    · subst hne
      exact h content hget
    · rw [get?_put_self hne] at hget
      cases hget
  · rw [get?_put_of_ne hplace] at hget
    exact h content hget

theorem put_text (h : tree.Bears accepts place) (htext : other = place → accepts text) :
    (tree.put other (.file (.text text))).Bears accepts place := by
  intro content hget
  by_cases hplace : place = other
  · subst hplace
    by_cases hne : place = []
    · subst hne
      exact h content hget
    · rw [get?_put_self hne] at hget
      cases hget
      exact ⟨text, rfl, htext rfl⟩
  · rw [get?_put_of_ne hplace] at hget
    exact h content hget

end Tree.Bears

namespace Work.Keeps

variable {ε δ α β : Type} {holds : Tree → Prop}

theorem pure (answer : α) : Work.Keeps holds (Pure.pure answer : Work ε α) := fun _ h => h

theorem throw (error : ε) : Work.Keeps holds (MonadExcept.throw error : Work ε α) := fun _ h => h

theorem say (text : Text) : Work.Keeps holds (Work.say text : Work ε Unit) := fun _ h => h

theorem warn (text : Text) : Work.Keeps holds (Work.warn text : Work ε Unit) := fun _ h => h

theorem ask (question : Tree → Except FileError α) : Work.Keeps holds (Scaffold.ask question) := by
  intro desk h
  rwa [runOn_ask]

theorem ask_bind {question : Tree → Except FileError α} {next : α → Work WorkError β}
    (hnext : ∀ tree answer, holds tree → question tree = .ok answer → (next answer).Keeps holds) :
    (Scaffold.ask question >>= next).Keeps holds := by
  intro desk hdesk
  rw [runOn_bind, runOn_ask]
  cases hanswer : question desk.tree with
  | error error => exact hdesk
  | ok answer => exact hnext desk.tree answer hdesk hanswer desk hdesk

theorem bind {work : Work ε α} {next : α → Work ε β} (h : work.Keeps holds)
    (hnext : ∀ answer, (next answer).Keeps holds) : (work >>= next).Keeps holds := by
  intro desk hdesk
  have hfirst := h desk hdesk
  rw [runOn_bind]
  split
  · next answer middle hrun =>
    rw [hrun] at hfirst
    exact hnext answer middle hfirst
  · next error middle hrun => rwa [hrun] at hfirst

theorem adapt {work : Work ε α} (h : work.Keeps holds) (f : ε → δ) :
    Work.Keeps holds (ExceptT.adapt f work : Work δ α) := by
  intro desk hdesk
  rw [runOn_adapt]
  exact h desk hdesk

theorem forM {items : List α} {step : α → Work ε PUnit} (h : ∀ item ∈ items, (step item).Keeps holds) :
    Work.Keeps holds (items.forM step) := by
  induction items with
  | nil => exact pure _
  | cons item items ih =>
      exact bind (h item List.mem_cons_self) fun _ =>
        ih fun other hother => h other (List.mem_cons_of_mem _ hother)

theorem mapM {items : List α} {step : α → Work ε β} (h : ∀ item ∈ items, (step item).Keeps holds) :
    Work.Keeps holds (items.mapM step) := by
  induction items with
  | nil => exact pure _
  | cons item items ih =>
      rw [List.mapM_cons]
      exact bind (h item List.mem_cons_self) fun _ =>
        bind (ih fun other hother => h other (List.mem_cons_of_mem _ hother)) fun _ => pure _

/-- What is done with a text may rely on where it was read. -/
theorem readText_bind {path : Path} {next : Text → Work WorkError β}
    (hnext : ∀ tree text, holds tree → tree.readText path = .ok text → (next text).Keeps holds) :
    (Scaffold.readText path >>= next).Keeps holds := by
  intro desk hdesk
  rw [runOn_bind, runOn_readText]
  cases hread : desk.tree.readText path with
  | error error => exact hdesk
  | ok text => exact hnext desk.tree text hdesk hread desk hdesk

/-- Making a folder keeps what a folder does not change where nothing stands. -/
theorem makeLast {path : Path} (hfolder : ∀ tree, holds tree → tree.find path = .ok path.resolve →
      tree.get? path.resolve = none → holds (tree.put path.resolve .folder)) :
    (Scaffold.makeLast path).Keeps holds := by
  intro desk hdesk
  unfold Scaffold.makeLast
  rw [runOn_bind_of_ok (runOn_tree desk)]
  unfold Tree.makeFolder
  split
  · next tree hmade =>
    split at hmade
    · cases hmade
    · next place hfind =>
      obtain rfl := (Tree.find_eq_ok_iff.1 hfind).2.2
      split at hmade
      · cases hmade
      · next hnone =>
        cases hmade
        exact hfolder _ hdesk hfind (by simpa using hnone)
  · rw [runOn_bind_of_ok (runOn_tree desk)]
    split
    · exact hdesk
    · exact hdesk
  · exact hdesk

/-- Making folders keeps what making each one on the way keeps. -/
theorem makeFolders_of_makeLast {path : Path}
    (hlast : ∀ first, first <+: path → (Scaffold.makeLast first).Keeps holds) :
    (Scaffold.makeFolders path).Keeps holds := by
  have hreversed : ∀ reversed : Path, reversed <:+ path.reverse →
      (makeReversed reversed).Keeps holds := by
    intro reversed hsuffix
    have hstep : ∀ names : Path, names <:+ path.reverse → (Scaffold.makeLast names.reverse).Keeps holds :=
      fun names hnames => hlast _ (by simpa using List.reverse_prefix.2 hnames)
    induction reversed with
    | nil => exact hstep [] hsuffix
    | cons name above ih =>
        intro desk hdesk
        unfold makeReversed
        rw [runOn_bind_of_ok (runOn_tree desk)]
        split
        · exact bind (ih ((List.suffix_cons name above).trans hsuffix)) (fun _ => hstep _ hsuffix)
            desk hdesk
        · exact hstep _ hsuffix desk hdesk
  exact hreversed _ (List.suffix_refl _)

/-- Making folders keeps what folders do not change. -/
theorem makeFolders (hfolder : ∀ tree place, holds tree → holds (tree.put place .folder))
    (path : Path) : (Scaffold.makeFolders path).Keeps holds :=
  makeFolders_of_makeLast fun _ _ => makeLast fun tree h _ _ => hfolder tree _ h

/-- Writing a text keeps what that text does not change where it can be written. -/
theorem writeText_of_find {path : Path} {text : Text}
    (htext : ∀ tree, holds tree → tree.find path = .ok path.resolve →
      tree.get? path.resolve ≠ some .folder → holds (tree.put path.resolve (.file (.text text)))) :
    (Scaffold.writeText path text).Keeps holds := by
  intro desk hdesk
  unfold Scaffold.writeText
  rw [runOn_bind_of_ok (runOn_tree desk)]
  split
  · exact hdesk
  · next place hfind =>
    obtain rfl := (Tree.find_eq_ok_iff.1 hfind).2.2
    split
    · exact hdesk
    · next hget => exact htext _ hdesk hfind hget

/-- Writing a text keeps what that text at its place does not change. -/
theorem writeText {path : Path} {text : Text}
    (htext : ∀ tree, holds tree → holds (tree.put path.resolve (.file (.text text)))) :
    (Scaffold.writeText path text).Keeps holds :=
  writeText_of_find fun tree h _ _ => htext tree h

/-! ## What making items keeps -/

section

variable (hmakes : ∀ {tree other : Tree} {item : Item}, holds tree → tree.Makes [item] other →
  holds other)

include hmakes

theorem makeLast_of_makes (path : Path) : (Scaffold.makeLast path).Keeps holds := by
  refine makeLast fun tree htree hfind hget => ?_
  have hmade : tree.Makes [.folder path] (tree.put path.resolve .folder) :=
    Tree.makes_put hfind (fun _ => hget) fun h => absurd rfl h
  exact hmakes htree hmade

theorem writeText_of_makes (path : Path) (text : Text) :
    (Scaffold.writeText path text).Keeps holds := by
  refine writeText_of_find fun tree htree hfind hget => ?_
  have hmade : tree.Makes [.file path text] (tree.put path.resolve (.file (.text text))) :=
    Tree.makes_put hfind (fun hentry => absurd hentry (by simp [Item.entry])) fun _ => hget
  exact hmakes htree hmade

end

end Work.Keeps

/-! ## What work answers -/

/-- Each answer has a property. -/
def Work.Answers {ε α : Type} (holds : α → Prop) (work : Work ε α) : Prop :=
  ∀ desk answer, (work.runOn desk).1 = .ok answer → holds answer

namespace Work.Answers

variable {ε δ α β : Type}

/-- The answer of the first step may be relied on in what follows. -/
theorem bind_of {first : α → Prop} {holds : β → Prop} {work : Work ε α} {next : α → Work ε β}
    (h : work.Answers first) (hnext : ∀ answer, first answer → (next answer).Answers holds) :
    (work >>= next).Answers holds := by
  intro desk answer
  have hfirst := h desk
  rw [runOn_bind]
  rcases hrun : work.runOn desk with ⟨result, desk'⟩
  cases result with
  | error error => exact fun h => nomatch h
  | ok middle => exact hnext middle (hfirst middle (by rw [hrun])) desk' answer

theorem bind {holds : β → Prop} {work : Work ε α} {next : α → Work ε β}
    (hnext : ∀ answer, (next answer).Answers holds) : (work >>= next).Answers holds :=
  bind_of (show work.Answers fun _ => True from fun _ _ _ => trivial) fun answer _ => hnext answer

/-- What follows a question may rely on its answer. -/
theorem ask_bind {holds : β → Prop} {question : Tree → Except FileError α}
    {next : α → Work WorkError β}
    (hnext : ∀ tree answer, question tree = .ok answer → (next answer).Answers holds) :
    (ask question >>= next).Answers holds := by
  have hask : (ask question).Answers fun answer => ∃ tree, question tree = .ok answer := by
    intro desk answer hanswer
    rw [runOn_ask] at hanswer
    cases hfound : question desk.tree with
    | error error => rw [hfound] at hanswer; cases hanswer
    | ok found =>
        rw [hfound] at hanswer
        cases hanswer
        exact ⟨desk.tree, hfound⟩
  exact bind_of hask fun answer ⟨tree, hanswer⟩ => hnext tree answer hanswer

theorem pure {holds : α → Prop} {answer : α} (h : holds answer) :
    (Pure.pure answer : Work ε α).Answers holds := by
  intro desk other hanswer
  cases hanswer
  exact h

theorem adapt {holds : α → Prop} {work : Work δ α} (h : work.Answers holds) (f : δ → ε) :
    Work.Answers holds (ExceptT.adapt f work : Work ε α) := by
  intro desk answer hanswer
  rw [runOn_adapt] at hanswer
  refine h desk answer ?_
  cases hrun : (work.runOn desk).1 with
  | error error => rw [hrun] at hanswer; cases hanswer
  | ok other =>
      rw [hrun] at hanswer
      cases hanswer
      rfl

theorem mono {holds weaker : α → Prop} {work : Work ε α} (h : work.Answers holds)
    (hweaker : ∀ answer, holds answer → weaker answer) : work.Answers weaker :=
  fun desk answer hanswer => hweaker answer (h desk answer hanswer)

/-- Each answer of several steps comes from one of them. -/
theorem mapM {items : List α} {step : α → Work ε β} {holds : α → β → Prop}
    (h : ∀ item ∈ items, (step item).Answers (holds item)) :
    Work.Answers (fun answers => ∀ answer ∈ answers, ∃ item ∈ items, holds item answer)
      (items.mapM step) := by
  induction items with
  | nil => exact pure fun answer hanswer => nomatch hanswer
  | cons item items ih =>
      rw [List.mapM_cons]
      refine bind_of (h item List.mem_cons_self) fun first hfirst =>
        bind_of (ih fun other hother => h other (List.mem_cons_of_mem _ hother)) fun rest hrest =>
          pure fun answer hanswer => ?_
      rcases List.mem_cons.1 hanswer with rfl | hanswer
      · exact ⟨item, List.mem_cons_self, hfirst⟩
      · obtain ⟨other, hother, hholds⟩ := hrest answer hanswer
        exact ⟨other, List.mem_cons_of_mem _ hother, hholds⟩

end Work.Answers

end Scaffold
