import Scaffold.Proofs.Project.Walk

/-!
# What has been shown

Work does not see what has been shown to the user before it. So a run ends in the same way, with the
same tree, on every desk with the tree that it starts from (`Work.Blind.generate`).
-/

namespace Scaffold

/-- Result and tree of a run depend on the tree alone. -/
def Work.Blind {ε α : Type} (work : Work ε α) : Prop :=
  ∀ desk other : Desk, desk.tree = other.tree →
    (work.runOn desk).1 = (work.runOn other).1 ∧
      (work.runOn desk).2.tree = (work.runOn other).2.tree

namespace Work.Blind

variable {ε δ α β : Type}

/-- An answer alone sees nothing. -/
theorem pure (answer : α) : (Pure.pure answer : Work ε α).Blind := fun _ _ h => ⟨rfl, h⟩

/-- An error alone sees nothing. -/
theorem throw (error : ε) : (MonadExcept.throw error : Work ε α).Blind := fun _ _ h => ⟨rfl, h⟩

/-- Saying something does not see what has been said. -/
theorem say (text : Text) : (Work.say text : Work ε Unit).Blind := fun _ _ h => ⟨rfl, h⟩

/-- Warning does not see what has been said. -/
theorem warn (text : Text) : (Work.warn text : Work ε Unit).Blind := fun _ _ h => ⟨rfl, h⟩

/-- The tree is seen, but not what has been shown. -/
theorem tree : (Work.tree : Work ε Tree).Blind := fun _ _ h => ⟨congrArg Except.ok h, h⟩

/-- Putting an entry into equal trees makes equal trees. -/
theorem put (path : Path) (entry : Entry) : (Work.put path entry : Work ε Unit).Blind :=
  fun _ _ h => ⟨rfl, congrArg (·.put path entry) h⟩

/-- Two parts that see the tree alone make work that does: the second starts from equal trees. -/
theorem bind {work : Work ε α} {next : α → Work ε β} (h : work.Blind)
    (hnext : ∀ answer, (next answer).Blind) : (work >>= next).Blind := by
  intro desk other htree
  obtain ⟨hresult, hafter⟩ := h desk other htree
  rw [runOn_bind, runOn_bind]
  rcases hdesk : work.runOn desk with ⟨result, desk'⟩
  rcases hother : work.runOn other with ⟨result', other'⟩
  rw [hdesk, hother] at hresult hafter
  -- both first parts end alike, so either both runs stop here or both go on from equal trees
  obtain rfl : result = result' := hresult
  cases result with
  | error error => exact ⟨rfl, hafter⟩
  | ok answer => exact hnext answer desk' other' hafter

/-- Translating errors adds nothing to what is seen. -/
theorem adapt {work : Work ε α} (h : work.Blind) (f : ε → δ) :
    Work.Blind (ExceptT.adapt f work : Work δ α) := by
  intro desk other htree
  obtain ⟨hresult, hafter⟩ := h desk other htree
  rw [runOn_adapt, runOn_adapt]
  exact ⟨congrArg (Except.mapError f) hresult, hafter⟩

/-- A question is asked about the tree, so equal trees give one answer. -/
theorem ask_bind {question : Tree → Except FileError α} {next : α → Work WorkError β}
    (hnext : ∀ tree answer, question tree = .ok answer → (next answer).Blind) :
    (ask question >>= next).Blind := by
  intro desk other htree
  rw [runOn_bind, runOn_bind, runOn_ask, runOn_ask, ← htree]
  cases hanswer : question desk.tree with
  | error error => exact ⟨rfl, htree⟩
  | ok answer => exact hnext desk.tree answer hanswer desk other htree

/-- Reading a file sees the tree alone. -/
theorem readText (path : Path) : (Scaffold.readText path).Blind := by
  refine bind tree fun tree => ?_
  split
  · exact pure _
  · exact throw _

/-- Making a folder sees the tree alone. -/
theorem makeLast (path : Path) : (Scaffold.makeLast path).Blind := by
  refine bind tree fun tree => ?_
  split
  · exact fun _ _ _ => ⟨rfl, rfl⟩
  · exact bind Blind.tree fun _ => Law.ite (fun _ => throw _) (pure _)
  · exact throw _

/-- Making folders along a path sees the tree alone. -/
theorem makeFolders (path : Path) : (Scaffold.makeFolders path).Blind := by
  unfold Scaffold.makeFolders
  -- the recursion goes over the names from the last one up
  induction path.reverse with
  | nil => exact makeLast _
  | cons name above ih =>
      refine bind tree fun tree => ?_
      split
      · exact bind ih fun _ => makeLast _
      · exact makeLast _

/-- Writing a file sees the tree alone. -/
theorem writeText (path : Path) (text : Text) : (Scaffold.writeText path text).Blind := by
  refine bind tree fun tree => ?_
  split
  · exact throw _
  · split
    · exact throw _
    · exact put _ _

/-- Not seeing what has been shown is a law. -/
theorem law : Work.Law (fun work => work.Blind) .everything where
  pure := pure
  throw := throw
  say := say
  warn := warn
  bind := bind
  adapt f h := h.adapt f
  ask_bind := ask_bind
  readText := readText
  makeFolders _ := makeFolders _
  writeText text _ := writeText _ text

/-- A run does not see what has been shown before it. -/
theorem generate {config : Config} {project name : Text} {endpoints : List Endpoint}
    {layers : Layers} (action : ExistsAction) :
    (Scaffold.generate config project name endpoints layers action).Blind :=
  law.generate (fun _ _ _ => Reach.everything_includes _) (Reach.everything_includes _) action

end Work.Blind

end Scaffold
