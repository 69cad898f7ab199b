import Scaffold.Tree.Work

/-!
# Running work

What the steps of `Work` answer and leave on the desk when they run, and how a run of several steps
falls apart into runs of its steps.
-/

namespace Scaffold

namespace Work

variable {ε δ α β : Type} {desk desk' : Desk}

/-- The result of some work and the desk that it leaves. -/
def runOn (work : Work ε α) (desk : Desk) : Except ε α × Desk := work.run desk

/-- Work goes on from the desk that its first part leaves, unless that part has failed. -/
theorem runOn_bind (work : Work ε α) (next : α → Work ε β) (desk : Desk) :
    (work >>= next).runOn desk = match work.runOn desk with
      | (.ok answer, desk') => (next answer).runOn desk'
      | (.error error, desk') => (.error error, desk') := by
  show ExceptT.bind work next desk = _
  simp only [runOn, ExceptT.bind, ExceptT.mk, bind, StateT.bind, ExceptT.run]
  rcases work desk with ⟨result, desk'⟩
  cases result <;> rfl

/-- Work in two parts returns exactly if the first part returns and then the second. -/
theorem runOn_bind_eq_ok {work : Work ε α} {next : α → Work ε β} {answer : β} :
    (work >>= next).runOn desk = (.ok answer, desk') ↔
      ∃ first middle, work.runOn desk = (.ok first, middle) ∧
        (next first).runOn middle = (.ok answer, desk') := by
  rw [runOn_bind]
  rcases work.runOn desk with ⟨result, middle⟩
  cases result with
  | ok first =>
      constructor
      · intro h
        exact ⟨first, middle, rfl, h⟩
      · rintro ⟨first', middle', h, hnext⟩
        cases h
        exact hnext
  | error error => simp

/-- Behind a first part that returns, the rest of the work is all that is left to run. -/
theorem runOn_bind_of_ok {work : Work ε α} {next : α → Work ε β} {first : α}
    (h : work.runOn desk = (.ok first, desk')) :
    (work >>= next).runOn desk = (next first).runOn desk' := by
  rw [runOn_bind, h]

/-- An answer alone leaves the desk. -/
@[simp] theorem runOn_pure (answer : α) (desk : Desk) :
    (pure answer : Work ε α).runOn desk = (.ok answer, desk) := rfl

/-- An error alone leaves the desk. -/
@[simp] theorem runOn_throw (error : ε) (desk : Desk) :
    (throw error : Work ε α).runOn desk = (.error error, desk) := rfl

/-- Looking at the tree leaves the desk. -/
@[simp] theorem runOn_tree (desk : Desk) : (tree : Work ε Tree).runOn desk = (.ok desk.tree, desk) := rfl

/-- What is said goes onto the desk as a line. -/
@[simp] theorem runOn_say (text : Text) (desk : Desk) :
    (say text : Work ε Unit).runOn desk = (.ok (), desk.tell (text ++ ['\n'])) := rfl

/-- A warning goes onto the desk as a line. -/
@[simp] theorem runOn_warn (text : Text) (desk : Desk) :
    (warn text : Work ε Unit).runOn desk = (.ok (), desk.warn (text ++ ['\n'])) := rfl

/-- An entry goes into the tree; what has been shown stays. -/
@[simp] theorem runOn_put (path : Path) (entry : Entry) (desk : Desk) :
    (put path entry : Work ε Unit).runOn desk =
      (.ok (), { desk with tree := desk.tree.put path entry }) := rfl

/-- An error is translated. -/
theorem mapError_error (f : ε → δ) (e : ε) :
    (Except.error e : Except ε α).mapError f = .error (f e) := rfl

/-- An answer needs no translation. -/
theorem mapError_ok (f : ε → δ) (answer : α) :
    (Except.ok answer : Except ε α).mapError f = .ok answer := rfl

/-- Translating the errors of some work changes nothing else about its run. -/
theorem runOn_adapt (f : ε → δ) (work : Work ε α) (desk : Desk) :
    runOn (ExceptT.adapt f work : Work δ α) desk =
      ((work.runOn desk).1.mapError f, (work.runOn desk).2) := by
  rfl

/-- Work whose errors are translated returns exactly when the work itself does. -/
theorem runOn_adapt_eq_ok {f : ε → δ} {work : Work ε α} {answer : α} :
    runOn (ExceptT.adapt f work : Work δ α) desk = (.ok answer, desk') ↔
      work.runOn desk = (.ok answer, desk') := by
  rw [runOn_adapt]
  rcases work.runOn desk with ⟨result, middle⟩
  cases result with
  | error e => simp [mapError_error]
  | ok answer => simp [mapError_ok]

end Work

variable {α : Type} {desk : Desk}

/-- A question about the tree is answered, or its error reported, without touching the desk. -/
theorem runOn_ask (question : Tree → Except FileError α) (desk : Desk) :
    (ask question).runOn desk = ((question desk.tree).mapError .file, desk) := by
  -- the tree is looked up first, which always succeeds
  rw [ask, Work.runOn_bind_of_ok (Work.runOn_tree desk)]
  cases question desk.tree <;> rfl

/-- A question that has an answer gets it. -/
theorem runOn_ask_of_ok {question : Tree → Except FileError α} {answer : α}
    (h : question desk.tree = .ok answer) : (ask question).runOn desk = (.ok answer, desk) := by
  rw [runOn_ask, h]
  rfl

/-- Asking returns exactly the answer of the question, on the same desk. -/
theorem runOn_ask_eq_ok {question : Tree → Except FileError α} {answer : α} {desk' : Desk} :
    (ask question).runOn desk = (.ok answer, desk') ↔
      question desk.tree = .ok answer ∧ desk' = desk := by
  rw [runOn_ask]
  cases question desk.tree with
  | error e => simp [Work.mapError_error]
  | ok found => simp [Work.mapError_ok, eq_comm]

/-- Reading a file answers what the tree holds there and leaves the desk. -/
theorem runOn_readText (path : Path) (desk : Desk) :
    (readText path).runOn desk = (desk.tree.readText path, desk) := by
  rw [readText, Work.runOn_bind_of_ok (Work.runOn_tree desk)]
  cases desk.tree.readText path <;> rfl

/-- Reading returns exactly the text that the tree holds, on the same desk. -/
theorem runOn_readText_eq_ok {path : Path} {text : Text} {desk' : Desk} :
    (readText path).runOn desk = (.ok text, desk') ↔
      desk.tree.readText path = .ok text ∧ desk' = desk := by
  rw [runOn_readText]
  simp [eq_comm]

/-- What is said is not in the tree. -/
@[simp] theorem Desk.tree_tell (desk : Desk) (text : Text) : (desk.tell text).tree = desk.tree := rfl

/-- What is warned of is not in the tree. -/
@[simp] theorem Desk.tree_warn (desk : Desk) (text : Text) : (desk.warn text).tree = desk.tree := rfl

/-- Whether a run returns. -/
def returns {ε α : Type} (answer : Except ε α × Desk) : Bool := answer.1.isOk

/-- A run that returns has an answer. -/
theorem exists_of_returns {ε α : Type} {answer : Except ε α × Desk} (h : returns answer = true) :
    ∃ result desk, answer = (.ok result, desk) := by
  obtain ⟨result, desk⟩ := answer
  cases result with
  | ok result => exact ⟨result, desk, rfl⟩
  | error error => cases h

end Scaffold
