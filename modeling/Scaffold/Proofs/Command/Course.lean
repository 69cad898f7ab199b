import Scaffold.Command.Run
import Scaffold.Proofs.Tree.Run

/-!
# Commands in one go

The course of a command is one piece of work: it gets the line that answers the question of the
command with it, and fails with an error that has not been put into words. `answer_runCommand` says
that running a command line comes to the end of its course.
-/

namespace Scaffold

/-- Why a command fails. -/
inductive CommandError
  | load (error : LoadError)
  | run (error : RunError)
  | aborted

/-- The words for an error. -/
def CommandError.failure : CommandError → Failure
  | load error => .reported error.report
  | run error => .reported error.report
  | aborted => .aborted

/-- What a command that does not fail has done: `explained` is the listing that says how the command
is used. -/
inductive CommandEnd
  | listed
  | explained
  | generated (outcome : Outcome)
  | served (host : Text) (port : Int)

/-- The status of an end. -/
def CommandEnd.status : CommandEnd → Status
  | served host port => ⟨0, some (host, port)⟩
  | _ => ⟨0, none⟩

namespace Course

/-- Loads the project of a configuration. -/
def load (config : Config) : Work CommandError Project := do
  match loadProject config (← Work.tree) with
  | .ok project => return project
  | .error error => throw (.load error)

/-- Shows lines. -/
def say (lines : List Text) : Work CommandError Unit := lines.forM Work.say

/-- Lists the endpoints of a project. -/
def list (config : Config) : Work CommandError Unit := do
  say (← load config).catalog.listing

/-- Whether a feature is there. -/
def look (config : Config) (name : Text) : Work CommandError Bool :=
  (ask (config.featureExists name)).adapt fun error => .run (.work error)

/-- Checks a request to generate a feature, up to the question about one that is there. -/
def prepare (config : Config) (name indices : Text) (action : Option ExistsAction) :
    Work CommandError Plan := do
  let project ← load config
  if name.isEmpty || indices.isEmpty then
    say (usageLines ++ [[]] ++ project.catalog.listing)
    return .nothing
  match acceptRequest config project.catalog name indices with
  | .error error => throw (.run (.selection error))
  | .ok endpoints =>
    say (selectedLines endpoints)
    let job : Job := ⟨config, project.name, name, endpoints⟩
    match action with
    | some action => return .decided job action
    | none =>
      if !(← look config name) then return .decided job .append
      say (questionLines job)
      return .undecided job

/-- Generates the feature and says what comes next. -/
def run (job : Job) (action : ExistsAction) : Work CommandError Outcome := do
  let outcome ← (generate job.config job.project job.name job.endpoints {} action).adapt .run
  if outcome.nothingToDo || outcome.cancelled then return outcome
  if !outcome.warnings.isEmpty then Work.warn (skippedLine outcome.warnings)
  say nextStepLines
  return outcome

/-- Asks what becomes of a feature that is there, and goes on with the line of the user. -/
def question (job : Job) : (line : Option Text) → Work CommandError Outcome
  | none => do
    modify (·.tell questionPrompt)
    throw .aborted
  | some line => do
    modify (·.tell questionPrompt)
    modify (·.echo (line ++ ['\n']))
    run job (chosenAction line)

/-- Carries out a plan. -/
def carryOut (line : Option Text) : Plan → Work CommandError CommandEnd
  | .nothing => return .explained
  | .decided job action => return .generated (← run job action)
  | .undecided job => return .generated (← question job line)

/-- Says where the form is found. -/
def announce (config : Config) (host : Text) (port : Int) : Work CommandError Unit := do
  let _ ← load config
  Work.say ("Open your browser at http://" ++ host ++ ":" ++ Text.ofInt port)

/-- The course of a command whose question, if it asks one, is answered with `line`. -/
def ofCommand (config : Config) (line : Option Text) : Command → Work CommandError CommandEnd
  | .list => do
    list config
    return .listed
  | .generate name indices action => do carryOut line (← prepare config name indices action)
  | .serve host port => do
    announce config host port
    return .served host port

/-- The end of a course: an error is put into words. -/
def finish (course : Work CommandError CommandEnd) (desk : Desk) : Desk × Status :=
  match course.runOn desk with
  | (.ok ending, desk) => (desk, ending.status)
  | (.error error, desk) => (desk.warn (error.failure.message ++ ['\n']), ⟨1, none⟩)

end Course

/-- The course that arguments stand for, none if they are not understood. -/
def Course.ofArguments? (here : Path) (environment : Environment) (arguments : List Text)
    (line : Option Text) (tree : Tree) : Option (Work CommandError CommandEnd) := do
  let invocation ← Invocation.ofArguments? environment arguments
  if invocation.place.mayBeFolder here tree then
    some (ofCommand (invocation.place.config here) line invocation.command)
  else none

/-! ## Errors in words -/

/-- The same work, its errors put into words. -/
def Work.worded {α : Type} (work : Work CommandError α) : Work Failure α :=
  ExceptT.adapt CommandError.failure work

namespace Work

variable {α β : Type} {desk : Desk}

/-- Words for errors change nothing else about a run. -/
theorem runOn_worded (work : Work CommandError α) (desk : Desk) :
    work.worded.runOn desk = ((work.runOn desk).1.mapError CommandError.failure, (work.runOn desk).2) :=
  runOn_adapt _ _ _

/-- Work in two parts is put into words part by part. -/
theorem worded_bind (work : Work CommandError α) (next : α → Work CommandError β) :
    (work >>= next).worded = work.worded >>= fun answer => (next answer).worded := by
  funext desk
  show (work >>= next).worded.runOn desk = (work.worded >>= fun answer => (next answer).worded).runOn desk
  rw [runOn_worded, runOn_bind, runOn_bind, runOn_worded]
  rcases work.runOn desk with ⟨result, desk'⟩
  cases result with
  | ok answer => exact (runOn_worded (next answer) desk').symm
  | error error => rfl

/-- An answer needs no words. -/
theorem worded_pure (answer : α) : (pure answer : Work CommandError α).worded = pure answer := rfl

/-- Errors that are translated and then put into words are translated once. -/
theorem worded_adapt {δ : Type} (f : δ → CommandError) (work : Work δ α) :
    Work.worded (ExceptT.adapt f work) = ExceptT.adapt (fun error => (f error).failure) work := by
  funext desk
  show Work.runOn (Work.worded _) desk = ((work.runOn desk).1.mapError _, (work.runOn desk).2)
  rw [runOn_worded, runOn_adapt]
  cases (work.runOn desk).1 <;> rfl

/-- A warning cannot fail. -/
theorem worded_warn (text : Text) : (warn text : Work CommandError Unit).worded = warn text := rfl

/-- Lines are shown one by one, with or without words for errors. -/
theorem worded_say (lines : List Text) : (Course.say lines).worded = sayLines lines := by
  induction lines with
  | nil => rfl
  | cons first rest ih =>
      show (Work.say first >>= fun _ => Course.say rest).worded = Work.say first >>= fun _ => sayLines rest
      rw [worded_bind, ih]
      rfl

/-- Work ends with status zero, or with a warning and status one. -/
theorem conclude_eq (work : Work Failure Unit) (desk : Desk) :
    conclude work desk = (match work.runOn desk with
      | (.ok (), desk') => (desk', ⟨0, none⟩)
      | (.error failure, desk') => (desk'.warn (failure.message ++ ['\n']), ⟨1, none⟩) :
        Desk × Status) := rfl

/-- A piece of work is at its end where its course is that ends with `ending`. -/
theorem conclude_worded {work : Work CommandError α} {ending : α → CommandEnd}
    (h : ∀ answer, (ending answer).status = ⟨0, none⟩) (desk : Desk) :
    conclude (work.worded >>= fun _ => pure ()) desk =
      Course.finish (work >>= fun answer => pure (ending answer)) desk := by
  rw [conclude_eq, Course.finish, runOn_bind, runOn_bind, runOn_worded]
  rcases work.runOn desk with ⟨result, desk'⟩
  cases result with
  | ok answer =>
      show (desk', (⟨0, none⟩ : Status)) = (desk', (ending answer).status)
      rw [h]
  | error error => rfl

end Work

namespace Course

variable (config : Config) (name indices : Text) (job : Job)

/-- Loading a project, with words for errors, is the first step of the commands. -/
theorem worded_load : (load config).worded = loadConfigured config := by
  funext desk
  show (load config).worded.runOn desk = (loadConfigured config).runOn desk
  rw [Work.runOn_worded, load, loadConfigured, Work.runOn_bind_of_ok (Work.runOn_tree desk),
    Work.runOn_bind_of_ok (Work.runOn_tree desk)]
  cases loadProject config desk.tree <;> rfl

/-- Looking for a feature, with words for errors, is what a command does. -/
theorem worded_look : (look config name).worded = lookForFeature config name := Work.worded_adapt _ _

/-- Listing, with words for errors, is what the command for it does. -/
theorem worded_list : (list config).worded = runList config := by
  simp only [list, runList, Work.worded_bind, worded_load, Work.worded_say]

/-- Announcing the form, with words for errors, is what the command for it does. -/
theorem worded_announce (host : Text) (port : Int) :
    (announce config host port).worded = Scaffold.announce config host port := by
  rw [announce, Work.worded_bind, worded_load]
  rfl

/-- Preparing a generation, with words for errors, is what the command for it does. The cases are
those of the request: no name or no numbers, a refused one, and an accepted one. -/
theorem worded_prepare (action : Option ExistsAction) :
    (prepare config name indices action).worded = Scaffold.prepare config name indices action := by
  rw [prepare, Scaffold.prepare, Work.worded_bind, worded_load]
  congr 1
  funext project
  split
  -- without a name or numbers the command is explained
  · rw [Work.worded_bind, Work.worded_say]
    rfl
  · cases acceptRequest config project.catalog name indices with
    | error error => rfl
    | ok endpoints =>
        simp only [Work.worded_bind, Work.worded_say]
        congr 1
        funext _
        cases action with
        | some action => rfl
        | none =>
            -- whether there is a question depends on the feature
            simp only [Work.worded_bind, worded_look]
            congr 1
            funext known
            cases known with
            | false => rfl
            | true =>
                simp only [Bool.not_true, Bool.false_eq_true, if_false, Work.worded_bind, Work.worded_say]
                rfl

/-- Generating, with words for errors, is what a job does. -/
theorem worded_run (action : ExistsAction) :
    (run job action).worded >>= (fun _ => pure ()) = job.run action := by
  rw [run, Job.run, Work.worded_bind, Work.worded_adapt, bind_assoc]
  congr 1
  funext outcome
  split
  · rfl
  · have hnext : Work.worded (do say nextStepLines; return outcome) >>= (fun _ => pure ()) =
        sayLines nextStepLines := by
      rw [Work.worded_bind, Work.worded_say, Work.worded_pure]
      rfl
    dsimp only
    split
    · rw [Work.worded_bind, Work.worded_warn, bind_assoc, hnext]
    · exact hnext

end Course

variable {config : Config} {name indices : Text} {action : Option ExistsAction} {line : Option Text}

/-- A job that is decided comes to the end of its course. -/
theorem Job.conclude_run (job : Job) (action : ExistsAction) (line : Option Text) (desk : Desk) :
    (job.run action).conclude desk =
      Course.finish (Course.carryOut line (.decided job action)) desk := by
  rw [← Course.worded_run]
  exact Work.conclude_worded (fun _ => rfl) desk

/-- A job that waits for a line comes to the end of its course with it. -/
theorem Job.resume_eq (job : Job) (desk : Desk) :
    job.resume (desk.tell questionPrompt) line =
      Course.finish (Course.carryOut line (.undecided job)) desk := by
  cases line with
  | none => rfl
  | some line => exact conclude_run job (chosenAction line) (some line) _

/-- The command that generates comes to the end of its course, with or without a question. -/
theorem answer_runGenerate (desk : Desk) :
    (runGenerate config name indices action desk).answer line =
      Course.finish (Course.ofCommand config line (.generate name indices action)) desk := by
  rw [runGenerate, ← Course.worded_prepare]
  show (match (Course.prepare config name indices action).worded.runOn desk with
    | (.ok .nothing, desk') => Run.finished desk' ⟨0, none⟩
    | (.ok (.decided job action), desk') => .ofWork (job.run action) desk'
    | (.ok (.undecided job), desk') =>
        .asks (desk'.tell questionPrompt) (job.resume (desk'.tell questionPrompt))
    | (.error failure, desk') => .ofWork (throw failure) desk').answer line = _
  rw [Work.runOn_worded, Course.finish, Course.ofCommand, Work.runOn_bind]
  rcases (Course.prepare config name indices action).runOn desk with ⟨result, desk'⟩
  cases result with
  | error error => rfl
  | ok plan =>
      cases plan with
      | nothing => rfl
      | decided job action => exact job.conclude_run action line desk'
      | undecided job => exact job.resume_eq desk'

/-- Work without a question comes to the end of its course. -/
theorem answer_ofWork (work : Work CommandError Unit) {ending : CommandEnd}
    (h : ending.status = ⟨0, none⟩) (desk : Desk) :
    (Run.ofWork work.worded desk).answer line =
      Course.finish (work >>= fun _ => pure ending) desk := by
  have hunit : work.worded >>= (fun _ => pure ()) = work.worded := bind_pure_unit
  show work.worded.conclude desk = _
  rw [← hunit]
  exact Work.conclude_worded (fun _ => h) desk

/-- The command that serves the form comes to the end of its course. -/
theorem answer_runServe (host : Text) (port : Int) (desk : Desk) :
    (runServe config host port desk).answer line =
      Course.finish (Course.ofCommand config line (.serve host port)) desk := by
  rw [runServe, ← Course.worded_announce, Work.conclude_eq, Course.finish, Course.ofCommand,
    Work.runOn_worded, Work.runOn_bind]
  rcases (Course.announce config host port).runOn desk with ⟨result, desk'⟩
  cases result <;> rfl

/-- A run of the command line comes to the end of its course, whatever line answers its question. -/
theorem answer_runCommand (here : Path) (environment : Environment) (arguments : List Text)
    (line : Option Text) (tree : Tree) :
    (runCommand here environment arguments tree).answer line =
      match Course.ofArguments? here environment arguments line tree with
      | none => ((Desk.mk tree []).warn (Text.lines usageLines), ⟨2, none⟩)
      | some course => Course.finish course ⟨tree, []⟩ := by
  unfold runCommand Course.ofArguments?
  cases hinvocation : Invocation.ofArguments? environment arguments with
  | none => rfl
  | some invocation =>
      simp only [Option.bind_eq_bind, Option.bind_some]
      cases hplace : invocation.place.mayBeFolder here tree with
      | false => rfl
      | true =>
          simp only [Bool.not_true, Bool.false_eq_true, if_false, if_true]
          cases invocation.command with
          | list =>
              rw [← Course.worded_list]
              exact answer_ofWork (Course.list _) rfl _
          | generate name indices action => exact answer_runGenerate _
          | serve host port => exact answer_runServe host port _

end Scaffold
