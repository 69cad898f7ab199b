import Scaffold.Form.Server
import Scaffold.Proofs.Command.Course
import Scaffold.Proofs.Project.Steps

/-!
# Declined requests

A generation that is refused, cancelled or has nothing to do leaves the tree as it was. The same is
true of every command that does not get as far as generating, and of every request to the form that
is answered as a bad one (`declined_leaves_tree`).
-/

namespace Scaffold

/-- Whether work was declined: it failed with an error that `refuses`, or its answer is `idle`. -/
def Declined {ε α : Type} (refuses : ε → Bool) (idle : α → Bool) : Except ε α → Bool
  | .ok answer => idle answer
  | .error error => refuses error

/-- Each run that is declined leaves the tree. -/
def Work.Discreet {ε α : Type} (declined : Except ε α → Bool) (work : Work ε α) : Prop :=
  ∀ desk : Desk, declined (work.runOn desk).1 = true → (work.runOn desk).2.tree = desk.tree

/-- No run changes the tree. -/
def Work.Looks {ε α : Type} (work : Work ε α) : Prop := ∀ tree, work.Keeps (· = tree)

namespace Work

variable {ε δ α β : Type} {declined : Except ε β → Bool}

namespace Looks

/-- Work that only looks leaves the tree. -/
theorem runOn {work : Work ε α} (h : work.Looks) (desk : Desk) :
    (work.runOn desk).2.tree = desk.tree := h desk.tree desk rfl

/-- Two parts that only look make work that only looks. -/
theorem bind {work : Work ε α} {next : α → Work ε β} (h : work.Looks)
    (hnext : ∀ answer, (next answer).Looks) : (work >>= next).Looks :=
  fun tree => (h tree).bind fun answer => hnext answer tree

/-- Work that only looks leaves the tree, declined or not. -/
theorem discreet {work : Work ε β} (h : work.Looks) : work.Discreet declined :=
  fun desk _ => h.runOn desk

end Looks

namespace Discreet

/-- Work that changes nothing may go before. -/
theorem bind {work : Work ε α} {next : α → Work ε β} (h : work.Looks)
    (hnext : ∀ answer, (next answer).Discreet declined) : (work >>= next).Discreet declined := by
  intro desk
  have hfirst := h.runOn desk
  rw [runOn_bind]
  rcases hrun : work.runOn desk with ⟨result, desk'⟩
  rw [hrun] at hfirst
  cases result with
  | error error => exact fun _ => hfirst
  | ok answer => exact fun hdeclined => (hnext answer desk' hdeclined).trans hfirst

/-- Errors may be translated, if the translated ones are refusals for the same runs. -/
theorem adapt {refuses : ε → Bool} {idle : β → Bool} {work : Work δ β} {f : δ → ε}
    (h : work.Discreet (Declined (fun error => refuses (f error)) idle)) :
    Discreet (Declined refuses idle) (ExceptT.adapt f work) := by
  intro desk hdeclined
  rw [runOn_adapt] at hdeclined ⊢
  refine h desk ?_
  cases hrun : (work.runOn desk).1 with
  | error error => rwa [hrun] at hdeclined
  | ok answer => rwa [hrun] at hdeclined

/-- What is done to the answer may decide about being idle. -/
theorem map {refuses : ε → Bool} {idle : β → Bool} {f : α → β} {work : Work ε α}
    (h : work.Discreet (Declined refuses fun answer => idle (f answer))) :
    (work >>= fun answer => pure (f answer)).Discreet (Declined refuses idle) := by
  intro desk
  have hfirst := h desk
  rw [runOn_bind]
  rcases hrun : work.runOn desk with ⟨result, desk'⟩
  rw [hrun] at hfirst
  cases result with
  | error error => exact hfirst
  | ok answer => exact hfirst

/-- Work that is never declined may change whatever it does. -/
theorem of_answers {refuses : ε → Bool} {idle : β → Bool} {work : Work ε β}
    (h : work.Answers (idle · = false)) (hrefuses : ∀ error, refuses error = false) :
    work.Discreet (Declined refuses idle) := by
  intro desk hdeclined
  exfalso
  cases hrun : (work.runOn desk).1 with
  | error error =>
      rw [hrun, Declined, hrefuses] at hdeclined
      cases hdeclined
  | ok answer =>
      rw [hrun, Declined, h desk answer hrun] at hdeclined
      cases hdeclined

end Discreet

end Work

/-! ## Generations -/

/-- Whether a run was told to stop or found nothing to do. -/
def Outcome.isIdle (outcome : Outcome) : Bool := outcome.nothingToDo || outcome.cancelled

/-- Whether an error is about the request and not about the files. -/
def RunError.refuses : RunError → Bool
  | selection _ => true
  | work _ => false

/-- A failure while working on files is not a refusal. -/
def WorkError.refuses (_ : WorkError) : Bool := false

variable {config : Config} {project name : Text} {endpoints : List Endpoint} {layers : Layers}
  {action : ExistsAction}

open Work

/-- A whole feature is never written idly. -/
theorem generateFull_answers :
    (generateFull config project name endpoints layers).Answers (·.isIdle = false) := by
  refine .bind fun target => .bind fun _ => ?_
  have hwrite : ∀ next : PUnit → Work WorkError Outcome,
      (∀ answer, (next answer).Answers (·.isIdle = false)) →
      (if layers.data then checkModels endpoints >>= next else next ()).Answers
        (·.isIdle = false) := by
    intro next hnext
    split
    · exact .bind hnext
    · exact hnext ()
  exact hwrite _ fun _ => .bind fun _ => .bind fun _ => .bind fun _ => .bind fun _ => .pure rfl

/-- Writing a whole feature is not declined once it is under way. -/
theorem generateFull_discreet :
    (generateFull config project name endpoints layers).Discreet
      (Declined WorkError.refuses Outcome.isIdle) := .of_answers generateFull_answers fun _ => rfl

/-- Adding to a feature that has every endpoint writes nothing; otherwise it is not declined. -/
theorem generateAppend_discreet :
    (generateAppend config project name endpoints layers).Discreet
      (Declined WorkError.refuses Outcome.isIdle) := by
  refine .bind (fun _ => .ask _) fun target => .bind (fun _ => .serviceText target) fun content =>
    .bind (fun _ => .forM fun _ _ => .warn _) fun _ => ?_
  dsimp only
  -- with nothing to take in the run ends here
  split
  · exact Looks.discreet (.bind (fun _ => .say _) fun _ _ => .pure _)
  · exact .of_answers (.bind fun _ => .bind fun _ => .bind fun _ => .bind fun _ =>
      .pure rfl) fun _ => rfl

/-- A generation that is refused, cancelled or idle leaves the tree. The first two stop before any
file is written. -/
theorem generate_discreet :
    (generate config project name endpoints layers action).Discreet
      (Declined RunError.refuses Outcome.isIdle) := by
  unfold generate
  split
  · exact Looks.discreet fun _ => .throw _
  · refine .bind (fun _ => (Keeps.ask _).adapt _) fun known => ?_
    split
    · exact .adapt generateFull_discreet
    · cases action with
      | cancel => exact Looks.discreet (.bind (fun _ => .say _) fun _ _ => .pure _)
      | append => exact .adapt generateAppend_discreet
      | overwrite => exact .adapt generateFull_discreet

/-- What an idle run reports to have written. -/
theorem filesWritten_of_idle : (generate config project name endpoints layers action).Answers
    fun outcome => outcome.isIdle = true → outcome.filesWritten = [] := by
  have hfull : (generateFull config project name endpoints layers).Answers
      fun outcome => outcome.isIdle = true → outcome.filesWritten = [] :=
    generateFull_answers.mono fun outcome hbusy hidle => by
      rw [hbusy] at hidle
      cases hidle
  have happend : (generateAppend config project name endpoints layers).Answers
      fun outcome => outcome.isIdle = true → outcome.filesWritten = [] := by
    refine .bind fun target => .bind fun content => .bind fun _ => ?_
    dsimp only
    split
    · exact .bind fun _ => .pure fun _ => rfl
    · exact .bind fun _ => .bind fun _ => .bind fun _ => .bind fun _ => .pure fun hidle => nomatch hidle
  unfold generate
  split
  · exact fun _ _ hanswer => nomatch hanswer
  · refine .bind fun known => ?_
    split
    · exact hfull.adapt _
    · cases action with
      | cancel => exact .bind fun _ => .pure fun _ => rfl
      | append => exact happend.adapt _
      | overwrite => exact hfull.adapt _

/-! ## Commands -/

/-- Whether a command fails before it generates anything. -/
def CommandError.refuses : CommandError → Bool
  | load _ => true
  | run error => error.refuses
  | aborted => true

/-- Whether a command ends without generating anything. -/
def CommandEnd.isIdle : CommandEnd → Bool
  | generated outcome => outcome.isIdle
  | _ => true

/-- Whether a run of the command line is declined: its arguments are not understood, or its course is
declined. -/
def commandDeclined (here : Path) (environment : Environment) (arguments : List Text)
    (line : Option Text) (tree : Tree) : Bool :=
  match Course.ofArguments? here environment arguments line tree with
  | none => true
  | some course => Declined CommandError.refuses CommandEnd.isIdle (course.runOn ⟨tree, []⟩).1

namespace Course

/-- Loading a project only looks. -/
theorem looks_load : (load config).Looks := by
  intro tree desk hdesk
  rw [load, runOn_bind_of_ok (runOn_tree desk)]
  cases loadProject config desk.tree <;> exact hdesk

/-- Showing lines only looks. -/
theorem looks_say (lines : List Text) : (say lines).Looks := fun _ => .forM fun _ _ => .say _

/-- Looking for a feature only looks. -/
theorem looks_look : (look config name).Looks := fun _ => (Keeps.ask _).adapt _

/-- Checking a request only looks, up to the question about the feature. -/
theorem looks_prepare (indices : Text) (action : Option ExistsAction) :
    (prepare config name indices action).Looks := by
  refine .bind looks_load fun project => ?_
  split
  · exact .bind (looks_say _) fun _ _ => .pure _
  · cases acceptRequest config project.catalog name indices with
    | error error => exact fun _ => .throw _
    | ok endpoints =>
        refine .bind (looks_say _) fun _ => ?_
        cases action with
        | some action => exact fun _ => .pure _
        | none =>
            refine .bind looks_look fun known => ?_
            split
            · exact fun _ => .pure _
            · exact .bind (looks_say _) fun _ _ => .pure _

/-- Showing lines always succeeds and leaves the tree. -/
theorem runOn_say (lines : List Text) (desk : Desk) :
    ∃ after, (say lines).runOn desk = (.ok (), after) ∧ after.tree = desk.tree := by
  induction lines generalizing desk with
  | nil => exact ⟨desk, rfl, rfl⟩
  | cons line lines ih => exact ih (desk.tell (line ++ ['\n']))

/-- What is said after a generation changes neither its result nor the tree. -/
theorem runOn_run (job : Job) (action : ExistsAction) (desk : Desk) :
    ∃ after, (run job action).runOn desk =
        (((generate job.config job.project job.name job.endpoints {} action).runOn desk).1.mapError
          .run, after) ∧
      after.tree =
        ((generate job.config job.project job.name job.endpoints {} action).runOn desk).2.tree := by
  rw [run, runOn_bind, runOn_adapt]
  rcases (generate job.config job.project job.name job.endpoints {} action).runOn desk
    with ⟨result, middle⟩
  cases result with
  | error error => exact ⟨middle, rfl, rfl⟩
  | ok outcome =>
      show ∃ after, Work.runOn (ite _ _ _) middle = (.ok outcome, after) ∧ after.tree = middle.tree
      -- an idle outcome is not commented on
      split
      · exact ⟨middle, rfl, rfl⟩
      · have hnext : ∀ desk : Desk, ∃ after,
            runOn (say nextStepLines >>= fun _ => pure outcome) desk = (.ok outcome, after) ∧
              after.tree = desk.tree := by
          intro desk
          obtain ⟨after, hsay, htree⟩ := runOn_say nextStepLines desk
          exact ⟨after, runOn_bind_of_ok hsay, htree⟩
        dsimp only
        split
        · exact hnext (middle.warn (skippedLine outcome.warnings ++ ['\n']))
        · exact hnext middle

/-- A job that is declined leaves the tree, like its generation. -/
theorem discreet_run (job : Job) (action : ExistsAction) :
    (run job action).Discreet (Declined CommandError.refuses Outcome.isIdle) := by
  intro desk
  obtain ⟨after, hrun, htree⟩ := runOn_run job action desk
  rw [hrun]
  intro hdeclined
  refine htree.trans (generate_discreet desk ?_)
  cases hresult : ((generate job.config job.project job.name job.endpoints {} action).runOn desk).1 with
  | error error => rwa [hresult] at hdeclined
  | ok outcome => rwa [hresult] at hdeclined

/-- A job that asks leaves the tree if there is no answer or it is declined. -/
theorem discreet_question (job : Job) (line : Option Text) :
    (question job line).Discreet (Declined CommandError.refuses Outcome.isIdle) := by
  cases line with
  | none => exact fun _ _ => rfl
  | some line =>
      exact .bind (fun _ _ h => h) fun _ => .bind (fun _ _ h => h) fun _ => discreet_run _ _

/-- A plan that is declined leaves the tree. -/
theorem discreet_carryOut (line : Option Text) (plan : Plan) :
    (carryOut line plan).Discreet (Declined CommandError.refuses CommandEnd.isIdle) := by
  cases plan with
  | nothing => exact Looks.discreet fun _ => .pure _
  | decided job action => exact .map (discreet_run job action)
  | undecided job => exact .map (discreet_question job line)

/-- A command that is declined leaves the tree. -/
theorem discreet_ofCommand (line : Option Text) (command : Command) :
    (ofCommand config line command).Discreet (Declined CommandError.refuses CommandEnd.isIdle) := by
  cases command with
  | list =>
      refine Looks.discreet (.bind (.bind looks_load fun _ => looks_say _) fun _ _ => .pure _)
  | generate name indices action =>
      exact .bind (looks_prepare indices action) fun plan => discreet_carryOut line plan
  | serve host port =>
      exact Looks.discreet (.bind (.bind looks_load fun _ _ => .say _) fun _ _ => .pure _)

/-- Putting an error into words leaves the tree. -/
theorem tree_finish (course : Work CommandError CommandEnd) (desk : Desk) :
    (finish course desk).1.tree = (course.runOn desk).2.tree := by
  rw [finish]
  rcases course.runOn desk with ⟨result, desk'⟩
  cases result <;> rfl

end Course

/-- A command line that is not understood or declined leaves the tree. -/
theorem tree_of_commandDeclined {here : Path} {environment : Environment} {arguments : List Text}
    {line : Option Text} {tree : Tree}
    (h : commandDeclined here environment arguments line tree = true) :
    ((runCommand here environment arguments tree).answer line).1.tree = tree := by
  rw [answer_runCommand]
  rw [commandDeclined] at h
  cases hcourse : Course.ofArguments? here environment arguments line tree with
  | none => rfl
  | some course =>
      rw [hcourse] at h
      obtain ⟨invocation, -, hsome⟩ := Option.bind_eq_some_iff.1 hcourse
      split at hsome
      · cases hsome
        exact (Course.tree_finish _ _).trans (Course.discreet_ofCommand line invocation.command _ h)
      · cases hsome

/-! ## Requests -/

variable {desk : Desk}

/-- A request of the form that is refused leaves the tree. It is idle only with an answer, so just
refusals count. -/
theorem run_discreet (request : GenerateRequest) (project : Project) :
    (request.run config project name).Discreet (Declined RunError.refuses fun _ => false) := by
  unfold GenerateRequest.run
  cases request.accept config project.catalog name with
  | error error => exact Looks.discreet fun _ => .throw _
  | ok endpoints =>
      refine .bind (fun _ => (Keeps.ask _).adapt _) fun wasThere => ?_
      exact .map fun desk hdeclined => generate_discreet desk (by
        cases hrun : ((generate config project.name name endpoints request.layers .append).runOn
          desk).1 with
        | error error => rwa [hrun] at hdeclined
        | ok outcome => rw [hrun] at hdeclined; cases hdeclined)

/-- A request of the form is answered as its run ends. -/
theorem answer_run (request : GenerateRequest) (project : Project) :
    (request.answer config project).run desk =
      match (request.run config project request.name.trim).runOn desk with
      | (.ok result, after) => (result.reply config request.name.trim request.layers, after)
      | (.error error, after) => (error.reply, after) := by
  rcases hrun : (request.run config project request.name.trim).runOn desk with ⟨result, after⟩
  have hstate : StateT.run (ExceptT.run (request.run config project request.name.trim)) desk =
      (result, after) := hrun
  rw [GenerateRequest.answer, StateT.run_bind, hstate]
  cases result <;> rfl

/-- The answer to a request that is known and allowed. -/
def routedReply (config : Config) (project : Project) (request : Request) : StateM Desk Reply :=
  match Route.ofTarget? request.target with
  | none => pure (.detail 404 "Not Found")
  | some route =>
    if route.allows request.method.upper then answerRoute config project request.body route
    else pure (.detail 405 "Method Not Allowed")

/-- A request is answered as it is routed; a request for the head only gets no body. -/
theorem answerRequest_run (project : Project) (request : Request) :
    (answerRequest config project request).run desk =
      (let reply := ((routedReply config project request).run desk).1
        if request.method.upper = headMethod then reply.bare else reply,
        ((routedReply config project request).run desk).2) := by
  unfold answerRequest routedReply
  dsimp only
  cases Route.ofTarget? request.target with
  | none => rfl
  | some route =>
      dsimp only
      split <;> rfl

/-- A generation from the form that is answered as a bad request leaves the tree. -/
theorem tree_answer (request : GenerateRequest) (project : Project)
    (h : ((request.answer config project).run desk).1.status = 400) :
    ((request.answer config project).run desk).2.tree = desk.tree := by
  have hdiscreet : Declined RunError.refuses (fun _ => false)
      ((request.run config project request.name.trim).runOn desk).1 = true →
      ((request.run config project request.name.trim).runOn desk).2.tree = desk.tree :=
    run_discreet request project desk
  rw [answer_run] at h ⊢
  rcases hrun : (request.run config project request.name.trim).runOn desk with ⟨result, after⟩
  rw [hrun] at h hdiscreet
  cases result with
  | ok result => cases h
  | error error =>
      -- failures while working are answered with another status
      cases error with
      | selection error => exact hdiscreet rfl
      | work error => cases h

/-- A known request that is answered as a bad one leaves the tree. -/
theorem tree_answerRoute (project : Project) (body : List UInt8) (route : Route)
    (h : ((answerRoute config project body route).run desk).1.status = 400) :
    ((answerRoute config project body route).run desk).2.tree = desk.tree := by
  cases route with
  | generate =>
      show ((answerForm config project body).run desk).2.tree = desk.tree
      change ((answerForm config project body).run desk).1.status = 400 at h
      unfold answerForm at h ⊢
      cases hread : readGenerateRequest body with
      | error reply => rfl
      | ok request =>
          rw [hread] at h
          exact tree_answer request project h
  | page => rfl
  | endpoints => rfl
  | document => rfl
  | description => rfl

/-- A request that is answered as a bad one leaves the tree. -/
theorem tree_answerRequest (project : Project) (request : Request)
    (h : ((answerRequest config project request).run desk).1.status = 400) :
    ((answerRequest config project request).run desk).2.tree = desk.tree := by
  have hstatus : ((routedReply config project request).run desk).1.status = 400 := by
    rw [answerRequest_run] at h
    dsimp only at h
    split at h <;> exact h
  rw [answerRequest_run]
  dsimp only
  unfold routedReply at hstatus ⊢
  cases hroute : Route.ofTarget? request.target with
  | none => rfl
  | some route =>
      rw [hroute] at hstatus
      dsimp only at hstatus ⊢
      split at hstatus
      · next hallows =>
        rw [if_pos hallows]
        exact tree_answerRoute project request.body route hstatus
      · cases hstatus

/-- A declined request leaves the tree. Generating with an error about the request, or with an
outcome that is cancelled or has nothing to do, changes nothing and reports no file. A command that
fails before it generates or only says something changes nothing, and neither does a request that is
answered with the status for bad ones. -/
theorem declined_leaves_tree :
    (∀ (config : Config) (project name : Text) (endpoints : List Endpoint) (layers : Layers)
        (action : ExistsAction) (desk : Desk),
      let run := (generate config project name endpoints layers action).runOn desk
      Declined RunError.refuses Outcome.isIdle run.1 = true →
        run.2.tree = desk.tree ∧ ∀ outcome, run.1 = .ok outcome → outcome.filesWritten = []) ∧
    (∀ (here : Path) (environment : Environment) (arguments : List Text) (line : Option Text)
        (tree : Tree),
      commandDeclined here environment arguments line tree = true →
        ((runCommand here environment arguments tree).answer line).1.tree = tree) ∧
    (∀ (config : Config) (project : Project) (request : Request) (desk : Desk),
      let answer := (answerRequest config project request).run desk
      answer.1.status = 400 → answer.2.tree = desk.tree) := by
  refine ⟨?_, ?_, ?_⟩
  · intro config project name endpoints layers action desk run hdeclined
    refine ⟨generate_discreet desk hdeclined, fun outcome houtcome => ?_⟩
    rw [houtcome] at hdeclined
    exact filesWritten_of_idle desk outcome houtcome hdeclined
  · exact fun here environment arguments line tree h => tree_of_commandDeclined h
  · exact fun config project request desk h => tree_answerRequest project request h

/-- A feature whose service file has the endpoint asked for, so that an append has nothing to do and a
cancelled run leaves it; a listing without a manifest; and a form without a body. -/
theorem declined_leaves_news_tree :
    let endpoint : Endpoint := { path := "/news", method := "get" }
    let service : Text := ClassFile.service.render ⟨"shop", "news", "model"⟩ [endpoint]
    let tree : Tree := ⟨[(["lib"], .folder), (["lib", "features"], .folder),
      (["lib", "features", "news"], .folder), (["lib", "features", "news", "data"], .folder),
      (["lib", "features", "news", "data", "remote"], .folder),
      (["lib", "features", "news", "data", "remote", "service"], .folder),
      (["lib", "features", "news", "data", "remote", "service", "news_service.dart"],
        .file (.text service))]⟩
    let run (action : ExistsAction) :=
      (generate {} "shop" "news" [endpoint] {} action).runOn ⟨tree, []⟩
    let answer := (answerRequest {} ⟨"shop", .null, {}⟩ ⟨"POST", "/api/generate", []⟩).run ⟨tree, []⟩
    (∀ action ∈ [ExistsAction.cancel, .append], (run action).2.tree = tree) ∧
      ((runCommand [] [] ["endpoints"] tree).answer none).1.tree = tree ∧
      answer.2.tree = tree := by
  intro endpoint service tree run answer
  have hdeclined : ∀ action ∈ [ExistsAction.cancel, .append],
      Declined RunError.refuses Outcome.isIdle (run action).1 = true := by
    decide +kernel
  exact ⟨fun action haction =>
      (declined_leaves_tree.1 {} "shop" "news" [endpoint] {} action _ (hdeclined action haction)).1,
    declined_leaves_tree.2.1 [] [] ["endpoints"] none _ (by decide +kernel),
    declined_leaves_tree.2.2 {} _ _ _ (by decide +kernel)⟩

end Scaffold
