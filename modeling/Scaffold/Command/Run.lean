import Scaffold.Command.Arguments
import Scaffold.Project.Loading

/-!
# Running commands

What each command does and shows. A run ends with a status, or stops at one point to ask the user
what becomes of a feature that is there; `Run.answer` goes on from there.
-/

namespace Scaffold

/-- Why a command fails. -/
inductive Failure
  | reported (message : Text)
  | aborted

/-- What a failed command tells the user. -/
def Failure.message : Failure → Text
  | reported message => "Error: " ++ message
  | aborted => "Aborted!"

/-- How a run ends. An address means that the form is to be served there. -/
structure Status where
  code : Nat
  address : Option (Text × Int) := none

/-- A run: at its end, or waiting for a line from the user, nothing standing for the end of
input. -/
inductive Run
  | finished (desk : Desk) (status : Status)
  | asks (desk : Desk) (resume : Option Text → Desk × Status)

/-- The end of a run that gets the given line if it asks. -/
def Run.answer (line : Option Text) : Run → Desk × Status
  | finished desk status => (desk, status)
  | asks _ resume => resume line

/-- The end of a step that is the last one of a command. -/
def Work.conclude (work : Work Failure Unit) (desk : Desk) : Desk × Status :=
  match work.run desk with
  | (.ok (), desk) => (desk, ⟨0, none⟩)
  | (.error failure, desk) => (desk.warn (failure.message ++ ['\n']), ⟨1, none⟩)

/-- The run of a command that asks nothing. -/
def Run.ofWork (work : Work Failure Unit) (desk : Desk) : Run :=
  let (desk, status) := work.conclude desk
  finished desk status

/-- What the user is told about a project that cannot be loaded. What is not a fault of the project
itself is marked as such. -/
def LoadError.report (error : LoadError) : Text :=
  let unforeseen := "Failed to load project: " ++ error.message
  match error with
  | work _ => unforeseen
  | value _ => unforeseen
  | extraction (.notLookedUp _) => unforeseen
  | extraction (.value _) => unforeseen
  | _ => error.message

/-- What the user is told about a run that failed. -/
def RunError.report : RunError → Text
  | selection error => error.message
  | work error => "Generation failed: " ++ error.message

/-- Loads the project of a configuration. -/
def loadConfigured (config : Config) : Work Failure Project := do
  match loadProject config (← Work.tree) with
  | .ok project => return project
  | .error error => throw (.reported error.report)

/-! ## Listing -/

/-- The line above a listing. -/
def listingTitle : Text := "Available API endpoints by category:"

/-- The rule above and below a listing. -/
def listingRule : Text := List.replicate 50 '='

/-- The lines for one number. -/
def Numbered.lines (entry : Numbered) : List Text :=
  let first : Text := "  " ++ Text.ofNat entry.index ++ ". " ++ entry.endpoint.describe
  if entry.endpoint.summary.isEmpty then [first] else [first, "     " ++ entry.endpoint.summary]

/-- The lines of numbered endpoints, each change of tag with a heading. -/
def listingLines : (tag : Option Text) → List Numbered → List Text
  | _, [] => []
  | tag, entry :: rest =>
    let heading : List Text := if tag = some entry.tag then [] else ['\n' :: entry.tag ++ ":"]
    heading ++ entry.lines ++ listingLines (some entry.tag) rest

/-- The listing of a catalog. -/
def Catalog.listing (catalog : Catalog) : List Text :=
  listingTitle :: listingRule :: listingLines none catalog.numbered ++ ['\n' :: listingRule]

/-- How the command is used. -/
def usageLines : List Text :=
  ["Usage:",
    "  Show endpoints:     feature-generator endpoints",
    "  Generate feature:   feature-generator generate <feature_name> <endpoint_indices>",
    "",
    "Examples:",
    "  feature-generator generate user_management 1,3,5",
    "  feature-generator generate products all",
    "",
    "Feature name should be in snake_case (e.g., user_management, products, etc.)"]

/-- Shows lines. -/
def sayLines (lines : List Text) : Work Failure Unit := lines.forM Work.say

/-- Lists the endpoints of a project. -/
def runList (config : Config) : Work Failure Unit := do
  sayLines (← loadConfigured config).catalog.listing

/-! ## Generating -/

/-- A generation whose name and endpoints have been accepted. -/
structure Job where
  config : Config
  project : Text
  name : Text
  endpoints : List Endpoint

/-- Whether a generation runs: not at all, with an action, or with one that the user has to
choose. -/
inductive Plan
  | nothing
  | decided (job : Job) (action : ExistsAction)
  | undecided (job : Job)

/-- The endpoints that indices in the form of a text select. -/
def Catalog.selectText (catalog : Catalog) (indices : Text) :
    Except SelectionError (List Endpoint) := do
  catalog.select (← Selection.parse indices)

/-- The endpoints for a name and indices, both checked. -/
def acceptRequest (config : Config) (catalog : Catalog) (name indices : Text) :
    Except SelectionError (List Endpoint) := do
  config.checkName name
  catalog.selectText indices

/-- The lines about the selected endpoints. -/
def selectedLines (endpoints : List Endpoint) : List Text :=
  ("Selected " ++ Text.ofNat endpoints.length ++ " endpoint(s):") ::
    endpoints.map fun endpoint => "  - " ++ endpoint.describe

/-- The lines of the question about a feature that is there. -/
def questionLines (job : Job) : List Text :=
  ["Feature \"" ++ job.name ++ "\" already exists at " ++ job.config.location job.name,
    "  1. Add new endpoints to the existing feature",
    "  2. Overwrite the feature",
    "  3. Cancel"]

/-- What follows the question on the line of the answer. -/
def questionPrompt : Text := "Choose an option [1]: "

/-- The action that an answer stands for. An empty line takes the first one, and what is no number
of an action cancels. -/
def chosenAction (line : Text) : ExistsAction :=
  let choice := if line.isEmpty then ['1'] else line.trim
  if choice = "1" then .append
  else if choice = "2" then .overwrite
  else .cancel

/-- What the user does next with a generated feature. -/
def nextStepLines : List Text :=
  ["\nGeneration completed!",
    "Next steps:",
    "  1. Run \"dart run build_runner build\" to generate the .g.dart and .freezed.dart files",
    "  2. Register the new classes in your DI container",
    "  3. Use the generated bloc in your screens"]

/-- The warning about files that have been skipped. -/
def skippedLine (warnings : List Text) : Text :=
  '\n' :: Text.ofNat warnings.length ++ " file(s) could not be updated, see warnings above."

/-- Whether a feature is there. -/
def lookForFeature (config : Config) (name : Text) : Work Failure Bool :=
  (ask (config.featureExists name)).adapt fun error => .reported (RunError.work error).report

/-- Checks a request to generate a feature, up to the question about one that is there. -/
def prepare (config : Config) (name indices : Text) (action : Option ExistsAction) :
    Work Failure Plan := do
  let project ← loadConfigured config
  if name.isEmpty || indices.isEmpty then
    sayLines (usageLines ++ [[]] ++ project.catalog.listing)
    return .nothing
  match acceptRequest config project.catalog name indices with
  | .error error => throw (.reported error.message)
  | .ok endpoints =>
    sayLines (selectedLines endpoints)
    let job : Job := ⟨config, project.name, name, endpoints⟩
    match action with
    | some action => return .decided job action
    | none =>
      if !(← lookForFeature config name) then return .decided job .append
      sayLines (questionLines job)
      return .undecided job

/-- Generates the feature and says what comes next. -/
def Job.run (job : Job) (action : ExistsAction) : Work Failure Unit := do
  let outcome ← (generate job.config job.project job.name job.endpoints {} action).adapt
    fun error => .reported error.report
  if outcome.nothingToDo || outcome.cancelled then return
  if !outcome.warnings.isEmpty then Work.warn (skippedLine outcome.warnings)
  sayLines nextStepLines

/-- Goes on after the question with the line that the user has given. -/
def Job.resume (job : Job) (desk : Desk) : Option Text → Desk × Status
  | none => Work.conclude (throw .aborted) desk
  | some line => Work.conclude (job.run (chosenAction line)) (desk.echo (line ++ ['\n']))

/-- Generates a feature, asking if there is no action for one that is there. -/
def runGenerate (config : Config) (name indices : Text) (action : Option ExistsAction)
    (desk : Desk) : Run :=
  match (prepare config name indices action).run desk with
  | (.ok .nothing, desk) => .finished desk ⟨0, none⟩
  | (.ok (.decided job action), desk) => .ofWork (job.run action) desk
  | (.ok (.undecided job), desk) =>
    let desk := desk.tell questionPrompt
    .asks desk (job.resume desk)
  | (.error failure, desk) => .ofWork (throw failure) desk

/-! ## Serving -/

/-- Says where the form is found. -/
def announce (config : Config) (host : Text) (port : Int) : Work Failure Unit := do
  let _ ← loadConfigured config
  Work.say ("Open your browser at http://" ++ host ++ ":" ++ Text.ofInt port)

/-- Loads the project and leaves the address to serve it at. -/
def runServe (config : Config) (host : Text) (port : Int) (desk : Desk) : Run :=
  let (desk, status) := Work.conclude (announce config host port) desk
  .finished desk (if status.code = 0 then ⟨0, some (host, port)⟩ else status)

/-- The run for arguments that are not understood: it says how the command is used. -/
def misused (tree : Tree) : Run :=
  .finished ((Desk.mk tree []).warn (Text.lines usageLines)) ⟨2, none⟩

/-- Runs the command line in the folder `here`. -/
def runCommand (here : Path) (environment : Environment) (arguments : List Text) (tree : Tree) :
    Run :=
  match Invocation.ofArguments? environment arguments with
  | none => misused tree
  | some invocation =>
    if !invocation.place.mayBeFolder here tree then misused tree
    else
      let config := invocation.place.config here
      match invocation.command with
      | .list => .ofWork (runList config) ⟨tree, []⟩
      | .generate name indices action => runGenerate config name indices action ⟨tree, []⟩
      | .serve host port => runServe config host port ⟨tree, []⟩

/-- The first line of an input, without its end; nothing if the input is empty. -/
def firstLine? (input : Text) : Option Text :=
  match universalNewlines input with
  | [] => none
  | text => some (text.takeWhile (· != '\n'))

end Scaffold
