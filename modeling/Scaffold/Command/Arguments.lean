import Scaffold.Project.Generation
import Scaffold.Text.Integer

/-!
# Arguments

What the command line asks for. Options are words that start with a dash; each takes a value, joined
by an equals sign or as the next argument, and the last value counts. The options that say where the
project lies come first, then the name of a command, then the command's own arguments.
-/

namespace Scaffold

/-- Options with their values, and the other arguments, both in order. -/
structure Scan where
  options : List (Text × Text) := []
  others : List Text := []

namespace Scan

/-- Whether an argument is meant as an option: a dash and something behind it. -/
def isOption : Text → Bool
  | '-' :: _ :: _ => true
  | _ => false

/-- The name and the value of an option that is joined to its value. -/
def joined? (argument : Text) : Option (Text × Text) :=
  match argument.dropWhile (· != '=') with
  | [] => none
  | _ :: value => some (argument.takeWhile (· != '='), value)

/-- Puts an option in front of what has been found. -/
def withOption (option : Text × Text) (scan : Scan) : Scan :=
  { scan with options := option :: scan.options }

/-- Puts another argument in front of what has been found. -/
def withOther (argument : Text) (scan : Scan) : Scan :=
  { scan with others := argument :: scan.others }

/-- Sorts arguments. Two dashes alone end the options, and so does the first other argument unless
options and others are `mixed`. Nothing for an option that is not `known` or lacks its value. -/
def ofArguments (known : List Text) (mixed : Bool) : List Text → Option Scan
  | [] => some {}
  | argument :: rest =>
    if argument = "--" then some { others := rest }
    else if isOption argument then
      match joined? argument with
      | some option =>
        if known.contains option.1 then (ofArguments known mixed rest).map (·.withOption option)
        else none
      | none =>
        match rest with
        | [] => none
        | value :: rest =>
          if known.contains argument then
            (ofArguments known mixed rest).map (·.withOption (argument, value))
          else none
    else if mixed then (ofArguments known mixed rest).map (·.withOther argument)
    else some { others := argument :: rest }

/-- The value of an option; of several the last one counts. -/
def value? (scan : Scan) (name : Text) : Option Text := scan.options.reverse.lookup name

end Scan

/-- Where the project lies, as the user names the places. -/
structure Place where
  root : Text := "."
  specFile : Text := "swagger.json"
  featuresPath : Text := "lib/features"

/-- What a run of the command line is to do. Without an action the user is asked what becomes of a
feature that is there. -/
inductive Command
  | list
  | generate (name indices : Text) (action : Option ExistsAction)
  | serve (host : Text) (port : Int)

/-- A run of the command line. -/
structure Invocation where
  place : Place
  command : Command

/-- The settings of the user's environment. -/
abbrev Environment := List (Text × Text)

namespace Command

/-- The options of the command that generates a feature. -/
def generateOptions : List Text := ["--on-exists"]

/-- The options of the command that serves the form. -/
def serveOptions : List Text := ["--host", "--port"]

/-- The action that a value of `--on-exists` stands for: none yet if the user is to be asked. -/
def action? (value : Text) : Option (Option ExistsAction) :=
  if value = "ask" then some none else (ExistsAction.ofText? value).map some

/-- The listing takes no arguments. -/
def listOf? (arguments : List Text) : Option Command := do
  let scan ← Scan.ofArguments [] true arguments
  match scan.others with
  | [] => some list
  | _ => none

/-- Generating takes a name and indices; a missing one counts as empty. -/
def generateOf? (arguments : List Text) : Option Command := do
  let scan ← Scan.ofArguments generateOptions true arguments
  let action ← action? ((scan.value? "--on-exists").getD "ask")
  match scan.others with
  | [] => some (generate [] [] action)
  | [name] => some (generate name [] action)
  | [name, indices] => some (generate name indices action)
  | _ => none

/-- Serving takes options only. -/
def serveOf? (arguments : List Text) : Option Command := do
  let scan ← Scan.ofArguments serveOptions true arguments
  let port ← ((scan.value? "--port").getD "8080").toInt?
  match scan.others with
  | [] => some (serve ((scan.value? "--host").getD "127.0.0.1") port)
  | _ => none

/-- The command of a name with its arguments. -/
def ofArguments? : List Text → Option Command
  | [] => none
  | name :: arguments =>
    if name = "endpoints" then listOf? arguments
    else if name = "generate" then generateOf? arguments
    else if name = "serve" then serveOf? arguments
    else none

end Command

namespace Place

/-- The options that say where the project lies. -/
def options : List Text := ["--project-root", "--spec", "--features-path"]

/-- A setting: an option counts before a variable of the environment, which counts unless it is
empty. -/
def setting (scan : Scan) (environment : Environment) (option name default : Text) : Text :=
  match scan.value? option with
  | some value => value
  | none => ((environment.lookup name).filter fun value => !value.isEmpty).getD default

/-- The place that options and environment name. -/
def ofScan (scan : Scan) (environment : Environment) : Place where
  root := setting scan environment "--project-root" "FEATURE_GEN_PROJECT_ROOT" "."
  specFile := setting scan environment "--spec" "FEATURE_GEN_SPEC" "swagger.json"
  featuresPath :=
    setting scan environment "--features-path" "FEATURE_GEN_FEATURES_PATH" "lib/features"

/-- The configuration of a place as seen from a folder. -/
def config (place : Place) (here : Path) : Config :=
  Config.atRoot { specFile := place.specFile, featuresPath := place.featuresPath }
    (here.join place.root)

/-- Whether the root may be a folder: a file is none, unless the user insists on a folder, which
leads nowhere. -/
def mayBeFolder (place : Place) (here : Path) (tree : Tree) : Bool :=
  Path.demandsFolder place.root || !tree.isFile (here.join place.root)

end Place

/-- The run that arguments and environment stand for, nothing if they are not understood. -/
def Invocation.ofArguments? (environment : Environment) (arguments : List Text) :
    Option Invocation := do
  let scan ← Scan.ofArguments Place.options false arguments
  let command ← Command.ofArguments? scan.others
  return ⟨.ofScan scan environment, command⟩

end Scaffold
