import Scaffold.Dart.Bloc
import Scaffold.Patch.Insertion

/-!
# Extending generated files

What the text of an existing file becomes when endpoints are added to it. An endpoint whose member
is there already is left out, and a file that lacks nothing stays as it is.
-/

namespace Scaffold

/-- The endpoints whose name does not stand as a member in the content. -/
def lacking (content : Text) (name : Endpoint → Text) (endpoints : List Endpoint) :
    List Endpoint :=
  endpoints.filter fun endpoint => !hasMember content (name endpoint)

/-- Puts imports and members for the endpoints into a file of one class. -/
def ClassFile.insert (file : ClassFile) (feature : Feature) (content : Text)
    (endpoints : List Endpoint) : Except MissingAnchor Text :=
  let content := insertImports content (feature.modelImports endpoints)
  let members := endpoints.map fun endpoint => file.member feature endpoint
  match file with
  | .useCases => insertIntoClass content feature.useCasesClass members "\n\n"
  | _ => insertBeforeLastBrace content members "\n\n"

/-- A file of one class with the members for the endpoints it lacks. -/
def ClassFile.extend (file : ClassFile) (feature : Feature) (content : Text)
    (endpoints : List Endpoint) : Except MissingAnchor Text :=
  match lacking content Endpoint.methodName endpoints with
  | [] => .ok content
  | new => file.insert feature content new

/-- The parts, each behind a separator. -/
def preceded (separator : Text) (parts : List Text) : Text :=
  parts.flatMap fun part => separator ++ part

/-- Whether the content declares a class of the given name. -/
def declaresClass (content name : Text) : Bool :=
  Text.occursIn ("class " ++ name ++ " ") content

/-- The file of the events with the cases, or in the plain style the classes, that it lacks. -/
def extendEvents (feature : Feature) (content : Text) (endpoints : List Endpoint) :
    Except MissingAnchor Text :=
  if usesUnions content then
    match lacking content Endpoint.eventName endpoints with
    | [] => .ok content
    | new => insertAfterLast content .eventCase (preceded "\n\n" (new.map (eventCase feature)))
  else
    match endpoints.filter fun endpoint => !declaresClass content endpoint.plainEvent with
    | [] => .ok content
    | new => appendDeclarations content (new.map (plainEventClass feature))

/-- The file of the state with the fields, or in the plain style the classes, that it lacks. -/
def extendState (feature : Feature) (content : Text) (endpoints : List Endpoint) :
    Except MissingAnchor Text :=
  if usesUnions content then
    match lacking content Endpoint.stateField endpoints with
    | [] => .ok content
    | new => insertAfterLast content .stateFields (preceded "\n" (new.map stateField))
  else
    let states := endpoints.flatMap (plainStates feature)
    match states.filter fun state => !declaresClass content state.1 with
    | [] => .ok content
    | new => appendDeclarations content (new.map (·.2))

/-- Whether the bloc hands events on case by case. -/
def handsOnCases (content : Text) : Bool := Text.occursIn "event.when(" content

/-- The bloc with the branches or registrations, and the handlers, that it lacks. -/
def extendBloc (feature : Feature) (content : Text) (endpoints : List Endpoint) :
    Except MissingAnchor Text :=
  if handsOnCases content then
    match lacking content Endpoint.handlerName endpoints with
    | [] => .ok content
    | new => do
      let content := insertImports content (feature.modelImports new)
      let content ← insertAfterLast content .whenCase (preceded "\n" (new.map whenCase))
      insertIntoClass content feature.blocClass (new.map (blocHandler feature)) "\n\n"
  else
    match lacking content Endpoint.plainHandler endpoints with
    | [] => .ok content
    | new => do
      let content := insertImports content (feature.modelImports new)
      let content ←
        insertAfterLast content .registration (preceded "\n" (new.map plainRegistration))
      insertIntoClass content feature.blocClass (new.map (plainBlocHandler feature)) "\n\n"

/-- The verb and path of the service annotation at the start of the text. -/
def annotationAt? (text : Text) : Option EndpointKey := do
  let rest ← Text.after? "@" text
  let verb ← annotatedVerbs.find? fun verb => (Text.after? verb rest).isSome
  let inside ← Text.after? "(\"" (rest.drop verb.length)
  let path := inside.takeWhile (· != '"')
  let _ ← Text.after? "\")" (inside.drop path.length)
  if path.isEmpty then none else some (verb.lower, path)

/-- The keys of the service annotations in a text, skipping the first `inside` characters, which
belong to an annotation already read. -/
def annotationsFrom : (inside : Nat) → Text → List EndpointKey
  | _, [] => []
  | 0, c :: rest =>
    match annotationAt? (c :: rest) with
    | some key => key :: annotationsFrom (key.1.length + key.2.length + 4) rest
    | none => annotationsFrom 0 rest
  | inside + 1, _ :: rest => annotationsFrom inside rest

/-- The keys of the endpoints that a service file declares. -/
def annotatedKeys (content : Text) : List EndpointKey := annotationsFrom 0 content

end Scaffold
