import Scaffold.Document.Encoding
import Scaffold.Form.Page
import Scaffold.Form.Request
import Scaffold.Form.Address
import Scaffold.Project.Loading

/-!
# Serving the form

What is answered to one request about a loaded project. A form that is refused or fails is answered
with an error, so that answering never fails itself.
-/

namespace Scaffold

/-- A request, with the bytes that it carries. -/
structure Request where
  method : Text
  target : Text
  body : List UInt8 := []

/-- What an answer carries. -/
inductive Payload
  | value (value : Value)
  | page (text : Text)

/-- An answer to a request. -/
structure Reply where
  status : Nat
  payload : Payload

/-- The method that asks for an answer without its content. -/
def headMethod : Text := "HEAD"

/-- The places that the server knows. -/
inductive Route
  | page
  | endpoints
  | generate
  | document
  | description
  deriving DecidableEq

namespace Route

/-- The places that describe the interface. -/
def descriptionPaths : List Text :=
  ["/openapi.json", "/docs", "/docs/oauth2-redirect", "/redoc"]

/-- The place of a path. -/
def ofPath? (path : Text) : Option Route :=
  if path = "/" then some page
  else if path = "/api/endpoints" then some endpoints
  else if path = "/api/generate" then some generate
  else if path = "/api/swagger/raw" then some document
  else if descriptionPaths.contains path then some description
  else none

/-- The place of a target. Slashes at its end do not matter. -/
def ofTarget? (target : Text) : Option Route :=
  let path := Address.path target
  match ofPath? path with
  | some route => some route
  | none => ofPath? (path.reverse.dropWhile (· == '/')).reverse

/-- The method that a place is asked with. -/
def method : Route → Text
  | generate => "POST"
  | _ => "GET"

/-- Whether a place can be asked with a method. A description may be asked for without its
content. -/
def allows (route : Route) (method : Text) : Bool :=
  method = route.method || (route = .description && method = headMethod)

end Route

namespace Reply

/-- An answer that carries a value. -/
def ok (value : Value) : Reply := ⟨200, .value value⟩

/-- An answer without its content. -/
def bare (reply : Reply) : Reply := { reply with payload := .page [] }

/-- An answer with an error of the program. -/
def error (status : Nat) (message : Text) : Reply :=
  ⟨status, .value (.object [("error", .text message)])⟩

/-- An answer with an error in the request itself. -/
def detail (status : Nat) (message : Text) : Reply :=
  ⟨status, .value (.object [("detail", .text message)])⟩

/-- The answer to a form with faults. -/
def invalid (faults : List (Text × Text)) : Reply :=
  error 400 ("Invalid request: " ++
    Text.join "; " (faults.map fun fault => fault.1 ++ ": " ++ fault.2))

end Reply

/-- The place and the message of a fault; the form as a whole is its body. -/
def Blame.shown (blame : Blame) : Text × Text :=
  (if blame.place.isEmpty then "body" else Text.join "." blame.place, blame.fault.message)

/-! ## Listing -/

/-- An entry of the listing. -/
def Numbered.toValue (entry : Numbered) : Value :=
  let endpoint := entry.endpoint
  .object [("index", .nat entry.index), ("tag", .text entry.tag),
    ("method", .text endpoint.method.upper), ("path", .text endpoint.path),
    ("summary", .text endpoint.summary),
    ("operationId", (endpoint.operationId.map Value.text).getD .null),
    ("hasRequestBody", .bool endpoint.body.isSome),
    ("responseCount", .nat endpoint.responses.length)]

/-- The listing of a catalog. -/
def Catalog.toValue (catalog : Catalog) : Value := .list (catalog.numbered.map Numbered.toValue)

/-! ## The document -/

/-- A moment as it is sent: universal time has a mark of its own. -/
def Moment.sent (moment : Moment) : Text :=
  if moment.offset = some 0 then { moment with offset := none }.textWith 'T' ++ "Z"
  else moment.textWith 'T'

/-- A scalar as it is sent: what JSON has no value for is null, and moments are texts. -/
def Scalar.sent : Scalar → Scalar
  | float .nan => null
  | float (.infinite _) => null
  | date value => text value.text
  | moment value => text value.sent
  | scalar => scalar

/-- A key as it is sent. -/
def Scalar.sentKey (key : Scalar) : Scalar :=
  match key.sent with
  | bool value => text (if value then "true" else "false")
  | scalar => text scalar.display

mutual

/-- A value as it is sent. -/
def Value.sent : Value → Value
  | .scalar value => .scalar value.sent
  | .list items => .list (sentItems items)
  | .map fields => .map (Fields.ofEntries (sentFields fields))

def Value.sentItems : List Value → List Value
  | [] => []
  | item :: rest => item.sent :: sentItems rest

def Value.sentFields : List (Scalar × Value) → List (Scalar × Value)
  | [] => []
  | (key, value) :: rest => (key.sentKey, value.sent) :: sentFields rest

end

/-! ## Generating -/

/-- The most sequences and mappings around each other in a form. -/
def formNestingLimit : Nat := 940

/-- The answer to a body that cannot be read at all. -/
def Reply.unreadable : Reply := .detail 400 "There was an error parsing the body"

/-- The request to generate that a body holds, or else the answer that refuses it. -/
def readGenerateRequest (body : List UInt8) : Except Reply GenerateRequest :=
  if body.isEmpty then .error (.invalid [Blame.shown ⟨[], .missing⟩])
  else
    match textOfBytes? body with
    | none => .error .unreadable
    | some text =>
      match Json.readWithin formNestingLimit text with
      | .error (.malformed position) =>
        .error (.invalid [(Text.ofNat position, "JSON decode error")])
      | .error (.value _) => .error .unreadable
      | .ok value =>
        (GenerateRequest.ofValue value).mapError fun blames => .invalid (blames.map Blame.shown)

/-- Checks a request to generate: the name first, then the layers, then the endpoints. -/
def GenerateRequest.accept (request : GenerateRequest) (config : Config) (catalog : Catalog)
    (name : Text) : Except SelectionError (List Endpoint) := do
  config.checkName name
  if !request.layers.any then throw .layerMissingInForm
  catalog.select (.these (request.indices.map .int))

/-- What a generation for the form did, and whether the feature was there before. -/
structure FormOutcome where
  wasThere : Bool
  outcome : Outcome

/-- Generates what a request asks for, extending a feature that is there. -/
def GenerateRequest.run (request : GenerateRequest) (config : Config) (project : Project)
    (name : Text) : Work RunError FormOutcome := do
  match request.accept config project.catalog name with
  | .error error => throw (.selection error)
  | .ok endpoints =>
    let wasThere ← (ask (config.featureExists name)).adapt .work
    let outcome ← generate config project.name name endpoints request.layers .append
    return ⟨wasThere, outcome⟩

/-- The message about a generation. -/
def FormOutcome.message (result : FormOutcome) (name : Text) : Text :=
  if result.outcome.nothingToDo then
    "All selected endpoints already exist in feature \"" ++ name ++ "\". Nothing to do."
  else if result.wasThere then "Feature \"" ++ name ++ "\" updated with new endpoints!"
  else "Feature \"" ++ name ++ "\" generated successfully!"

/-- The answer to a request that has been carried out. -/
def FormOutcome.reply (result : FormOutcome) (config : Config) (name : Text) (layers : Layers) :
    Reply :=
  .ok (.object [("success", .bool true), ("message", .text (result.message name)),
    ("featureName", .text name), ("endpointCount", .nat result.outcome.endpointCount),
    ("location", .text (config.location name)), ("isUpdate", .bool result.wasThere),
    ("generatedLayers", layers.toValue), ("warnings", .texts result.outcome.warnings)])

/-- The answer to a request that has failed. -/
def RunError.reply : RunError → Reply
  | selection error => .error 400 error.message
  | work error => .error 500 ("Failed to generate feature: " ++ error.message)

/-- What the interface offers: its places with their methods and titles. -/
def interfaceDescription : Value :=
  let place (method title : Text) : Value :=
    .object [(method, .object [("summary", .text title)])]
  .object [("openapi", .text "3.1.0"),
    ("info", .object [("title", .text "Flutter Feature Generator"), ("version", .text "0.3.0")]),
    ("paths", .object [("/", place "get" "Index"), ("/api/endpoints", place "get" "List Endpoints"),
      ("/api/generate", place "post" "Generate"), ("/api/swagger/raw", place "get" "Swagger Raw")])]

/-- Carries out a request to generate. -/
def GenerateRequest.answer (request : GenerateRequest) (config : Config) (project : Project) :
    StateM Desk Reply := do
  let name := request.name.trim
  match ← (request.run config project name).run with
  | .ok result => return result.reply config name request.layers
  | .error error => return error.reply

/-- Answers the form. -/
def answerForm (config : Config) (project : Project) (body : List UInt8) : StateM Desk Reply :=
  match readGenerateRequest body with
  | .ok request => request.answer config project
  | .error reply => return reply

/-- Answers a request to a place. -/
def answerRoute (config : Config) (project : Project) (body : List UInt8) :
    Route → StateM Desk Reply
  | .page => return ⟨200, .page formPage⟩
  | .endpoints => return .ok project.catalog.toValue
  | .generate => answerForm config project body
  | .document => return .ok project.document.sent
  | .description => return .ok interfaceDescription

/-- Answers a request. -/
def answerRequest (config : Config) (project : Project) (request : Request) :
    StateM Desk Reply := do
  let method := request.method.upper
  let reply ← match Route.ofTarget? request.target with
    | none => pure (.detail 404 "Not Found")
    | some route =>
      if route.allows method then answerRoute config project request.body route
      else pure (.detail 405 "Method Not Allowed")
  return if method = headMethod then reply.bare else reply

end Scaffold
