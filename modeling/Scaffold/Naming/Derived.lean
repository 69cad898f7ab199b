import Scaffold.Endpoint.Basic
import Scaffold.Naming.Words

/-!
# Names derived from endpoints

Every layer takes its names from `Endpoint.methodName`, so the layers agree: models, events, states
and handlers are named after the method. Without an operation id the method is named after the verb
and the last path segment that is no placeholder.
-/

namespace Scaffold

/-- The word that a method name starts with for a known verb. -/
def verbWord? (verb : Text) : Option Text :=
  if verb = "get" then some "get"
  else if verb = "post" then some "create"
  else if verb = "put" then some "update"
  else if verb = "delete" then some "delete"
  else if verb = "patch" then some "patch"
  else none

/-- Whether a path segment is named: not empty and no placeholder. -/
def isNamedSegment (segment : Text) : Bool :=
  match segment with
  | [] => false
  | c :: _ => c != '\x7b'

/-- The named segments of a path. -/
def namedSegments (path : Text) : List Text := (path.splitOn '/').filter isNamedSegment

namespace Endpoint

/-- The method name of an endpoint without an operation id. -/
def pathMethodName (endpoint : Endpoint) : Text :=
  let verb := endpoint.method.lower
  match (namedSegments endpoint.path).getLast? with
  | none => verb
  | some segment =>
    match verbWord? verb with
    | some word => word ++ segment.pascal
    | none => segment.camel

/-- The name of the method that calls the endpoint. -/
def methodName (endpoint : Endpoint) : Text :=
  match endpoint.operationId with
  | some (c :: rest) => Text.camel (c :: rest)
  | _ => endpoint.pathMethodName

/-- The class name that the names of models, events and states are built on. -/
def baseName (endpoint : Endpoint) : Text := endpoint.methodName.pascal

def requestModel (endpoint : Endpoint) : Text := endpoint.baseName ++ "Request"

def responseModel (endpoint : Endpoint) : Text := endpoint.baseName ++ "Response"

/-- The field of the state that holds the last response. -/
def stateField (endpoint : Endpoint) : Text := endpoint.methodName ++ "Response"

/-- The event that asks for the endpoint to be called. -/
def eventName (endpoint : Endpoint) : Text := endpoint.methodName ++ "Requested"

/-- The private method that handles the event. -/
def handlerName (endpoint : Endpoint) : Text := '_' :: endpoint.methodName

/-- The event's own class, in the style with one class per event. -/
def plainEvent (endpoint : Endpoint) : Text := endpoint.baseName ++ "Event"

/-- The handler of `plainEvent`. -/
def plainHandler (endpoint : Endpoint) : Text := "_on" ++ endpoint.plainEvent

/-- The type of a value about which nothing is known. -/
def anyType : Text := "dynamic"

/-- The type that the method returns: the response model if success has a schema. -/
def returnType (endpoint : Endpoint) : Text :=
  if endpoint.responseSchema?.isSome then endpoint.responseModel else anyType

/-- The models that the signatures mention. -/
def requiredModels (endpoint : Endpoint) : List Text :=
  (if endpoint.body.isSome then [endpoint.requestModel] else []) ++
    (if endpoint.responseSchema?.isSome then [endpoint.responseModel] else [])

/-- Verb and path as shown to the user. -/
def describe (endpoint : Endpoint) : Text := endpoint.method.upper ++ " " ++ endpoint.path

end Endpoint

/-- The file that holds a model. -/
def modelFile (model : Text) : Text := model.snake ++ ".dart"

end Scaffold
