import Scaffold.Document.Value

/-!
# Endpoints

One operation of an HTTP interface: a method on a path, with its parameters, its body and its
responses.
-/

namespace Scaffold

/-- A parameter of an endpoint; `type` is the type it has in generated signatures. -/
structure Parameter where
  name : Text
  location : Text
  required : Bool := false
  type : Text
  description : Option Text := none

/-- A JSON request body. -/
structure Body where
  required : Bool := false
  schema : Option Fields := none

/-- What an endpoint answers under one status. -/
structure Response where
  description : Text := []
  schema : Option Fields := none

/-- A method on a path. -/
abbrev EndpointKey := Text × Text

/-- One operation of an HTTP interface. -/
structure Endpoint where
  path : Text
  method : Text
  summary : Text := []
  operationId : Option Text := none
  parameters : List Parameter := []
  body : Option Body := none
  responses : List (Text × Response) := []

namespace Endpoint

/-- The identity of an endpoint. -/
def key (endpoint : Endpoint) : EndpointKey := (endpoint.method, endpoint.path)

/-- The parameters that are sent in one place, in order. -/
def parametersIn (endpoint : Endpoint) (location : Text) : List Parameter :=
  endpoint.parameters.filter fun parameter => parameter.location == location

/-- The statuses that mean success, the first one declared counting. -/
def successStatuses : List Text := ["200", "201", "204"]

/-- The response of the first success status that the endpoint declares. -/
def success? (endpoint : Endpoint) : Option Response :=
  successStatuses.findSome? fun status => endpoint.responses.lookup status

/-- The schema of the success response. -/
def responseSchema? (endpoint : Endpoint) : Option Fields := endpoint.success?.bind (·.schema)

end Endpoint

end Scaffold
