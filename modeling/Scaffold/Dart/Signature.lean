import Scaffold.Naming.Derived

/-!
# Signatures

The parameters of an endpoint's method: those of its path, those of its query, then the request body.
Four lists are written from them, each by itself: the declared parameters, the names that a call
passes on, the parameters of the HTTP client and named parameters.
-/

namespace Scaffold

/-- Comma-separated parts of a signature. -/
def commas (parts : List Text) : Text := Text.join ", " parts

/-- Comma-separated parts without the empty ones. -/
def joinNonempty (parts : List Text) : Text := commas (parts.filter fun part => !part.isEmpty)

namespace Endpoint

/-- The parameters of the method with their types, those of the query nullable. -/
def typedParts (endpoint : Endpoint) : List Text :=
  (endpoint.parametersIn "path").map (fun p => (p.type ++ " " ++ p.name : Text)) ++
    (endpoint.parametersIn "query").map (fun p => (p.type ++ "? " ++ p.name : Text)) ++
    (if endpoint.body.isSome then [(endpoint.requestModel ++ " params" : Text)] else [])

/-- The declared parameters of the method. -/
def typedParameters (endpoint : Endpoint) : Text := commas endpoint.typedParts

/-- The names that match `typedParts`. -/
def callParts (endpoint : Endpoint) : List Text :=
  (endpoint.parametersIn "path").map (fun p => p.name) ++
    (endpoint.parametersIn "query").map (fun p => p.name) ++
    (if endpoint.body.isSome then [("params" : Text)] else [])

/-- The names passed on in a call. -/
def callArguments (endpoint : Endpoint) : Text := commas endpoint.callParts

/-- The parameters with annotations that tell the HTTP client where to send them. -/
def clientParts (endpoint : Endpoint) : List Text :=
  (endpoint.parametersIn "path").map
      (fun p => ("@Path(\"" ++ p.name ++ "\") " ++ p.type ++ " " ++ p.name : Text)) ++
    (endpoint.parametersIn "query").map
      (fun p => ("@Query(\"" ++ p.name ++ "\") " ++ p.type ++ "? " ++ p.name : Text)) ++
    (if endpoint.body.isSome then [("@Body() " ++ endpoint.requestModel ++ " params" : Text)] else [])

/-- The annotated parameters of the HTTP client's method. -/
def clientParameters (endpoint : Endpoint) : Text := commas endpoint.clientParts

/-- The parameters by name, required unless they are sent in the query. -/
def namedParts (endpoint : Endpoint) : List Text :=
  (endpoint.parametersIn "path").map (fun p => ("required " ++ p.type ++ " " ++ p.name : Text)) ++
    (endpoint.parametersIn "query").map (fun p => (p.type ++ "? " ++ p.name : Text)) ++
    (if endpoint.body.isSome then [("required " ++ endpoint.requestModel ++ " params" : Text)] else [])

/-- The block of named parameters, empty without parameters. -/
def namedParameters (endpoint : Endpoint) : Text :=
  if endpoint.namedParts.isEmpty then []
  else '\x7b' :: commas endpoint.namedParts ++ ['\x7d']

end Endpoint

end Scaffold
