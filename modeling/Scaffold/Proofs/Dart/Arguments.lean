import Scaffold.Dart.Signature
import Scaffold.Proofs.Text.Search

/-!
# Arguments

The four lists that are written for a method have one entry for each of its arguments, in one order:
`Endpoint.typedParts_eq`, `Endpoint.callParts_eq`, `Endpoint.clientParts_eq` and
`Endpoint.namedParts_eq` give each list as a rendering of `Endpoint.arguments`.
-/

namespace Scaffold

/-- Where the value of an argument is sent. -/
inductive Origin
  | path
  | query
  | body
  deriving DecidableEq

/-- An argument of a generated method. -/
structure Argument where
  origin : Origin
  name : Text
  type : Text

namespace Argument

/-- The type of the argument, nullable for a query parameter. -/
def declaredType (argument : Argument) : Text :=
  match argument.origin with
  | .query => argument.type ++ "?"
  | _ => argument.type

/-- The argument in a parameter list. -/
def typed (argument : Argument) : Text := argument.declaredType ++ " " ++ argument.name

/-- The annotation that tells the HTTP client where to send the argument. -/
def annotation (argument : Argument) : Text :=
  match argument.origin with
  | .path => "@Path(\"" ++ argument.name ++ "\")"
  | .query => "@Query(\"" ++ argument.name ++ "\")"
  | .body => "@Body()"

/-- The argument in the parameter list of the HTTP client. -/
def annotated (argument : Argument) : Text := argument.annotation ++ " " ++ argument.typed

/-- The argument in a list of named parameters, required unless it is a query parameter. -/
def named (argument : Argument) : Text :=
  match argument.origin with
  | .query => argument.typed
  | _ => "required " ++ argument.typed

variable (name type : Text)

/-- An argument of the path has its type as it is. -/
theorem typed_path : (⟨.path, name, type⟩ : Argument).typed = type ++ " " ++ name := rfl

/-- An argument of the query has a nullable type. -/
theorem typed_query : (⟨.query, name, type⟩ : Argument).typed = type ++ "? " ++ name := by
  have hsign : ("? " : Text) = "?" ++ " " := Text.literal_append rfl
  rw [hsign, ← List.append_assoc]
  rfl

/-- The body is passed on under one name. -/
theorem typed_body : (⟨.body, "params", type⟩ : Argument).typed = type ++ " params" := by
  have hname : (" params" : Text) = " " ++ "params" := Text.literal_append rfl
  rw [hname, ← List.append_assoc]
  rfl

end Argument

namespace Endpoint

variable (endpoint : Endpoint)

/-- The arguments of the endpoint's method; header and cookie parameters are none. -/
def arguments : List Argument :=
  (endpoint.parametersIn "path").map (fun p => ⟨.path, p.name, p.type⟩) ++
    (endpoint.parametersIn "query").map (fun p => ⟨.query, p.name, p.type⟩) ++
    (if endpoint.body.isSome then [⟨.body, "params", endpoint.requestModel⟩] else [])

/-- What is written for all arguments is written for those of each origin. -/
theorem map_arguments {α : Type} (render : Argument → α) : endpoint.arguments.map render =
    (endpoint.parametersIn "path").map (fun p => render ⟨.path, p.name, p.type⟩) ++
      (endpoint.parametersIn "query").map (fun p => render ⟨.query, p.name, p.type⟩) ++
      (if endpoint.body.isSome then [render ⟨.body, "params", endpoint.requestModel⟩] else []) := by
  rw [arguments, List.map_append, List.map_append, List.map_map, List.map_map]
  cases endpoint.body <;> rfl

/-- The typed parameters are those of the arguments. -/
theorem typedParts_eq : endpoint.typedParts = endpoint.arguments.map (·.typed) := by
  rw [map_arguments]
  simp only [Argument.typed_path, Argument.typed_query, Argument.typed_body]
  rfl

/-- The names in a call are those of the arguments. -/
theorem callParts_eq : endpoint.callParts = endpoint.arguments.map (·.name) := by
  rw [map_arguments]
  rfl

/-- The client's parameters are those of the arguments, with annotations. -/
theorem clientParts_eq : endpoint.clientParts = endpoint.arguments.map (·.annotated) := by
  have hclose : ("\") " : Text) = "\")" ++ " " := Text.literal_append rfl
  have hbody : ("@Body() " : Text) = "@Body()" ++ " " := Text.literal_append rfl
  rw [map_arguments, clientParts, hclose, hbody]
  simp only [Argument.annotated, Argument.annotation, Argument.typed_path, Argument.typed_query,
    Argument.typed_body, List.append_assoc]

/-- The named parameters are those of the arguments. -/
theorem namedParts_eq : endpoint.namedParts = endpoint.arguments.map (·.named) := by
  rw [map_arguments, namedParts]
  simp only [Argument.named, Argument.typed_path, Argument.typed_query, Argument.typed_body,
    List.append_assoc]

/-- The declared parameters, argument by argument. -/
theorem typedParameters_eq :
    endpoint.typedParameters = commas (endpoint.arguments.map (·.typed)) :=
  congrArg commas endpoint.typedParts_eq

/-- The names passed on in a call, argument by argument. -/
theorem callArguments_eq : endpoint.callArguments = commas (endpoint.arguments.map (·.name)) :=
  congrArg commas endpoint.callParts_eq

/-- The parameters of the client's method, argument by argument. -/
theorem clientParameters_eq :
    endpoint.clientParameters = commas (endpoint.arguments.map (·.annotated)) :=
  congrArg commas endpoint.clientParts_eq

/-- The block of named parameters, argument by argument. -/
theorem namedParameters_eq : endpoint.namedParameters =
    if endpoint.arguments.isEmpty then []
    else '\x7b' :: commas (endpoint.arguments.map (·.named)) ++ ['\x7d'] := by
  rw [namedParameters, namedParts_eq, List.isEmpty_map]

end Endpoint

end Scaffold
