import Scaffold.Dart.Type
import Scaffold.Document.Fault
import Scaffold.Endpoint.Catalog
import Scaffold.Text.LetterCase

/-!
# Extraction

The endpoints of an OpenAPI document. Extraction is all or nothing: the first fault that is met
refuses the whole document. Entries of a path item whose name is no supported verb are skipped
whatever they hold.
-/

namespace Scaffold

/-- Why a document is refused. The texts say which operation is at fault. -/
inductive ExtractionError
  | documentKind
  | pathsMissing
  | componentsKind
  | schemasKind
  | pathItemKind (path : Text)
  | operationKind (operation : Text)
  | tagsKind (operation : Text)
  | parametersKind (operation : Text)
  | parameterIncomplete (operation : Text)
  | bodyKind (operation : Text)
  | responsesKind (operation : Text)
  | responseKind (operation status : Text)
  | contentKind (operation : Text)
  | mediaKind (operation : Text)
  | schemaKind (operation : Text)
  | fieldKinds (operation model : Text) (faults : List (Text × Text))
  | notLookedUp (kind : Text)
  | value (fault : ValueFault)

/-- The verbs of the endpoints that are extracted. -/
def supportedVerbs : List Text := ["get", "post", "put", "delete", "patch"]

/-- What a reference to a component schema starts with. -/
def schemaReference : Text := "#/components/schemas/"

/-- The tag of endpoints that declare none. -/
def defaultTag : Text := "default"

/-- A schema after following one reference to a component schema. Null stands for no schema. -/
def resolveReference (schemas : Fields) : Value → Except ExtractionError Value
  | .scalar .null => .ok .null
  | .map schema =>
    match (Fields.get schema "$ref").text?.bind (Text.after? schemaReference) with
    | some name => .ok (schemas.get name)
    | none => .ok (.map schema)
  | value => .error (.notLookedUp value.kind)

/-- The type of a parameter with the given schema. -/
def parameterTypeOf (schema : Value) : Except ExtractionError Text :=
  match schema with
  | .map fields => .ok (parameterType fields)
  | value => if value.isAbsent then .ok "String" else .error (.notLookedUp value.kind)

/-- The entries of a mapping, none where a value counts as absent. -/
def fieldsOr (error : ExtractionError) (value : Value) : Except ExtractionError Fields :=
  match value with
  | .map fields => .ok fields
  | value => if value.isAbsent then .ok [] else .error error

/-- A key as it is shown. -/
def shownKey (key : Scalar) : Except ExtractionError Text := key.shown.mapError .value

/-- The fault of a field that has to be a text. -/
def textFault (name : Text) (value : Value) : List (Text × Text) :=
  if value.text?.isSome then [] else [(name, "string_type")]

/-- The fault of a field that has to be a text or null. -/
def optionalTextFault (name : Text) (value : Value) : List (Text × Text) :=
  if value.isNull then [] else textFault name value

/-- A text where an absent value counts as the empty one. -/
def textOrEmpty (value : Value) : Value := if value.isAbsent then .text [] else value

section

variable (operation : Text) (schemas : Fields)

/-- The JSON schema of a body or response, after following one reference. -/
def jsonSchema (container : Fields) : Except ExtractionError Value := do
  let content ← fieldsOr (.contentKind operation) (container.get "content")
  let media ← fieldsOr (.mediaKind operation) (content.get "application/json")
  match media.get "schema" with
  | .scalar .null => resolveReference schemas .null
  | .map schema => resolveReference schemas (.map schema)
  | _ => .error (.schemaKind operation)

/-- The schema of a body or response; what a reference leads to has to be a mapping or null. -/
def schemaFault (value : Value) : List (Text × Text) :=
  match value with
  | .scalar .null => []
  | .map _ => []
  | _ => [("json_schema", "dict_type")]

/-- One parameter. -/
def extractParameter (value : Value) : Except ExtractionError Parameter :=
  match value with
  | .map fields =>
    match Fields.get? fields "name", Fields.get? fields "in" with
    | some name, some location => do
      let type ← parameterTypeOf (Fields.get fields "schema")
      let description := Fields.get fields "description"
      match name.text?, location.text?, optionalTextFault "description" description with
      | some name, some location, [] =>
        .ok ⟨name, location, (Fields.present? fields "required").isSome, type, description.text?⟩
      | _, _, fault =>
        .error (.fieldKinds operation "Parameter"
          (textFault "name" name ++ textFault "location" location ++ fault))
    | _, _ => .error (.parameterIncomplete operation)
  | _ => .error (.parameterIncomplete operation)

/-- The parameters of an operation. -/
def extractParameters (value : Value) : Except ExtractionError (List Parameter) :=
  match value with
  | .scalar .null => .ok []
  | .list items => items.mapM (extractParameter operation)
  | _ => .error (.parametersKind operation)

/-- The request body of an operation. -/
def extractBody (value : Value) : Except ExtractionError (Option Body) :=
  match value with
  | .scalar .null => .ok none
  | .map fields => do
    let schema ← jsonSchema operation schemas fields
    match schemaFault schema with
    | [] => .ok (some ⟨(Fields.present? fields "required").isSome, schema.fields?⟩)
    | faults => .error (.fieldKinds operation "RequestBody" faults)
  | _ => .error (.bodyKind operation)

/-- One response of an operation. -/
def extractResponse (status : Scalar) (value : Value) : Except ExtractionError Response :=
  match value with
  | .map fields => do
    let schema ← jsonSchema operation schemas fields
    let description := textOrEmpty (Fields.get fields "description")
    match description.text?, schemaFault schema with
    | some text, [] => .ok ⟨text, schema.fields?⟩
    | _, faults =>
      .error (.fieldKinds operation "ResponseDef" (textFault "description" description ++ faults))
  | _ => do .error (.responseKind operation (← shownKey status))

/-- Puts a response under a status: a status that is there keeps its place. -/
def putResponse (status : Text) (response : Response) :
    List (Text × Response) → List (Text × Response)
  | [] => [(status, response)]
  | entry :: rest =>
    if entry.1 = status then (status, response) :: rest
    else entry :: putResponse status response rest

/-- The responses of an operation under their statuses. -/
def extractResponses (value : Value) : Except ExtractionError (List (Text × Response)) :=
  match value with
  | .scalar .null => .ok []
  | .map fields =>
    fields.foldlM (fun responses field => do
      let response ← extractResponse operation schemas field.1 field.2
      .ok (putResponse (← shownKey field.1) response responses)) []
  | _ => .error (.responsesKind operation)

/-- The texts of a list of texts. -/
def textList? : List Value → Option (List Text)
  | [] => some []
  | value :: rest => do some ((← value.text?) :: (← textList? rest))

/-- The tags that an operation declares. -/
def extractTags (value : Value) : Except ExtractionError (List Text) :=
  match value with
  | .scalar .null => .ok []
  | .list items =>
    match textList? items with
    | some tags => .ok tags
    | none => .error (.tagsKind operation)
  | _ => .error (.tagsKind operation)

/-- The identifier of an operation. -/
def extractId (fields : Fields) : Except ExtractionError (Option Text) :=
  match fields.present? "operationId" with
  | some value => (value.shown.mapError .value).map some
  | none => .ok none

/-- The endpoint of an operation, with the tags it declares. -/
def extractOperation (path : Scalar) (verb : Text) (fields : Fields) :
    Except ExtractionError (Endpoint × List Text) := do
  let tags ← extractTags operation (fields.get "tags")
  let id ← extractId fields
  let parameters ← extractParameters operation (fields.get "parameters")
  let body ← extractBody operation schemas (fields.get "requestBody")
  let responses ← extractResponses operation schemas (fields.get "responses")
  let summary := textOrEmpty (fields.get "summary")
  match path, summary.text? with
  | .text path, some summary =>
    .ok (⟨path, verb, summary, id, parameters, body, responses⟩,
      if tags.isEmpty then [defaultTag] else tags)
  | path, _ =>
    .error (.fieldKinds operation "ApiEndpoint"
      (textFault "path" (.scalar path) ++ textFault "summary" summary))

end

/-- The endpoint of one entry of a path item, none if the entry is no supported verb. -/
def extractEntry (schemas : Fields) (path : Scalar) (entry : Scalar × Value) :
    Except ExtractionError (Option (Endpoint × List Text)) := do
  let verb := (← shownKey entry.1).lower
  if supportedVerbs.contains verb then
    let operation := verb.upper ++ " " ++ (← shownKey path)
    match entry.2 with
    | .map fields => (extractOperation operation schemas path verb fields).map some
    | _ => .error (.operationKind operation)
  else return none

/-- The endpoints of one path item. -/
def extractPathItem (schemas : Fields) (path : Scalar) (value : Value) :
    Except ExtractionError (List (Endpoint × List Text)) :=
  match value with
  | .map entries => do .ok ((← entries.mapM (extractEntry schemas path)).filterMap id)
  | _ => do .error (.pathItemKind (← shownKey path))

/-- The component schemas of a document. -/
def componentSchemas (document : Fields) : Except ExtractionError Fields := do
  let components ← fieldsOr .componentsKind (document.get "components")
  fieldsOr .schemasKind (components.get "schemas")

/-- The endpoints of a document in the order of their operations, with their tags. -/
def extractEndpoints (document : Value) : Except ExtractionError (List (Endpoint × List Text)) :=
  match document with
  | .map fields =>
    match Fields.get fields "paths" with
    | .map paths => do
      let schemas ← componentSchemas fields
      .ok (← List.mapM (fun item => extractPathItem schemas item.1 item.2) paths).flatten
    | _ => .error .pathsMissing
  | _ => .error .documentKind

/-- The catalog with all the given endpoints. -/
def Catalog.ofEndpoints (endpoints : List (Endpoint × List Text)) : Catalog :=
  endpoints.foldl (fun catalog entry => catalog.add entry.1 entry.2) {}

/-- The catalog of a document. -/
def Catalog.ofDocument (document : Value) : Except ExtractionError Catalog :=
  (extractEndpoints document).map Catalog.ofEndpoints

/-- The mark that stands for a report about fields of the wrong kind. -/
def faultReport (model : Text) (faults : List (Text × Text)) : Text :=
  "<ValidationError " ++ model ++ " " ++
    Text.join ", " (faults.map fun fault => fault.1 ++ ":" ++ fault.2) ++ ">"

/-- The message for a refused document. -/
def ExtractionError.message : ExtractionError → Text
  | documentKind => "Specification root must be a mapping"
  | pathsMissing => "Specification has no 'paths' mapping"
  | componentsKind => "'components' must be a mapping"
  | schemasKind => "'components.schemas' must be a mapping"
  | pathItemKind path => "Path item for " ++ path ++ " must be a mapping"
  | operationKind operation => "Operation " ++ operation ++ " must be a mapping"
  | tagsKind operation => operation ++ ": 'tags' must be a list of strings"
  | parametersKind operation => operation ++ ": 'parameters' must be a list"
  | parameterIncomplete operation => operation ++ ": every parameter needs 'name' and 'in'"
  | bodyKind operation => operation ++ ": 'requestBody' must be a mapping"
  | responsesKind operation => operation ++ ": 'responses' must be a mapping"
  | responseKind operation status => operation ++ ": response " ++ status ++ " must be a mapping"
  | contentKind operation => operation ++ ": 'content' must be a mapping"
  | mediaKind operation => operation ++ ": media type 'application/json' must be a mapping"
  | schemaKind operation => operation ++ ": schema must be a mapping"
  | fieldKinds operation model faults => operation ++ ": " ++ faultReport model faults
  | notLookedUp kind => "'" ++ kind ++ "' object has no attribute 'get'"
  | value fault => fault.message

end Scaffold
