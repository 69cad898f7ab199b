import Scaffold.Document.Value

/-!
# Types of model fields

The type of a property follows its schema: lists nest as the schemas of their items do, and all that
is not known is a text. Every type has a default that is not null.
-/

namespace Scaffold

/-- The types that model fields have. -/
inductive FieldType
  | int
  | double
  | bool
  | string
  | map
  | anyList
  | list (item : FieldType)
  deriving DecidableEq, Repr

namespace FieldType

/-- The type as it is written. -/
def text : FieldType → Text
  | int => "int"
  | double => "double"
  | bool => "bool"
  | string => "String"
  | map => "Map<String, dynamic>"
  | anyList => "List<dynamic>"
  | list item => "List<" ++ item.text ++ ">"

/-- The type of a schema with the given keywords, `item` being the type of its items if these have
a schema. A reference stands for a mapping. -/
def ofKeywords (fields : Fields) (item : Option FieldType) : FieldType :=
  if (fields.get? "$ref").isSome then map
  else match (fields.get "type").text? with
    | none => string
    | some word =>
      if word = "integer" then int
      else if word = "number" then double
      else if word = "boolean" then bool
      else if word = "array" then
        match item with
        | some item => list item
        | none => anyList
      else if word = "object" then map
      else string

mutual

/-- The type of a property from its schema; what is no schema is a text. -/
def ofSchema : Value → FieldType
  | .map fields => ofKeywords fields (ofItems fields)
  | _ => string

/-- The type under the keyword for items, if a schema stands there. -/
def ofItems : List (Scalar × Value) → Option FieldType
  | [] => none
  | (key, value) :: rest =>
    if key = .text "items" then
      match value with
      | .map fields => some (ofSchema (.map fields))
      | _ => none
    else ofItems rest

end

end FieldType

/-- The literal that a field of the given type has by default. -/
def defaultLiteral (type : Text) : Text :=
  if type.startsWith "List<" then "[]"
  else if type.startsWith "Map<" then "\x7b\x7d"
  else if type = "int" then "0"
  else if type = "double" then "0.0"
  else if type = "bool" then "false"
  else "\"\""

/-- The type that a parameter has in signatures. -/
def parameterType (schema : Fields) : Text :=
  match (schema.get "type").text? with
  | none => "String"
  | some word =>
    if word = "integer" then "int"
    else if word = "number" then "double"
    else if word = "boolean" then "bool"
    else if word = "array" then "List<String>"
    else "String"

end Scaffold
