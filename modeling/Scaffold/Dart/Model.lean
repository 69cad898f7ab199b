import Scaffold.Dart.Type
import Scaffold.Document.Display
import Scaffold.Naming.Words

/-!
# Models

The class of a request or response body. Required properties have to be passed, all others have a
default, so every model can be built. A schema without properties gives an envelope with a message.
-/

namespace Scaffold

/-- The texts that a schema lists as required. -/
def requiredNames (schema : Fields) : List Text :=
  match schema.get "required" with
  | .list names => names.filterMap (·.text?)
  | _ => []

/-- The field for one property. -/
def propertyField (required : List Text) (name : Scalar) (schema : Value) : Text :=
  let type := (FieldType.ofSchema schema).text
  let isRequired := match name with
    | .text name => required.contains name
    | _ => false
  if isRequired then "    required " ++ type ++ " " ++ name.display ++ ","
  else "    @Default(" ++ defaultLiteral type ++ ") " ++ type ++ " " ++ name.display ++ ","

/-- The fields for the properties of a schema. -/
def propertyFields (schema : Fields) : List Text :=
  match schema.get "properties" with
  | .map properties =>
    properties.map fun property => propertyField (requiredNames schema) property.1 property.2
  | _ => []

/-- Whether the names of all properties of a schema can be shown. -/
def hasShowableNames (schema : Fields) : Bool :=
  match schema.get "properties" with
  | .map properties => properties.all fun property => property.1.isShowable
  | _ => true

/-- The fields of a body without properties. -/
def envelopeFields (isResponse : Bool) : List Text :=
  "    @Default(\"\") String message," :: "    @Default(true) bool success," ::
    (if isResponse then ["    @Default(null) dynamic data,"] else [])

/-- The fields of a model: the properties of its schema, or the envelope if it has none. -/
def modelFields (schema : Option Fields) (isResponse : Bool) : List Text :=
  let fields := (schema.map propertyFields).getD []
  if fields.isEmpty then envelopeFields isResponse else fields

/-- The file of a model. -/
def renderModel (name : Text) (schema : Option Fields) (isResponse : Bool) : Text :=
  Text.lines [
    "import 'package:freezed_annotation/freezed_annotation.dart';",
    [],
    "part '" ++ name.snake ++ ".freezed.dart';",
    "part '" ++ name.snake ++ ".g.dart';",
    [],
    "@freezed",
    "class " ++ name ++ " with _$" ++ name ++ " \x7b",
    "  const factory " ++ name ++ "(\x7b",
    Text.join "\n" (modelFields schema isResponse),
    "  \x7d) = _" ++ name ++ ";",
    [],
    "  factory " ++ name ++ ".fromJson(Map<String, dynamic> json) =>",
    "      _$" ++ name ++ "FromJson(json);",
    "\x7d"]

end Scaffold
