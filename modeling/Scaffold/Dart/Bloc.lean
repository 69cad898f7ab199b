import Scaffold.Dart.ClassFile

/-!
# The state container

The bloc with its events and its state. Events are the cases of one union, states are the fields of
one class; the plain style has a class of its own for each event and each state instead.
-/

namespace Scaffold

/-! ## Members of the union style -/

/-- The case of the event union for one endpoint. -/
def eventCase (feature : Feature) (endpoint : Endpoint) : Text :=
  "  const factory " ++ feature.eventClass ++ "." ++ endpoint.eventName ++ "(" ++
    endpoint.namedParameters ++ ") = " ++ endpoint.eventName.pascal ++ ";"

/-- The branch that hands an event to its handler. -/
def whenCase (endpoint : Endpoint) : Text :=
  "        " ++ endpoint.eventName ++ ": (" ++ endpoint.callArguments ++ ") => " ++
    endpoint.handlerName ++ "(" ++ joinNonempty [endpoint.callArguments, "emit"] ++ "),"

/-- The type of the field that holds the last response, nullable if it is known. -/
def stateFieldType (endpoint : Endpoint) : Text :=
  if endpoint.returnType = Endpoint.anyType then endpoint.returnType else endpoint.returnType ++ "?"

/-- The field of the state for one endpoint. -/
def stateField (endpoint : Endpoint) : Text :=
  "    @Default(null) " ++ stateFieldType endpoint ++ " " ++ endpoint.stateField ++ ","

/-- The parameter through which a handler emits states. -/
def emitterParameter (feature : Feature) : Text := "Emitter<" ++ feature.stateClass ++ "> emit"

/-- The handler for one endpoint. -/
def blocHandler (feature : Feature) (endpoint : Endpoint) : Text :=
  "  Future<void> " ++ endpoint.handlerName ++ "(" ++
    joinNonempty [endpoint.typedParameters, emitterParameter feature] ++ ") async \x7b\n" ++
  "    emit(state.copyWith(isLoading: true, error: const Error.none()));\n" ++
  "\n" ++
  "    final result = await _useCases." ++ endpoint.call ++ ";\n" ++
  "\n" ++
  "    result.fold(\n" ++
  "      (error) => emit(state.copyWith(\n" ++
  "        isLoading: false,\n" ++
  "        error: error,\n" ++
  "      )),\n" ++
  "      (response) => emit(state.copyWith(\n" ++
  "        isLoading: false,\n" ++
  "        " ++ endpoint.stateField ++ ": response,\n" ++
  "        error: const Error.none(),\n" ++
  "      )),\n" ++
  "    );\n" ++
  "  \x7d"

/-! ## Files of the union style -/

/-- The imports of the bloc file that do not depend on the endpoints. -/
def blocFixedImports (feature : Feature) : List Text :=
  ["dart:async", "package:flutter_bloc/flutter_bloc.dart",
    "package:freezed_annotation/freezed_annotation.dart", injectableImport, feature.errorImport,
    feature.useCasesImport]

/-- The imports of the bloc file for the given endpoints. -/
def blocImports (feature : Feature) (endpoints : List Endpoint) : List Text :=
  (blocFixedImports feature ++ feature.modelImports endpoints).eraseDups

/-- The bloc file up to the first branch. -/
def blocOpening (feature : Feature) : Text :=
  Text.lines [
    "part '" ++ feature.name ++ "_bloc.freezed.dart';",
    "part '" ++ feature.name ++ "_event.dart';",
    "part '" ++ feature.name ++ "_state.dart';",
    [],
    "@injectable",
    "class " ++ feature.blocClass ++ " extends Bloc<" ++ feature.eventClass ++ ", " ++
      feature.stateClass ++ "> \x7b",
    "  " ++ feature.blocClass ++ "(this._useCases) : super(const " ++ feature.stateClass ++
      "()) \x7b",
    "    on<" ++ feature.eventClass ++ ">((event, emit) async \x7b",
    "      await event.when("]

/-- The bloc file between the last branch and the first handler. -/
def blocMiddle (feature : Feature) : Text :=
  "\n      );\n    \x7d);\n  \x7d\n\n  final " ++ feature.useCasesClass ++ " _useCases;\n\n"

/-- The bloc file. -/
def renderBloc (feature : Feature) (endpoints : List Endpoint) : Text :=
  importBlock (blocImports feature endpoints) ++ blocOpening feature ++
    Text.join "\n" (endpoints.map whenCase) ++ blocMiddle feature ++
    Text.join "\n\n" (endpoints.map (blocHandler feature)) ++ "\n\x7d\n"

/-- A part of the bloc file up to the first line of its class. -/
def partOpening (feature : Feature) (className : Text) : Text :=
  Text.lines [
    "part of '" ++ feature.name ++ "_bloc.dart';",
    [],
    "@freezed",
    "class " ++ className ++ " with _$" ++ className ++ " \x7b"]

/-- The file of the events. -/
def renderEvent (feature : Feature) (endpoints : List Endpoint) : Text :=
  partOpening feature feature.eventClass ++
    Text.join "\n\n" (endpoints.map (eventCase feature)) ++ "\n\x7d\n"

/-- The fields that every state has. -/
def commonStateFields : List Text :=
  ["    @Default(false) bool isLoading,", "    @Default(Error.none()) Error error,"]

/-- The file of the state. -/
def renderState (feature : Feature) (endpoints : List Endpoint) : Text :=
  partOpening feature feature.stateClass ++
    "  const factory " ++ feature.stateClass ++ "(\x7b\n" ++
    Text.join "\n" (commonStateFields ++ endpoints.map stateField) ++
    "\n  \x7d) = _" ++ feature.stateClass ++ ";\n\x7d\n"

/-! ## Declarations of the plain style -/

/-- The pieces of a text between the places of `", "`. -/
def splitCommas : Text → List Text
  | [] => [[]]
  | [c] => [[c]]
  | c :: next :: rest =>
    if c = ',' && next = ' ' then [] :: splitCommas rest
    else match splitCommas (next :: rest) with
      | [] => [[c]]
      | piece :: pieces => (c :: piece) :: pieces

/-- A member of an object. -/
def memberOf (object name : Text) : Text := object ++ "." ++ name

/-- A field that is set once. -/
def finalField (declaration : Text) : Text := "  final " ++ declaration ++ ";"

/-- The class of the event for one endpoint. -/
def plainEventClass (feature : Feature) (endpoint : Endpoint) : Text :=
  let opening := "class " ++ endpoint.plainEvent ++ " extends " ++ feature.eventClass ++ " \x7b"
  if endpoint.callArguments.isEmpty then opening ++ "\x7d"
  else
    opening ++ "\n  " ++ endpoint.plainEvent ++ "(" ++
      commas ((splitCommas endpoint.callArguments).map (memberOf "this")) ++ ");\n\n" ++
      Text.join "\n" ((splitCommas endpoint.typedParameters).map finalField) ++ "\n\x7d"

/-- The class of a state with one field. -/
def plainStateClass (feature : Feature) (name type field : Text) : Text :=
  "class " ++ name ++ " extends " ++ feature.stateClass ++ " \x7b\n" ++
    "  " ++ name ++ "(this." ++ field ++ ");\n\n" ++
    "  final " ++ type ++ " " ++ field ++ ";\n\x7d"

/-- The classes of the loading, success and error states for one endpoint, with their names. -/
def plainStates (feature : Feature) (endpoint : Endpoint) : List (Text × Text) :=
  let loading := endpoint.baseName ++ "LoadingState"
  let success := endpoint.baseName ++ "SuccessState"
  let error := endpoint.baseName ++ "ErrorState"
  [(loading, "class " ++ loading ++ " extends " ++ feature.stateClass ++ " \x7b\x7d"),
    (success, plainStateClass feature success endpoint.returnType "data"),
    (error, plainStateClass feature error "String" "message")]

/-- The line that registers the handler of an event. -/
def plainRegistration (endpoint : Endpoint) : Text :=
  "    on<" ++ endpoint.plainEvent ++ ">(" ++ endpoint.plainHandler ++ ");"

/-- The arguments of a call that come from the fields of an event. -/
def eventArguments (endpoint : Endpoint) : Text :=
  if endpoint.callArguments.isEmpty then []
  else commas ((splitCommas endpoint.callArguments).map (memberOf "event"))

/-- The handler of an event. -/
def plainBlocHandler (feature : Feature) (endpoint : Endpoint) : Text :=
  "  Future<void> " ++ endpoint.plainHandler ++ "(" ++ endpoint.plainEvent ++ " event, " ++
    emitterParameter feature ++ ") async \x7b\n" ++
  "    emit(" ++ endpoint.baseName ++ "LoadingState());\n" ++
  "\n" ++
  "    final result = await _useCases." ++ endpoint.methodName ++ "(" ++ eventArguments endpoint ++
    ");\n" ++
  "\n" ++
  "    result.fold(\n" ++
  "      (error) => emit(" ++ endpoint.baseName ++ "ErrorState(error.toString())),\n" ++
  "      (response) => emit(" ++ endpoint.baseName ++ "SuccessState(response)),\n" ++
  "    );\n" ++
  "  \x7d"

end Scaffold
