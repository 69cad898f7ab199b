import Scaffold.Dart.Imports
import Scaffold.Dart.Signature

/-!
# Class files

Six of the generated files hold one class with one member for each endpoint: the HTTP service, the
data source and the repository with their implementations, and the use cases. They share one shape,
`ClassFile.render`: imports, the opening of the class, the members, the closing brace.
-/

namespace Scaffold

/-- The kinds of files that hold one class with one member for each endpoint. -/
inductive ClassFile
  | service
  | source
  | sourceImpl
  | repositoryImpl
  | repository
  | useCases
  deriving DecidableEq

/-- The verbs that the HTTP client has annotations for. -/
def annotatedVerbs : List Text := ["GET", "POST", "PUT", "DELETE", "PATCH"]

namespace Endpoint

/-- The verb in the endpoint's annotation; unknown verbs are annotated as `GET`. -/
def annotatedVerb (endpoint : Endpoint) : Text :=
  if annotatedVerbs.contains endpoint.method.upper then endpoint.method.upper else "GET"

/-- The annotation that marks the endpoint's method in the service file. -/
def annotation (endpoint : Endpoint) : Text :=
  "@" ++ endpoint.annotatedVerb ++ "(\"" ++ endpoint.path ++ "\")"

/-- The type of a result or an error. -/
def eitherType (endpoint : Endpoint) : Text := "Either<Error, " ++ endpoint.returnType ++ ">"

/-- The head of a method that returns a future of `result`. -/
def futureOf (endpoint : Endpoint) (result : Text) : Text :=
  "  Future<" ++ result ++ "> " ++ endpoint.methodName

/-- The method's name applied to its arguments. -/
def call (endpoint : Endpoint) : Text :=
  endpoint.methodName ++ "(" ++ endpoint.callArguments ++ ")"

end Endpoint

namespace Feature

/-- The import path of a file of the feature. -/
def fileImport (feature : Feature) (folder ending : Text) : Text :=
  feature.package ++ "/" ++ folder ++ "/" ++ feature.name ++ ending

def serviceImport (feature : Feature) : Text :=
  feature.fileImport "data/remote/service" "_service.dart"

def sourceImport (feature : Feature) : Text :=
  feature.fileImport "data/remote/source" "_source.dart"

def repositoryImport (feature : Feature) : Text :=
  feature.fileImport "domain/repository" "_repository.dart"

def useCasesImport (feature : Feature) : Text :=
  feature.fileImport "domain/usecase" "_usecase.dart"

def blocImport (feature : Feature) : Text :=
  feature.fileImport "presentation/bloc" "_bloc.dart"

end Feature

/-- The import path of the annotations for dependency injection. -/
def injectableImport : Text := "package:injectable/injectable.dart"

/-- The import path of the type of results or errors. -/
def eitherImport : Text := "package:dartz/dartz.dart"

/-- Imports with the empty line that follows them, nothing without imports. -/
def importBlock (paths : List Text) : Text :=
  if paths.isEmpty then [] else renderImports paths ++ "\n\n"

namespace ClassFile

/-- The imports that do not depend on the endpoints. -/
def fixedImports (feature : Feature) : ClassFile → List Text
  | service =>
    ["package:dio/dio.dart", injectableImport, "package:retrofit/retrofit.dart"]
  | source => []
  | sourceImpl => [feature.serviceImport, feature.sourceImport, injectableImport]
  | repositoryImpl =>
    [feature.errorImport, feature.sourceImport, feature.repositoryImport, eitherImport,
      injectableImport]
  | repository => [eitherImport, feature.errorImport]
  | useCases => [eitherImport, injectableImport, feature.errorImport, feature.repositoryImport]

/-- The head of a class that implements `interface` on top of one other object. -/
def implementation (interface parameter field : Text) : Text :=
  Text.lines [
    "@Injectable(as: " ++ interface ++ ")",
    "class " ++ interface ++ "Impl implements " ++ interface ++ " \x7b",
    "  " ++ interface ++ "Impl(this." ++ field ++ ");",
    [],
    "  final " ++ parameter ++ " " ++ field ++ ";",
    []]

/-- The text from the end of the imports to the first member. -/
def opening (feature : Feature) : ClassFile → Text
  | service => Text.lines [
      "part '" ++ feature.name ++ "_service.g.dart';",
      [],
      "/// The contract for the " ++ feature.name ++ " remote service.",
      "@RestApi()",
      "@injectable",
      "abstract class " ++ feature.serviceClass ++ " \x7b",
      "  @factoryMethod",
      "  factory " ++ feature.serviceClass ++ "(Dio dio) = _" ++ feature.serviceClass ++ ";",
      []]
  | source => Text.lines [
      "/// The contract for the " ++ feature.name ++ " remote data source.",
      "abstract class " ++ feature.sourceClass ++ " \x7b"]
  | sourceImpl => implementation feature.sourceClass feature.serviceClass feature.serviceField
  | repositoryImpl => implementation feature.repositoryClass feature.sourceClass "remoteDataSource"
  | repository => Text.lines [
      "/// The contract for the " ++ feature.name ++ " repository.",
      "abstract class " ++ feature.repositoryClass ++ " \x7b"]
  | useCases => Text.lines [
      "@injectable",
      "class " ++ feature.useCasesClass ++ " \x7b",
      "  " ++ feature.useCasesClass ++ "(this.repository);",
      [],
      "  final " ++ feature.repositoryClass ++ " repository;",
      []]

/-- The member for one endpoint, without the end of its last line. -/
def member (feature : Feature) (endpoint : Endpoint) : ClassFile → Text
  | service =>
    "  " ++ endpoint.annotation ++ "\n" ++ endpoint.futureOf endpoint.returnType ++ "(" ++
      endpoint.clientParameters ++ ");"
  | source =>
    endpoint.futureOf endpoint.returnType ++ "(" ++ endpoint.typedParameters ++ ");"
  | sourceImpl =>
    "  @override\n" ++ endpoint.futureOf endpoint.returnType ++ "(" ++ endpoint.typedParameters ++
      ") =>\n      " ++ feature.serviceField ++ "." ++ endpoint.call ++ ";"
  | repositoryImpl =>
    "  @override\n" ++ endpoint.futureOf endpoint.eitherType ++ "(" ++ endpoint.typedParameters ++
      ") async \x7b\n" ++
      "    try \x7b\n" ++
      "      final res = await remoteDataSource." ++ endpoint.call ++ ";\n" ++
      "      return right(res);\n" ++
      "    \x7d catch (e) \x7b\n" ++
      "      return left(Error.customErrorType(e.toString()));\n" ++
      "    \x7d\n" ++
      "  \x7d"
  | repository =>
    endpoint.futureOf endpoint.eitherType ++ "(" ++ endpoint.typedParameters ++ ");"
  | useCases =>
    endpoint.futureOf endpoint.eitherType ++ "(" ++ endpoint.typedParameters ++
      ") =>\n      repository." ++ endpoint.call ++ ";"

/-- All imports of the file for the given endpoints. -/
def imports (file : ClassFile) (feature : Feature) (endpoints : List Endpoint) : List Text :=
  (file.fixedImports feature ++ feature.modelImports endpoints).eraseDups

/-- The whole file for the given endpoints. -/
def render (file : ClassFile) (feature : Feature) (endpoints : List Endpoint) : Text :=
  importBlock (file.imports feature endpoints) ++ file.opening feature ++
    Text.join "\n\n" (endpoints.map fun endpoint => file.member feature endpoint) ++ "\n\x7d\n"

end ClassFile

end Scaffold
