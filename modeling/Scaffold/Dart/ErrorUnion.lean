import Scaffold.Text.Basic

/-!
# The errors of a project

The union of errors that repositories, use cases and states of all features refer to.
-/

namespace Scaffold

/-- The file of the errors shared by all features. -/
def errorUnionFile : Text := Text.lines [
  "import 'package:freezed_annotation/freezed_annotation.dart';",
  [],
  "part 'error.freezed.dart';",
  [],
  "@freezed",
  "class Error with _$Error \x7b",
  "  const factory Error.httpInternalServerError(String errorBody) =",
  "      HttpInternalServerError;",
  [],
  "  const factory Error.httpUnAuthorizedError() = HttpUnAuthorizedError;",
  [],
  "  const factory Error.httpUnknownError(String message) = HttpUnknownError;",
  [],
  "  const factory Error.customErrorType(String message) = CustomErrorType;",
  [],
  "  const factory Error.fileNotFoundError(String filePath) = FileNotFoundError;",
  [],
  "  const factory Error.none() = NoError;",
  "\x7d"]

end Scaffold
