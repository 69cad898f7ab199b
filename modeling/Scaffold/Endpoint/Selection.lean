import Scaffold.Endpoint.Catalog
import Scaffold.Text.Integer
import Scaffold.Text.LetterCase

/-!
# Selections as text

The word `all`, or numbers between commas; empty entries are skipped.
-/

namespace Scaffold

/-- The entries of a list between commas, trimmed, without the empty ones. -/
def listEntries (text : Text) : List Text :=
  ((text.splitOn ',').map Text.trim).filter fun entry => !entry.isEmpty

/-- The selection that a text stands for. -/
def Selection.parse (text : Text) : Except SelectionError Selection :=
  let text := text.trim
  if text.lower = "all" then .ok .all
  else
    match (listEntries text).mapM Text.toInt? with
    | some indices => .ok (.these (indices.map .int))
    | none => .error (.indicesInvalid text)

/-- The message for a refused selection. -/
def SelectionError.message : SelectionError → Text
  | nameMissing => "Feature name is required"
  | nameRestricted name =>
    "\"" ++ name ++ "\" is a restricted name. Please choose a different name."
  | nameInvalid name =>
    "Invalid feature name: " ++ name ++ ". Use snake_case (e.g., user_management)"
  | indicesInvalid text =>
    "Invalid endpoint indices: " ++ text ++
      ". Use comma-separated numbers (e.g., 1,3,5) or \"all\""
  | indexInvalid shown count =>
    "Invalid endpoint index " ++ shown ++ " (valid range: 1-" ++ Text.ofNat count ++ ")"
  | nothingSelected => "At least one endpoint must be selected"
  | layerMissing => "Please select at least one layer to generate"
  | layerMissingInForm => "At least one layer must be selected"

end Scaffold
