import Scaffold.Form.Field
import Scaffold.Project.Generation

/-!
# Requests to generate

The mapping that the form sends: the name of a feature, the numbers of endpoints, and the layers.
What is missing takes its default, and each field has a short name beside the one of the form.
-/

namespace Scaffold

/-- A request to generate a feature. -/
structure GenerateRequest where
  name : Text := []
  indices : List Int := []
  layers : Layers := {}

/-- Reads the parts of the presentation layer. -/
def Components.ofFields (fields : Fields) : Checked Components :=
  (((Checked.accept Components.mk).apply
    (checkField ["bloc"] true checkBool fields)).apply
    (checkField ["screens"] true checkBool fields)).apply
    (checkField ["widgets"] true checkBool fields)

/-- Reads the layers. -/
def Layers.ofFields (fields : Fields) : Checked Layers :=
  ((((Checked.accept Layers.mk).apply
    (checkField ["data"] true checkBool fields)).apply
    (checkField ["domain"] true checkBool fields)).apply
    (checkField ["presentation"] true checkBool fields)).apply
    (checkField ["presentationComponents", "presentation_components"] {}
      (checkMapping Components.ofFields) fields)

/-- Reads layers from a value. -/
def Layers.ofValue : Value → Checked Layers := checkMapping Layers.ofFields

/-- Reads a request. -/
def GenerateRequest.ofFields (fields : Fields) : Checked GenerateRequest :=
  (((Checked.accept GenerateRequest.mk).apply
    (checkField ["featureName", "feature_name"] [] checkText fields)).apply
    (checkField ["selectedIndices", "selected_indices"] [] checkIntegers fields)).apply
    (checkField ["layers"] {} Layers.ofValue fields)

/-- Reads a request from a value. -/
def GenerateRequest.ofValue : Value → Checked GenerateRequest :=
  checkMapping GenerateRequest.ofFields

/-- The layers as a value. -/
def Layers.toValue (layers : Layers) : Value :=
  .object [("data", .bool layers.data), ("domain", .bool layers.domain),
    ("presentation", .bool layers.presentation),
    ("presentationComponents", .object [("bloc", .bool layers.components.bloc),
      ("screens", .bool layers.components.screens),
      ("widgets", .bool layers.components.widgets)])]

end Scaffold
