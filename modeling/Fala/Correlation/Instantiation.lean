import Fala.Correlation.Conditions
import Fala.Json.Wire

/-! The inputs that are authored for a declared path. -/

namespace Fala.Correlation
open Json Schema

structure CorrelationInputField where
  key : String
  valueJson : Text
  deriving DecidableEq

/-- The keys that authored input must not use. -/
def reservedInputKeys : List String :=
  ["adapter", "config", "conduction", "upstream_reactions", "regulation", "__correlation_config",
    "__correlation_output_schema", "__correlation_conduction", "__correlation_timeout_seconds"]

def checkInputFields (seen : List String) : List CorrelationInputField → Except String Unit
  | [] => return ()
  | field :: rest => do
    ensure (field.key ≠ "") "correlation input key must not be empty"
    ensure (¬ seen.contains field.key) ("correlation input key is duplicated: " ++ field.key)
    ensure (¬ reservedInputKeys.contains field.key) ("correlation input uses reserved key: " ++ field.key)
    checkInputFields (seen ++ [field.key]) rest

/-- `validate_correlation_inputs` -/
def validateCorrelationInputs (fields : List CorrelationInputField) : Except String Unit := checkInputFields [] fields

/-- `validate_correlation_input_json` -/
def validateCorrelationInputJson (inputJson : Text) : Except String Unit := do
  match ← parsed inputJson with
  | .obj members => validateCorrelationInputs (members.map fun m => ⟨m.1, .printed m.2⟩)
  | _ => .error "correlation input must be a JSON object"

end Fala.Correlation
