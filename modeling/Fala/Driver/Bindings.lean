import Fala.Bridge.Operations
import Fala.Driver.AllRuns
import Fala.Json.Schema

/-! Adapter bindings in the metadata of the processes that they belong to. -/

namespace Fala.Driver
open Durable Journal

def AdapterKind.ofValue (value : String) : AdapterKind :=
  if value = "subprocess" then .subprocess
  else if value = "manual_homeostat" then .manualHomeostat
  else if value = "native_function" then .nativeFunction
  else if value = "fala_runtime" then .falaRuntime
  else .other value

def Timeout.ofInt (seconds : Int) : Timeout := .finite (float64OfInt seconds)

/-! `adapter_spec_from_json`, a field at a time. -/

def bindingFields : List String := ["kind", "ref", "cwd", "timeout_seconds", "command", "inherit_env", "env"]

def checkFields (members : List (String × Json)) : Except String Unit :=
  match members.find? fun m => m.1 ∉ bindingFields with
  | some m => .error ("adapter binding contains unknown key: " ++ m.1)
  | none => .ok ()

def kindField (members : List (String × Json)) : Except String AdapterKind :=
  match Json.lookup "kind" members with
  | some (.str kind) => .ok (.ofValue kind)
  | _ => .error "adapter binding requires string kind"

def textField (field : String) (members : List (String × Json)) : Except String String :=
  match Json.lookup field members with
  | none => .ok ""
  | some (.str value) => .ok value
  | some _ => .error ("adapter binding " ++ field ++ " must be a string")

def positiveTimeout (timeout : Timeout) : Except String Timeout :=
  if timeout = .finite 0 then .error "adapter binding timeout_seconds must be greater than 0 when provided"
  else .ok timeout

def timeoutField (members : List (String × Json)) : Except String Timeout :=
  match Json.lookup "timeout_seconds" members with
  | none => .ok (.finite 0)
  | some (.float seconds) => positiveTimeout (.finite seconds)
  | some (.int seconds) => positiveTimeout (.ofInt seconds)
  | some (.uint seconds) => positiveTimeout (.ofInt seconds)
  | some _ => .error "adapter binding timeout_seconds must be a number"

def textItems (field : String) : List Json → Except String (List String)
  | [] => .ok []
  | .str value :: rest => (textItems field rest).map (value :: ·)
  | _ :: _ => .error ("adapter binding " ++ field ++ " entries must be strings")

def listField (field : String) (members : List (String × Json)) : Except String (List String) :=
  match Json.lookup field members with
  | none => .ok []
  | some (.arr items) => textItems field items
  | some _ => .error ("adapter binding " ++ field ++ " must be an array")

def textEntries : List (String × Json) → Except String (List (String × String))
  | [] => .ok []
  | (name, .str value) :: rest => (textEntries rest).map ((name, value) :: ·)
  | _ :: _ => .error "adapter binding env values must be strings"

def envField (members : List (String × Json)) : Except String (Dict String String) :=
  match Json.lookup "env" members with
  | none => .ok .empty
  | some (.obj entries) => (textEntries entries).map (Dict.setEach .empty)
  | some _ => .error "adapter binding env must be an object"

def validated (adapter : AdapterSpec) : Except String AdapterSpec :=
  if adapter.validate.isOk then .ok adapter else .error adapter.validate.message

/-- `adapter_spec_from_json` -/
def adapterSpecFromJson : Json → Except String AdapterSpec
  | .obj members => do
    checkFields members
    let kind ← kindField members
    let ref ← textField "ref" members
    let cwd ← textField "cwd" members
    let timeoutSeconds ← timeoutField members
    let command ← listField "command" members
    let inheritEnv ← listField "inherit_env" members
    let env ← envField members
    validated { kind, command, ref, cwd, env, inheritEnv, timeoutSeconds }
  | _ => .error "adapter binding must be a JSON object"

def bindingMarker : String := "__adapter_binding"

/-- `_metadata_with_binding` -/
def metadataWithBinding (metadata : Text) (encoded : Json) : Except String Text :=
  if metadata.spelling = "" then .ok (.printed (.obj [(bindingMarker, encoded)]))
  else
    match metadata.parse with
    | none => .error "driver: process metadata is invalid"
    | some (.obj members) => .ok (.printed (.obj (Bridge.setMember bindingMarker encoded members)))
    | some _ => .ok (.printed (.obj [(bindingMarker, encoded)]))

/-- `_binding_from_metadata` without the ids that it is given. -/
def bindingFromMetadata (metadata : Text) : Except String AdapterSpec :=
  match metadata.parse.bind (Json.member bindingMarker) with
  | none => .error "driver: invalid adapter binding metadata"
  | some value => (adapterSpecFromJson value).mapError fun _ => "driver: invalid adapter binding metadata"

/-- `_binding_metadata_state`: 1 for a marker, 0 when absent, and -1 when malformed. -/
def bindingMetadataState (metadata : Text) : Int :=
  match metadata.parse with
  | some value => if (value.member bindingMarker).isSome then 1 else 0
  | none => if mentions metadata.spelling "\"__adapter_binding\"" then -1 else 0

def encodeBinding (b : AdapterBinding) : Except String (AdapterBinding × Json) :=
  if b.runId = "" ∨ b.processId = "" then .error "driver: binding run_id and process_id must not be empty"
  else if ¬ b.adapter.validate.isOk then .error b.adapter.validate.message
  else
    match b.adapter.json with
    | .ok encoded => .ok (b, encoded)
    | .error _ => .error "driver: encode adapter binding failed"

def existingInvalid : String := "driver: existing adapter binding metadata is invalid"

/-- A binding that the row holds already has to print the same. -/
def checkExisting (row : ProcessRow) (encoded : Json) : Except String Unit := do
  let existing ← bindingFromMetadata row.metadata
  match existing.json with
  | .error _ => .error existingInvalid
  | .ok held => if held = encoded then .ok () else .error "driver: adapter binding conflict for process"

def bindRow (timestamp : String) (b : AdapterBinding) (encoded : Json) : Sql Unit := do
  let row ← getProcess b.runId b.processId
  if bindingMetadataState row.metadata < 0 then .raise existingInvalid
  else if 0 < bindingMetadataState row.metadata then .ofExcept (checkExisting row encoded)
  else do
    let metadata ← .ofExcept (metadataWithBinding row.metadata encoded)
    let changed ← updateProcess b.runId b.processId (fun _ => true) fun p =>
      { p with metadata, updatedAt := timestamp }
    .require (changed = 1) "driver: process not found for adapter binding"

def bindRows (timestamp : String) : List (AdapterBinding × Json) → Sql Unit
  | [] => pure ()
  | (b, encoded) :: rest => do
    bindRow timestamp b encoded
    bindRows timestamp rest

/-- `persist_adapter_bindings` -/
def persistAdapterBindings (bindings : List AdapterBinding) (timestamp : String) : Sql Unit := do
  .require (bindings ≠ [] ∧ timestamp ≠ "") "driver: bindings and timestamp must not be empty"
  let encoded ← .ofExcept (bindings.mapM encodeBinding)
  .transact ("driver: persist adapter bindings failed: " ++ ·) (bindRows timestamp encoded)

def loadRows (runId : String) : List ProcessRow → Except String (List AdapterBinding)
  | [] => .ok []
  | row :: rest =>
    if bindingMetadataState row.metadata < 0 then .error "driver: invalid adapter binding metadata"
    else if 0 < bindingMetadataState row.metadata then do
      let adapter ← bindingFromMetadata row.metadata
      let later ← loadRows runId rest
      return ⟨row.id, adapter, runId⟩ :: later
    else loadRows runId rest

/-- `load_adapter_bindings` -/
def loadAdapterBindings (runId : String) : Sql (List AdapterBinding) := do
  .require (runId ≠ "") "driver: run_id must not be empty"
  .query fun db => loadRows runId
    ((db.processes.rows.filter fun r => r.runId = runId).insertionSort fun left right => left.id ≤ right.id)

end Fala.Driver
