import Fala.Durable.Dict
import Fala.Json.Text

/-! Adapters, and which of them the driver can execute. -/

namespace Fala.Driver
open Durable

inductive AdapterKind where
  | subprocess
  | manualHomeostat
  | nativeFunction
  | falaRuntime
  | other (value : String)
  deriving DecidableEq

namespace AdapterKind

def value : AdapterKind → String
  | .subprocess => "subprocess"
  | .manualHomeostat => "manual_homeostat"
  | .nativeFunction => "native_function"
  | .falaRuntime => "fala_runtime"
  | .other value => value

end AdapterKind

structure AdapterError where
  code : String := ""
  message : String := ""
  deriving DecidableEq

namespace AdapterError

def invalid (message : String) : AdapterError := ⟨"invalid_adapter", message⟩

def subprocessTransportUnavailable : AdapterError :=
  ⟨"subprocess_transport_unavailable", "direct argv subprocess transport is not available in this Mojo build; provide a native process host"⟩

def timeoutUnavailable : AdapterError :=
  ⟨"adapter_timeout_unavailable", "positive adapter timeout_seconds cannot be enforced in this Mojo build"⟩

def unsupportedFalaRuntime : AdapterError :=
  ⟨"unsupported_fala_runtime", "fala_runtime is not part of Fala; use subprocess with a separate journal"⟩

def isOk (e : AdapterError) : Bool := e.code = ""

end AdapterError

/-- A `Float64` number of seconds. -/
inductive Timeout where
  | finite (seconds : Rat)
  | infinite (negative : Bool)
  | nan
  deriving DecidableEq

namespace Timeout

def isNegative : Timeout → Bool
  | finite seconds => seconds < 0
  | infinite negative => negative
  | nan => false

def isPositive : Timeout → Bool
  | finite seconds => 0 < seconds
  | infinite negative => !negative
  | nan => false

def isFinite : Timeout → Bool
  | finite _ => true
  | _ => false

end Timeout

/-- `timeout_seconds` is 0 when it is omitted. -/
structure AdapterSpec where
  kind : AdapterKind
  command : List String := []
  ref : String := ""
  cwd : String := ""
  env : Dict String String := .empty
  inheritEnv : List String := []
  timeoutSeconds : Timeout := .finite 0
  deriving DecidableEq

/-- `_has_process_boundary_controls` -/
def hasProcessBoundaryControls (value : String) : Bool :=
  value.toList.any fun c => c = '\x00' ∨ c = '\n' ∨ c = '\x0d'

def isNameStart (c : Char) : Bool := c.isUpper ∨ c.isLower ∨ c = '_'

/-- `_is_environment_name` -/
def isEnvironmentName (value : String) : Bool :=
  match value.toList with
  | [] => false
  | first :: rest => isNameStart first ∧ rest.all fun c => isNameStart c ∨ c.isDigit

/-- `_redacted_env_value` -/
def redactedEnvValue (value : String) : String :=
  if value.startsWith "$\x7benv:" ∧ value.endsWith "\x7d" then value else "<redacted>"

namespace AdapterSpec

/-- The first environment entry that a child process cannot be given. -/
def environmentError : List (String × String) → Option AdapterError
  | [] => none
  | (name, value) :: rest =>
    if ¬ isEnvironmentName name then
      some (.invalid ("subprocess environment name is invalid: " ++ name))
    else if hasProcessBoundaryControls value then
      some (.invalid "subprocess environment values must not contain NUL or newline")
    else environmentError rest

def validateSubprocess (a : AdapterSpec) : AdapterError :=
  if a.command = [] then .invalid "subprocess requires non-empty argv command"
  else if a.ref ≠ "" then .invalid "subprocess cannot define ref"
  else if a.command.head? = some "" then .invalid "subprocess argv[0] must not be empty"
  else if a.command.any hasProcessBoundaryControls then
    .invalid "subprocess argv entries must not contain NUL or newline"
  else if hasProcessBoundaryControls a.cwd then
    .invalid "subprocess cwd must not contain NUL or newline"
  else
    match environmentError a.env.rows with
    | some error => error
    | none =>
      match a.inheritEnv.find? fun name => ¬ isEnvironmentName name with
      | some name => .invalid ("subprocess inherit_env name is invalid: " ++ name)
      | none => {}

def validateManualHomeostat (a : AdapterSpec) : AdapterError :=
  if a.command ≠ [] ∨ a.ref ≠ "" then
    .invalid "manual_homeostat does not accept command or ref"
  else if a.cwd ≠ "" ∨ a.env.rows ≠ [] ∨ a.inheritEnv ≠ [] then
    .invalid "manual_homeostat does not accept cwd or environment"
  else if a.timeoutSeconds ≠ .finite 0 then
    .invalid "manual_homeostat cannot define timeout_seconds"
  else {}

def validateNativeFunction (a : AdapterSpec) : AdapterError :=
  if a.ref = "" then .invalid "function adapter requires ref"
  else if a.command ≠ [] then .invalid "function adapter cannot define command"
  else if a.cwd ≠ "" ∨ a.env.rows ≠ [] ∨ a.inheritEnv ≠ [] then
    .invalid "function adapter does not accept cwd or environment"
  else {}

/-- The checks of `validate` that all kinds share, before those of the kind. -/
def validateTimeout (a : AdapterSpec) (next : AdapterError) : AdapterError :=
  if a.timeoutSeconds.isNegative then .invalid "timeout_seconds must not be negative"
  else if ¬ a.timeoutSeconds.isFinite then .invalid "timeout_seconds must be finite"
  else next

/-- `AdapterSpec.validate` -/
def validate (a : AdapterSpec) : AdapterError :=
  match a.kind with
  | .falaRuntime => .unsupportedFalaRuntime
  | .other value => .invalid ("unknown adapter kind: " ++ value)
  | .subprocess => a.validateTimeout a.validateSubprocess
  | .manualHomeostat => a.validateTimeout a.validateManualHomeostat
  | .nativeFunction => a.validateTimeout a.validateNativeFunction

/-- `_preflight_adapter`. Whether this build has a process host is given. -/
def preflight (processHost : Bool) (a : AdapterSpec) : AdapterError :=
  if ¬ a.validate.isOk then a.validate
  else if a.kind = .subprocess ∧ ¬ processHost then .subprocessTransportUnavailable
  else if a.timeoutSeconds.isPositive ∧ a.kind ≠ .subprocess then .timeoutUnavailable
  else {}

def strings (values : List String) : Json := .arr (values.map .str)

/-- The members of `_adapter_metadata_json`; a positive timeout that is not finite prints no number. -/
def members (a : AdapterSpec) : Option (List (String × Json)) := do
  let timeout ← match a.timeoutSeconds with
    | .finite seconds => some (if 0 < seconds then [("timeout_seconds", Json.float seconds)] else [])
    | .infinite true | .nan => some []
    | .infinite false => none
  return [("kind", .str a.kind.value)] ++ (if a.ref ≠ "" then [("ref", .str a.ref)] else []) ++
    (if a.command ≠ [] then [("command", strings a.command)] else []) ++
    (if a.cwd ≠ "" then [("cwd", .str a.cwd)] else []) ++
    (if a.env.rows ≠ [] then
      [("env", .obj (a.env.rows.map fun entry => (entry.1, .str (redactedEnvValue entry.2))))] else []) ++
    (if a.inheritEnv ≠ [] then [("inherit_env", strings a.inheritEnv)] else []) ++ timeout

/-- `adapter_spec_json` -/
def json (a : AdapterSpec) : Except String Json :=
  match a.members with
  | some members => .ok (Json.obj members).canonical
  | none => .error "json: invalid number"

end AdapterSpec

/-- The text of `_adapter_error_json`. -/
def adapterErrorJson (error : AdapterError) : Text :=
  .printed (.obj [("code", .str error.code), ("message", .str error.message)])

end Fala.Driver
