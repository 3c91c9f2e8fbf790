import Fala.Bridge.Operations
import Fala.Driver.Adapters
import Fala.Driver.Maintenance
import Fala.Durable.Session
import Fala.Journal.Homeostat

/-! One execution of a process by the driver. -/

namespace Fala.Driver
open Durable Journal
open Bridge (setMember)

/-- What an adapter hands back. -/
structure EffectorResult where
  success : Bool
  outputJson : Text := .braces
  stdout : String := ""
  stderr : String := ""
  returncode : Int := -1
  waiting : Bool := false
  homeostatId : String := ""
  metadataJson : Text := .braces
  error : AdapterError := {}
  deriving DecidableEq

/-- An operator asks for the cancellation of a process whose child is running. -/
structure CancelRequest where
  actor : String
  at_ : String
  errorJson : Text
  idempotencyKey : String
  killed : Bool
  deriving DecidableEq

/-- What happens outside the journal: whether child processes can be started, what an adapter
    answers to a claimed row and whether it is cancelled meanwhile, and when a backoff ends. -/
structure Outside where
  processHost : Bool
  execute : ProcessRow → AdapterSpec → EffectorResult
  cancels : ProcessRow → AdapterSpec → Option CancelRequest
  backoffDue : ProcessRow → String → Except String String

structure DriverResult where
  idle : Bool := false
  completed : Bool := false
  waiting : Bool := false
  failed : Bool := false
  timedOut : Bool := false
  cancelled : Bool := false
  ticks : Nat := 0
  processId : String := ""
  error : AdapterError := {}
  failureRows : List ProcessRow := []
  deriving DecidableEq

/-- `_number` -/
def usageNumber (value : Json) (path : String) : Except String Unit :=
  let refused (negative : Bool) :=
    if negative then .error ("usage.invalid at " ++ path ++ ": must not be negative") else .ok ()
  match value with
  | .float value => refused (value < 0)
  | .int value => refused (value < 0)
  | .uint _ => refused false
  | _ => .error ("usage.invalid at " ++ path ++ ": expected number")

def usageField : String × Json → Except String Unit
  | ("unit", .str unit) =>
    if unit = "" then .error "usage.invalid at /usage/unit: expected nonempty string" else .ok ()
  | ("unit", _) => .error "usage.invalid at /usage/unit: expected nonempty string"
  | (name, value) =>
    if name = "duration_seconds" ∨ name = "input_tokens" ∨ name = "output_tokens" ∨ name = "cost" then
      usageNumber value ("/usage/" ++ name)
    else .error ("usage.invalid at /usage/" ++ name ++ ": unknown field")

/-- `validate_usage_json` -/
def validateUsage (usage : Json) : Except String Unit :=
  match usage with
  | .obj members => do
    members.forM usageField
    if (usage.member "cost").isSome ∧ (usage.member "unit").isNone then
      .error "usage.invalid at /usage/unit: required with cost"
    else .ok ()
  | _ => .error "usage.invalid at /usage: expected object"

/-- `_validate_result_usage` -/
def validateResultUsage (result : EffectorResult) : Except String Unit :=
  match result.outputJson.parse with
  | none => .error "invalid JSON"
  | some output =>
    match output.member "usage" with
    | some usage => validateUsage usage
    | none => .ok ()

/-- The member that records the telemetry of the adapter. -/
def adapterTelemetry (result : EffectorResult) (metadata : Option Json) : Json :=
  let told := [("returncode", Json.int result.returncode), ("stdout", .str result.stdout),
    ("stderr", .str result.stderr)]
  match metadata with
  | some (.obj members) => .obj (told ++ [("metadata", .obj members)])
  | _ => .obj told

/-- `_success_output_json` -/
def successOutputJson (result : EffectorResult) : Text :=
  match result.outputJson.parse with
  | some (.obj members) =>
    if result.metadataJson = .empty then
      .printed (.obj (setMember "adapter" (adapterTelemetry result none) members))
    else
      match result.metadataJson.parse with
      | none => result.outputJson
      | some metadata =>
        .printed (.obj (setMember "adapter" (adapterTelemetry result (some metadata)) members))
  | _ => result.outputJson

/-- The text from the first occurrence of a part on. -/
def fromFirst (part : List Char) : List Char → Option (List Char)
  | [] => none
  | c :: rest => if part.isPrefixOf (c :: rest) then some (c :: rest) else fromFirst part rest

/-- `_cause_code` -/
def causeCode (error : AdapterError) : String :=
  match fromFirst "fep.".toList error.message.toList with
  | none => error.code
  | some found => .ofList (found.takeWhile fun c => c ≠ ' ' ∧ c ≠ ':' ∧ c ≠ '\n' ∧ c ≠ '\t')

/-- `is_contract_violation` -/
def isContractViolation (error : AdapterError) : Bool :=
  error.code ∈ ["adapter_invalid_result", "adapter_missing_output", "usage_invalid",
    "output_schema_invalid"]

/-- `_expected` -/
def expectedOf (error : AdapterError) : String :=
  if error.code = "adapter_missing_output" then "result.json"
  else if error.code = "usage_invalid" then "usage"
  else if error.code = "output_schema_invalid" then "output_schema"
  else "fala result"

inductive Blame where
  | effector
  | correlator
  deriving DecidableEq

def Blame.value : Blame → String
  | .effector => "effector"
  | .correlator => "correlator"

/-- `violation_payload` -/
def violationPayload (processId impulseId : String) (error : AdapterError) (blame : Blame) : Text :=
  .printed (.obj [("blame", .str blame.value), ("code", .str (causeCode error)),
    ("effector", .str processId), ("expected", .str (expectedOf error)),
    ("impulse_id", .str impulseId), ("process_id", .str processId),
    ("received", .str error.message)])

/-- `_record_contract_violation` -/
def recordContractViolation (process : ProcessRow) (actor at_ : String) (error : AdapterError)
    (blame : Blame) : Sql Unit :=
  if isContractViolation error then
    (recordViolation
      { runId := process.runId, processId := process.id, attempt := process.attempt, actor, at_,
        payload := violationPayload process.id process.impulseId error blame,
        impulseId := process.impulseId }).void
  else pure ()

/-- `_row_claimable` -/
def rowClaimable (process : ProcessRow) (now : String) : Bool :=
  if process.status = .running then process.leaseOwner ≠ "" ∧ leaseExpired process now
  else process.attempt < process.maxAttempts ∧
    (process.status = .ready ∨ (process.status = .retryWait ∧ process.availableAt ≤ now))

/-- `_row_before` -/
def rowBefore (a b : ProcessRow) : Bool :=
  if a.priority ≠ b.priority then b.priority < a.priority
  else if a.availableAt ≠ b.availableAt then a.availableAt < b.availableAt
  else if a.createdAt ≠ b.createdAt then a.createdAt < b.createdAt
  else a.id < b.id

/-- `_retry_due`. A backoff is counted in `Float64` seconds and added by SQLite's clock. -/
def retryDue (outside : Outside) (process : ProcessRow) (now : String) : Except String String :=
  if ¬ mentions process.metadata.spelling "\"base_seconds\"" ∧
      ¬ mentions process.metadata.spelling "\"max_seconds\"" then .ok now
  else outside.backoffDue process now

/-- A claim of the driver: who makes it, when, and until when it is leased. -/
structure Worker where
  id : String
  now : String
  leaseExpiresAt : String
  deriving DecidableEq

section
variable (digest : Json → String) (outside : Outside) (worker : Worker)

/-- The row failed by the driver, and the result that reports it. -/
def failClaimed (claimed : ProcessRow) (error : AdapterError) : Sql DriverResult := do
  let stored ← failProcess claimed.runId claimed.id worker.id worker.now (adapterErrorJson error)
  return { failed := true, ticks := 1, processId := claimed.id, error, failureRows := [stored] }

/-- A contract violation, recorded before the row is failed. -/
def failViolating (claimed : ProcessRow) (error : AdapterError) : Session Database DriverResult := do
  .program (recordContractViolation claimed worker.id worker.now error .effector)
  .program (failClaimed worker claimed error)

/-- The park of a row whose adapter waits for a decision. -/
def parkClaimed (claimed : ProcessRow) (result : EffectorResult) : Sql DriverResult := do
  let _ ← parkHomeostatProcess
    { runId := claimed.runId, homeostatId := result.homeostatId, processId := claimed.id,
      actor := worker.id, at_ := worker.now, outputJson := result.outputJson,
      metadataJson := result.metadataJson, idempotencyKey := "homeostat.open:" ++ result.homeostatId }
  return { waiting := true, ticks := 1, processId := claimed.id, error := result.error }

/-- Only the refusal of the output is handled; any other error goes on to the caller. -/
def completeClaimed (claimed : ProcessRow) (result : EffectorResult) : Session Database DriverResult :=
  match validateResultUsage result with
  | .error detail => failViolating worker claimed ⟨"usage_invalid", detail⟩
  | .ok () =>
    Session.handle
      (do
        let _ ← .program (completeProcess digest claimed.runId claimed.id worker.id worker.now
          (successOutputJson result) .braces)
        return { completed := true, ticks := 1, processId := claimed.id })
      fun detail =>
        if mentions detail "output does not match output_schema_json" then
          failViolating worker claimed ⟨"output_schema_invalid", detail⟩
        else .raise detail

def failureOf (result : EffectorResult) : AdapterError :=
  if result.error.isOk then ⟨"adapter_failed", "effector returned success=false without an error"⟩
  else result.error

/-- An envelope that the parent wraps around a native function is the correlator's. -/
def blameOf (adapter : AdapterSpec) (failure : AdapterError) : Blame :=
  if adapter.kind = .nativeFunction ∧ failure.code = "adapter_invalid_result" then .correlator
  else .effector

/-- The transition of a row whose execution failed. -/
def settleFailure (claimed : ProcessRow) (adapter : AdapterSpec) (result : EffectorResult) :
    Session Database DriverResult := do
  let failure := failureOf result
  let timedOut : Bool := failure.code = "timeout" ∨ failure.code = "adapter_timeout"
  .program (recordContractViolation claimed worker.id worker.now failure (blameOf adapter failure))
  let retries : Bool := automaticRetryAllowed claimed.metadata ∧ claimed.attempt < claimed.maxAttempts
  let due ← .of (if retries then retryDue outside claimed worker.now else .ok worker.now)
  let stored ← .program (
    if retries then
      retryProcess claimed.runId claimed.id worker.id worker.now due (adapterErrorJson failure)
    else if timedOut then
      timeoutProcess claimed.runId claimed.id worker.id worker.now (adapterErrorJson failure)
    else failProcess claimed.runId claimed.id worker.id worker.now (adapterErrorJson failure))
  return { failed := !timedOut, timedOut, ticks := 1, processId := claimed.id, error := failure,
           failureRows := [stored] }

/-- What follows the answer of an adapter. -/
def settleResult (claimed : ProcessRow) (adapter : AdapterSpec) (result : EffectorResult) :
    Session Database DriverResult :=
  if result.waiting then .program (parkClaimed worker claimed result)
  else if result.success ∧ result.error.isOk then completeClaimed digest worker claimed result
  else settleFailure outside worker claimed adapter result

def signalEvent (kind signal at_ actor processId : String) : EventInput where
  id := "process.cancel." ++ kind ++ ":" ++ processId
  eventType := "process.cancel." ++ kind
  payload := .printed (.obj [("signal", .str signal)])
  createdAt := at_
  processId
  actor

/-- `wait_durable_subprocess` for a child that was asked to end; whether the operator's request
    reached the row decides what the polling driver reads. -/
def waitDurableSubprocess (claimed : ProcessRow) (request : CancelRequest) : Session Database Bool := do
  Session.handle
    (.program (requestCancelProcess claimed.runId claimed.id request.actor request.at_
      request.errorJson request.idempotencyKey).void)
    fun _ => pure ()
  let polled ← .program (getProcess claimed.runId claimed.id)
  if polled.status ≠ .cancelRequested then return false
  else
    .program (appendEvent claimed.runId ""
      (signalEvent "signal" "SIGTERM" worker.now worker.id claimed.id)).void
    if request.killed then
      .program (appendEvent claimed.runId ""
        (signalEvent "escalation" "SIGKILL" worker.now worker.id claimed.id)).void
    let current ← .program (getProcess claimed.runId claimed.id)
    if current.status = .cancelled then return true
    else
      .program (cancelProcess claimed.runId claimed.id worker.id worker.now
        (.printed (.obj [("code", .str "operator_cancelled")]))).void
      return true

/-- The execution of a claimed row. -/
def executeClaimed (claimed : ProcessRow) (adapter : AdapterSpec) : Session Database DriverResult :=
  let finish := settleResult digest outside worker claimed adapter (outside.execute claimed adapter)
  if adapter.kind ≠ .subprocess then finish
  else
    match outside.cancels claimed adapter with
    | none => finish
    | some request => do
      if ← waitDurableSubprocess worker claimed request then
        return { cancelled := true, ticks := 1, processId := claimed.id }
      else finish

/-- `drive_once` -/
def driveOnce (process : ProcessRow) (adapter : AdapterSpec) : Session Database DriverResult := do
  let preflight := adapter.preflight outside.processHost
  .require (worker.id ≠ "") "driver: worker_id must not be empty"
  let claimed ← .program (claimProcess process.runId process.id
    { workerId := worker.id, now := worker.now, leaseExpiresAt := worker.leaseExpiresAt })
  if ¬ preflight.isOk then .program (failClaimed worker claimed preflight)
  else executeClaimed digest outside worker claimed adapter

end
end Fala.Driver
