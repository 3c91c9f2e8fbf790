import Fala.Json.Wire
import Fala.Journal.Transition

namespace Fala.Journal
open Durable

def outputInvalid (detail : String) : String :=
  "journal: output does not match output_schema_json: " ++ detail

section
variable (digest : Json → String)

/-- The output meets the schema of the row, when it has one. -/
def checkOutput (schemaJson outputJson : Text) : Except String Unit :=
  if schemaJson = .empty then .ok ()
  else
    match schemaJson.parse with
    | none => .error (outputInvalid "invalid JSON")
    | some schema =>
      match Protocol.domainPayload digest outputJson with
      | .error detail => .error (outputInvalid detail)
      | .ok output =>
        match Schema.validateValue output schema "/output_json" with
        | .error detail => .error (outputInvalid detail)
        | .ok () => .ok ()

/-- `complete_process` -/
def completeProcess (runId processId workerId completedAt : String) (outputJson errorJson : Text) :
    Sql ProcessRow := do
  requireRun runId
  let current ← getProcess runId processId
  .ofExcept (checkOutput digest current.outputSchemaJson outputJson)
  transitionProcess
    { runId, processId, toStatus := .succeeded, actor := workerId, at_ := completedAt, outputJson,
      errorJson }

end

structure ProcessTransitionResult where
  process : ProcessRow
  submission : CommandSubmission
  deriving DecidableEq

/-- The command type that a target needs, for the targets that callers may name. -/
def expectedCommandType : ProcessStatus → Option String
  | .ready => some "process.ready"
  | .succeeded => some "process.complete"
  | .failed => some "process.fail"
  | .retryWait => some "process.retry"
  | .waiting => some "process.wait"
  | .cancelRequested => some "process.cancel_requested"
  | .skipped => some "process.skip"
  | .cancelled => some "process.cancel"
  | .timedOut => some "process.timeout"
  | .pending | .running => none

/-- The arguments of `transition_process_with_command`. -/
structure CommandTransition where
  runId : String
  processId : String
  target : ProcessStatus
  command : CommandRow
  outputJson : Text := .braces
  errorJson : Text := .braces
  availableAt : String := ""
  inputJson : Text := .empty
  events : List EventInput := []
  deriving DecidableEq

namespace CommandTransition

def sameCommand (t : CommandTransition) (storedPayload requestedPayload : Text)
    (stored : CommandRow) : Bool :=
  processIdFromPayload storedPayload "" = t.processId ∧
    processIdFromPayload requestedPayload "" = t.processId ∧ t.processId ≠ "" ∧
    expectedCommandType t.target = some stored.commandType ∧ stored.actor = t.command.actor ∧
    stored.correlationId = t.command.correlationId ∧ stored.causationId = t.command.causationId ∧
    stored.createdAt = t.command.createdAt ∧ storedPayload = requestedPayload

/-- The guard of the target status, with the error it raises. -/
def guard (t : CommandTransition) (current : ProcessRow) : Except String Unit :=
  let owned := current.leaseOwner = "" ∨ current.leaseOwner = t.command.actor
  match t.target with
  | .succeeded | .failed => do
    Schema.ensure (current.status = .running ∨ current.status = .waiting)
      "journal: process not running or waiting"
    Schema.ensure owned leaseHeld
  | .retryWait => do
    Schema.ensure (current.status = .running ∨ current.status = .failed)
      "journal: process cannot be retried"
    Schema.ensure owned leaseHeld
    Schema.ensure (current.attempt < current.maxAttempts) attemptsExhausted
  | .waiting => do
    Schema.ensure (current.status = .running) "journal: process cannot wait"
    Schema.ensure owned leaseHeld
  | .ready => Schema.ensure (current.status = .pending) "journal: process cannot become ready"
  | .cancelRequested | .skipped | .cancelled | .timedOut => do
    Schema.ensure (canTransitionProcess current.status t.target)
      "journal: illegal process cancellation transition"
    Schema.ensure owned leaseHeld
  | .pending | .running =>
    Schema.ensure (¬ current.status.isTerminal) "journal: process status is terminal"

def update (t : CommandTransition) (output error : Text) (row : ProcessRow) : ProcessRow :=
  { row with
    status := t.target
    outputJson :=
      match t.target with
      | .succeeded | .skipped | .waiting => output
      | .failed => .braces
      | _ => row.outputJson
    errorJson :=
      match t.target with
      | .failed | .cancelled | .timedOut | .cancelRequested => error
      | .retryWait => if error ≠ .braces then error else row.errorJson
      | _ => row.errorJson
    availableAt :=
      if t.target = .retryWait then
        if t.availableAt = "" then t.command.createdAt else t.availableAt
      else row.availableAt
    inputJson := if t.target = .ready ∧ t.inputJson ≠ .empty then t.inputJson else row.inputJson
    leaseOwner := ""
    leaseExpiresAt := ""
    finishedAt :=
      if t.target = .retryWait then ""
      else if t.target.isTerminal then t.command.createdAt
      else row.finishedAt
    updatedAt := t.command.createdAt }

/-- The stored command keeps the caller's payload as it was given. -/
def storedCommand (t : CommandTransition) : CommandRow :=
  { t.command with
    payload :=
      if t.command.payload ≠ .empty then t.command.payload
      else .template [("process_id", .quote t.processId)] }

end CommandTransition

def invalidTransitionCommand : String := "journal: invalid process transition command"

/-- The transaction of `transition_process_with_command`; the row read back is the replayed one
    or the updated one. -/
def commandTransitionBody (t : CommandTransition) : Sql CommandSubmission := do
  match ← commandByKey t.runId t.command.idempotencyKey with
  | some stored =>
    let storedPayload ← .ofExcept (canonicalJsonField stored.payload "stored process command")
    let requestedPayload ← .ofExcept (canonicalJsonField t.command.payload "process command")
    .require (t.sameCommand storedPayload requestedPayload stored)
      "journal: transition idempotency conflict"
    let _ ← getProcess t.runId t.processId
    return ⟨stored, [], true⟩
  | none =>
    requireRun t.runId
    let current ← getProcess t.runId t.processId
    let commandProcessId := processIdFromPayload t.command.payload ""
    .require (commandProcessId ≠ "" ∧ commandProcessId = t.processId)
      "journal: transition process_id is required and must match"
    let commandAttempt := processAttemptFromPayload t.command.payload (-1)
    .require (commandAttempt < 0 ∨ current.attempt = commandAttempt)
      "journal: transition attempt conflict"
    .ofExcept (t.guard current)
    let output ← .ofExcept (canonicalJsonField t.outputJson "process output")
    let error ← .ofExcept (canonicalJsonField t.errorJson "process error")
    let _ ← .ofExcept (canonicalJsonField t.storedCommand.payload "process command")
    insertCommand t.storedCommand
    let changes ← updateProcess t.runId t.processId (fun r => r.status = current.status)
      (t.update output error)
    .require (changes = 1) changedConcurrently
    let stored ← appendEvents t.runId t.command t.events
    return ⟨t.command, stored, false⟩

/-- `transition_process_with_command` -/
def transitionProcessWithCommand (t : CommandTransition) : Sql ProcessTransitionResult := do
  .require (t.command.runId = t.runId) "process transition command run_id must match run_id"
  .require (t.command.id ≠ "" ∧ t.command.idempotencyKey ≠ "" ∧ t.command.createdAt ≠ "")
    "journal: command id, idempotency_key, and created_at must not be empty"
  .require (expectedCommandType t.target = some t.command.commandType) invalidTransitionCommand
  let submission ← .transact ("journal: transition_process_with_command failed: " ++ ·)
    (commandTransitionBody t)
  let process ← getProcess t.runId t.processId
  return ⟨process, submission⟩

def readyCommand (runId processId createdAt : String) : CommandRow where
  runId
  id := "process.ready:" ++ processId
  commandType := "process.ready"
  idempotencyKey := "process.ready:" ++ processId
  actor := "correlation"
  correlationId := ""
  causationId := ""
  payload := .template [("process_id", .quote processId)]
  createdAt

/-- `advance_correlation_ready` -/
def advanceCorrelationReady (runId processId : String) (inputJson : Text) : Sql ProcessRow := do
  let current ← getProcess runId processId
  let _ ← transitionProcessWithCommand
    { runId, processId, target := .ready, inputJson,
      command := readyCommand runId processId current.createdAt }
  getProcess runId processId

end Fala.Journal
