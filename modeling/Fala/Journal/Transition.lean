import Fala.Journal.Commands

namespace Fala.Journal
open Durable

/-- The arguments of `schedule_process`. -/
structure ProcessSchedule where
  runId : String
  processId : String
  processType : String
  createdAt : String
  inputJson : Text := .braces
  metadata : Text := .braces
  impulseId : String := ""
  priority : Int := 0
  maxAttempts : Int := 1
  availableAt : String := ""
  outputSchemaJson : Text := .braces
  idempotencyKey : String := ""
  actor : String := ""
  deriving DecidableEq

namespace ProcessSchedule

def due (s : ProcessSchedule) : String := if s.availableAt ≠ "" then s.availableAt else s.createdAt

def key (s : ProcessSchedule) : String :=
  if s.idempotencyKey ≠ "" then s.idempotencyKey else "process.schedule:" ++ s.processId

def payload (s : ProcessSchedule) (input metadata : Text) : Text :=
  .template [("process_id", .quote s.processId), ("process_type", .quote s.processType),
    ("input", input), ("metadata", metadata)]

def row (s : ProcessSchedule) (input metadata schema : Text) : ProcessRow where
  runId := s.runId
  id := s.processId
  processType := s.processType
  impulseId := s.impulseId
  status := .ready
  priority := s.priority
  attempt := 0
  maxAttempts := s.maxAttempts
  availableAt := s.due
  leaseOwner := ""
  leaseExpiresAt := ""
  inputJson := input
  outputJson := .braces
  errorJson := .braces
  metadata
  createdAt := s.createdAt
  updatedAt := s.createdAt
  startedAt := ""
  finishedAt := ""
  outputSchemaJson := schema

def command (s : ProcessSchedule) (payload : Text) : CommandRow where
  runId := s.runId
  id := s.key
  commandType := "process.schedule"
  idempotencyKey := s.key
  actor := s.actor
  correlationId := ""
  causationId := ""
  payload
  createdAt := s.createdAt

def event (s : ProcessSchedule) (payload : Text) : EventInput where
  id := s.key ++ ":event"
  eventType := "process.scheduled"
  payload
  createdAt := s.createdAt
  impulseId := s.impulseId
  processId := s.processId
  actor := s.actor

/-- The columns that `schedule_process` compares with a stored row. -/
def sameProcess (s : ProcessSchedule) (input metadata schema : Text) (existing : ProcessRow) :
    Bool :=
  existing.processType = s.processType ∧ existing.impulseId = s.impulseId ∧
    existing.priority = s.priority ∧ existing.maxAttempts = s.maxAttempts ∧
    existing.availableAt = s.due ∧ existing.inputJson = input ∧ existing.metadata = metadata ∧
    existing.createdAt = s.createdAt ∧ existing.outputSchemaJson = schema

end ProcessSchedule

def invalidProcess : String := "journal: invalid process"
def processDiffers : String := "journal: process already exists with different contents"
def schedulingConflict : String := "journal: process scheduling idempotency conflict"

/-- The transaction of `schedule_process`; it names the process to read back. -/
def scheduleBody (s : ProcessSchedule) : Sql String := do
  match ← commandByKey s.runId s.key with
  | some prior =>
    let replayId := processIdFromPayload prior.payload ""
    .require (replayId ≠ "") "journal: schedule replay payload missing process_id"
    return replayId
  | none =>
    let input ← .ofExcept (canonicalJsonField s.inputJson "process input")
    let metadata ← .ofExcept (canonicalJsonField s.metadata "process metadata")
    let schema ← .ofExcept (canonicalJsonField s.outputSchemaJson "process output schema")
    match ← .fetch fun db => db.processes.find? (s.runId, s.processId) with
    | some existing =>
      .require (s.sameProcess input metadata schema existing) processDiffers
      .raise schedulingConflict
    | none =>
      insertProcess (s.row input metadata schema)
      insertCommand (s.command (s.payload input metadata))
      let _ ← appendEventInTx s.runId s.key (s.event (s.payload input metadata))
      return s.processId

/-- `schedule_process` -/
def scheduleProcess (s : ProcessSchedule) : Sql ProcessRow := do
  requireRun s.runId
  .require (s.processId ≠ "" ∧ s.processType ≠ "" ∧ s.createdAt ≠ "" ∧ 1 ≤ s.maxAttempts)
    invalidProcess
  let id ← .transact (reraise ["different contents", "idempotency conflict"]
      ("journal: schedule_process failed: " ++ ·)) (scheduleBody s)
  getProcess s.runId id

/-- `schedule_process_with_command`: the caller supplies the row and the command. -/
def scheduleProcessWithCommand (process : ProcessRow) (command : CommandRow)
    (events : List EventInput) : Sql CommandSubmission := do
  .require (command.runId = process.runId)
    "process.schedule command run_id must match process.run_id"
  .require (command.commandType = "process.schedule")
    "schedule_process requires command_type 'process.schedule'"
  .require (command.id ≠ "" ∧ command.idempotencyKey ≠ "" ∧ command.createdAt ≠ "")
    "journal: command id, idempotency_key, and created_at must not be empty"
  .transact ("journal: schedule_process_with_command failed: " ++ ·) do
    match ← commandByKey command.runId command.idempotencyKey with
    | some stored => return ⟨stored, [], true⟩
    | none =>
      requireRun process.runId
      .require (process.id ≠ "" ∧ process.processType ≠ "" ∧ process.createdAt ≠ "" ∧
        1 ≤ process.maxAttempts) invalidProcess
      .require (process.status = .pending ∨ process.status = .ready)
        "schedule_process requires process status 'pending' or 'ready'"
      let input ← .ofExcept (canonicalJsonField process.inputJson "process input")
      let metadata ← .ofExcept (canonicalJsonField process.metadata "process metadata")
      let schema ← .ofExcept (canonicalJsonField process.outputSchemaJson "process output schema")
      let taken ← .fetch fun db => (db.processes.find? process.key).isSome
      .require (!taken) ("Process already exists: " ++ process.id)
      insertProcess { process with inputJson := input, metadata, outputSchemaJson := schema }
      insertCommand command
      let stored ← appendEvents process.runId command events
      return ⟨command, stored, false⟩

/-- The command type of a transition into a status. -/
def transitionCommandType : ProcessStatus → String
  | .waiting => "process.wait"
  | .succeeded => "process.complete"
  | .failed => "process.fail"
  | .retryWait => "process.retry"
  | .cancelRequested => "process.cancel_requested"
  | .skipped => "process.skip"
  | .cancelled => "process.cancel"
  | .timedOut => "process.timeout"
  | .pending | .ready | .running => "process.ready"

def transitionEventType : ProcessStatus → String
  | .waiting => "process.waiting"
  | .succeeded => "process.completed"
  | .failed => "process.failed"
  | .retryWait => "process.retry_scheduled"
  | .cancelRequested => "process.cancel_requested"
  | .skipped => "process.skipped"
  | .cancelled => "process.cancelled"
  | .timedOut => "process.timed_out"
  | .pending | .ready | .running => "process.ready"

/-- The arguments of `_transition_process`. -/
structure ProcessTransition where
  runId : String
  processId : String
  toStatus : ProcessStatus
  actor : String
  at_ : String
  outputJson : Text := .braces
  errorJson : Text := .braces
  availableAt : String := ""
  idempotencyKey : String := ""
  deriving DecidableEq

namespace ProcessTransition

def due (t : ProcessTransition) : String := if t.availableAt ≠ "" then t.availableAt else t.at_

/-- The key of a call that gives none: process, status and timestamp. -/
def defaultKey (t : ProcessTransition) : String :=
  "process." ++ t.processId ++ ":" ++ t.toStatus.value ++ ":" ++ t.at_

def effectiveKey (t : ProcessTransition) : String :=
  if t.idempotencyKey = "" then t.defaultKey else t.idempotencyKey

def hasOutput (t : ProcessTransition) : Bool :=
  t.toStatus = .succeeded ∨ t.toStatus = .skipped ∨ t.toStatus = .waiting

def hasError (t : ProcessTransition) : Bool :=
  t.toStatus = .failed ∨ t.toStatus = .cancelRequested ∨ t.toStatus = .cancelled ∨
    t.toStatus = .timedOut

/-- The stored payload is not the one of this request. Only the payload of a
    `ready` transition carries no attempt. -/
def payloadConflict (t : ProcessTransition) (output error stored : Text) : Bool :=
  (t.toStatus ≠ .ready ∧ processAttemptFromPayload stored (-1) < 0) ∨
    (t.hasOutput ∧ jsonFieldFromPayload stored "output" .empty ≠ output) ∨
    (t.hasError ∧ jsonFieldFromPayload stored "error" .empty ≠ error) ∨
    (t.toStatus = .retryWait ∧
      (jsonFieldFromPayload stored "available_at" .empty ≠ .quote t.due ∨
        (error ≠ .braces ∧ jsonFieldFromPayload stored "error" .empty ≠ error)))

/-- The command under the key records this request. -/
def sameCommand (t : ProcessTransition) (output error stored : Text) (prior : CommandRow) : Bool :=
  processIdFromPayload stored "" = t.processId ∧
    prior.commandType = transitionCommandType t.toStatus ∧ prior.actor = t.actor ∧
    prior.createdAt = t.at_ ∧ ¬ t.payloadConflict output error stored

def storedOutput (t : ProcessTransition) (output : Text) (current : ProcessRow) : Text :=
  match t.toStatus with
  | .failed => .braces
  | .cancelled | .timedOut | .retryWait => current.outputJson
  | _ => output

def storedError (t : ProcessTransition) (error : Text) (current : ProcessRow) : Text :=
  match t.toStatus with
  | .succeeded | .skipped | .waiting => .braces
  | .retryWait => if error = .braces then current.errorJson else error
  | _ => error

def payload (t : ProcessTransition) (output error : Text) (current : ProcessRow) : Text :=
  .template ([("process_id", .quote t.processId), ("attempt", .number current.attempt),
    ("output", t.storedOutput output current), ("error", t.storedError error current)] ++
    if t.toStatus = .retryWait then [("available_at", .quote t.due)] else [])

/-- The transition is one of the relation, or the retry of a failed process with attempts left. -/
def legal (t : ProcessTransition) (current : ProcessRow) : Bool :=
  if t.toStatus = .retryWait ∧ current.status = .failed then
    current.leaseOwner = "" ∧ current.attempt < current.maxAttempts
  else canTransitionProcess current.status t.toStatus

def checksOwner (t : ProcessTransition) : Bool :=
  t.toStatus = .succeeded ∨ t.toStatus = .failed ∨ t.toStatus = .retryWait

/-- The columns that must not change between the two reads. -/
def unchanged (current txCurrent : ProcessRow) : Bool :=
  txCurrent.status = current.status ∧ txCurrent.attempt = current.attempt ∧
    txCurrent.leaseOwner = current.leaseOwner ∧ txCurrent.leaseExpiresAt = current.leaseExpiresAt ∧
    txCurrent.outputJson = current.outputJson ∧ txCurrent.errorJson = current.errorJson

/-- The assigned columns of the process row. -/
def update (t : ProcessTransition) (storedOutput storedError output : Text) (row : ProcessRow) :
    ProcessRow :=
  { row with
    status := t.toStatus
    outputJson :=
      match t.toStatus with
      | .succeeded | .skipped => storedOutput
      | .failed => .braces
      | .waiting => output
      | _ => row.outputJson
    errorJson :=
      match t.toStatus with
      | .succeeded | .waiting => .braces
      | .failed | .cancelled | .timedOut | .cancelRequested => storedError
      | .retryWait => if storedError ≠ .braces then storedError else row.errorJson
      | _ => row.errorJson
    availableAt := if t.toStatus = .retryWait then t.due else row.availableAt
    leaseOwner := ""
    leaseExpiresAt := ""
    finishedAt :=
      if t.toStatus = .retryWait then ""
      else if t.toStatus.isTerminal then t.at_
      else row.finishedAt
    updatedAt := t.at_ }

def command (t : ProcessTransition) (payload : Text) : CommandRow where
  runId := t.runId
  id := t.effectiveKey
  commandType := transitionCommandType t.toStatus
  idempotencyKey := t.effectiveKey
  actor := t.actor
  correlationId := ""
  causationId := ""
  payload
  createdAt := t.at_

def event (t : ProcessTransition) (payload : Text) (current : ProcessRow) : EventInput where
  id := t.effectiveKey ++ ":event"
  eventType := transitionEventType t.toStatus
  payload
  createdAt := t.at_
  impulseId := current.impulseId
  processId := t.processId
  actor := t.actor

end ProcessTransition

def transitionConflict : String := "journal: process transition idempotency conflict"
def attemptsExhausted : String := "journal: process retry attempts exhausted"
def leaseHeld : String := "journal: process lease is held by another actor"
def changedConcurrently : String := "journal: process transition changed concurrently"

def illegalTransition (current target : ProcessStatus) : String :=
  "journal: illegal process transition " ++ current.value ++ " -> " ++ target.value

/-- The transaction of `_transition_process`. -/
def transitionBody (t : ProcessTransition) (output error : Text) (current : ProcessRow) :
    Sql Unit := do
  let txCurrent ← getProcess t.runId t.processId
  .require (ProcessTransition.unchanged current txCurrent) changedConcurrently
  let changes ← updateProcess t.runId t.processId (fun r => r.status = current.status)
    (t.update (t.storedOutput output current) (t.storedError error current) output)
  .require (changes = 1) changedConcurrently
  insertCommand (t.command (t.payload output error current))
  let _ ← appendEventInTx t.runId t.effectiveKey (t.event (t.payload output error current) current)

/-- `_transition_process` -/
def transitionProcess (t : ProcessTransition) : Sql ProcessRow := do
  .require (t.processId ≠ "") "journal: process_id must not be empty"
  .require (t.at_ ≠ "") "journal: transition timestamp must not be empty"
  requireRun t.runId
  let current ← getProcess t.runId t.processId
  .require (t.actor ≠ "") "journal: actor must not be empty"
  let output ← .ofExcept (canonicalJsonField t.outputJson "process output")
  let error ← .ofExcept (canonicalJsonField t.errorJson "process error")
  match ← commandByKey t.runId t.effectiveKey with
  | some prior =>
    let stored ← .ofExcept (canonicalJsonField prior.payload "stored process command")
    .require (t.sameCommand output error stored prior) transitionConflict
    getProcess t.runId (processIdFromPayload stored "")
  | none =>
    .require (0 ≤ current.attempt ∧ 1 ≤ current.maxAttempts ∧ current.attempt ≤ current.maxAttempts)
      "journal: invalid process attempts"
    .require (t.legal current) (illegalTransition current.status t.toStatus)
    .require (¬ (t.toStatus = .retryWait ∧ current.maxAttempts ≤ current.attempt)) attemptsExhausted
    .require (¬ (t.checksOwner ∧ current.leaseOwner ≠ "" ∧ current.leaseOwner ≠ t.actor)) leaseHeld
    .transact ("journal: process transition failed: " ++ ·) (transitionBody t output error current)
    getProcess t.runId t.processId

def waitProcess (runId processId actor at_ : String) (outputJson : Text)
    (idempotencyKey : String) : Sql ProcessRow :=
  transitionProcess
    { runId, processId, toStatus := .waiting, actor, at_, outputJson, idempotencyKey }

def requestCancelProcess (runId processId actor at_ : String) (errorJson : Text)
    (idempotencyKey : String) : Sql ProcessRow :=
  transitionProcess
    { runId, processId, toStatus := .cancelRequested, actor, at_, errorJson, idempotencyKey }

def failProcess (runId processId actor at_ : String) (errorJson : Text) : Sql ProcessRow :=
  transitionProcess { runId, processId, toStatus := .failed, actor, at_, errorJson }

def retryProcess (runId processId actor at_ availableAt : String) (errorJson : Text) :
    Sql ProcessRow :=
  transitionProcess { runId, processId, toStatus := .retryWait, actor, at_, errorJson, availableAt }

def skipProcess (runId processId actor at_ : String) (outputJson : Text)
    (idempotencyKey : String) : Sql ProcessRow :=
  transitionProcess
    { runId, processId, toStatus := .skipped, actor, at_, outputJson, idempotencyKey }

def cancelProcess (runId processId actor at_ : String) (errorJson : Text) : Sql ProcessRow :=
  transitionProcess { runId, processId, toStatus := .cancelled, actor, at_, errorJson }

def timeoutProcess (runId processId actor at_ : String) (errorJson : Text) : Sql ProcessRow :=
  transitionProcess { runId, processId, toStatus := .timedOut, actor, at_, errorJson }

end Fala.Journal
