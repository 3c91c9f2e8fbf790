import Fala.Journal.Common

namespace Fala.Journal
open Durable

structure RunRow where
  id : String
  status : String
  title : String
  metadata : String
  createdAt : String
  updatedAt : String
  deriving DecidableEq

def RunRow.ofRecord (r : RunRecord) : RunRow :=
  ⟨r.id, r.status, r.title, r.metadata, r.createdAt, r.updatedAt⟩

def readRunRow (runId missing : String) : Sql RunRow :=
  .query fun db =>
    match db.runs.find? runId with
    | some row => .ok (.ofRecord row)
    | none => .error missing

/-- The arguments of `create_run`. -/
structure RunCreation where
  runId : String
  status : String
  metadata : String
  createdAt : String
  title : String := ""
  updatedAt : String := ""
  idempotencyKey : String := ""
  identity : RunIdentity := {}
  deriving DecidableEq

namespace RunCreation

def update (r : RunCreation) : String := if r.updatedAt ≠ "" then r.updatedAt else r.createdAt
def key (r : RunCreation) : String :=
  if r.idempotencyKey ≠ "" then r.idempotencyKey else "run.create"
def commandId (r : RunCreation) : String := "run.create:" ++ r.runId

def payload (r : RunCreation) : Text :=
  .template [("metadata", .quote r.metadata), ("status", .quote r.status), ("title", .quote r.title)]

def row (r : RunCreation) : RunRecord where
  id := r.runId
  status := r.status
  title := r.title
  identity := r.identity
  schemaVersion := 6
  metadata := r.metadata
  createdAt := r.createdAt
  updatedAt := r.update
  startedAt := ""
  finishedAt := ""

def command (r : RunCreation) : CommandRow where
  runId := r.runId
  id := r.commandId
  commandType := "run.create"
  idempotencyKey := r.key
  actor := ""
  correlationId := ""
  causationId := ""
  payload := r.payload
  createdAt := r.createdAt

def event (r : RunCreation) : EventInput where
  id := r.commandId ++ ":event"
  eventType := "run.created"
  payload := r.payload
  createdAt := r.createdAt

/-- The stored run is the one that the call asks for. -/
def sameRun (r : RunCreation) (existing : RunRecord) : Bool :=
  existing.status = r.status ∧ existing.title = r.title ∧ existing.identity = r.identity ∧
    existing.metadata = r.metadata ∧ existing.createdAt = r.createdAt ∧
    existing.updatedAt = r.update

def sameCommand (r : RunCreation) (prior : CommandRow) : Bool :=
  prior.id = r.commandId ∧ prior.commandType = "run.create" ∧ prior.idempotencyKey = r.key ∧
    prior.payload = r.payload ∧ prior.createdAt = r.createdAt

def sameEvent (r : RunCreation) (prior : EventRow) : Bool :=
  prior.id = r.commandId ++ ":event" ∧ prior.eventType = "run.created" ∧
    prior.payload = r.payload ∧ prior.createdAt = r.createdAt

end RunCreation

def runDiffers : String := "journal: run already exists with different contents"
def runCreationConflict : String := "journal: run creation idempotency conflict"
def runCreationEventConflict : String := "journal: run creation event replay conflict"

def createRunError : String → String :=
  reraise ["different contents", "idempotency conflict", "event replay conflict"]
    ("journal: create_run failed: " ++ ·)

/-- The transaction of `create_run`. The replayed event is the first one recorded for the
    command. -/
def createRunBody (r : RunCreation) : Sql Unit := do
  match ← .fetch fun db => db.runs.find? r.runId with
  | some existing =>
    .require (r.sameRun existing) runDiffers
    let prior ← commandByKey r.runId r.key
    .require (prior.any r.sameCommand) runCreationConflict
    let priorEvent ← .fetch fun db =>
      db.events.rows.find? fun e => e.runId = r.runId ∧ e.commandId = r.commandId
    .require (priorEvent.any r.sameEvent) runCreationEventConflict
  | none =>
    insertRun r.row
    insertCommand r.command
    insertEvent (r.event.row r.runId r.commandId 1)

/-- `create_run` -/
def createRun (r : RunCreation) : Sql RunRow := do
  .require (r.runId ≠ "" ∧ r.status ≠ "") "journal: run id and status must not be empty"
  .require (r.createdAt ≠ "") "journal: run creation timestamp must not be empty"
  .transact createRunError (createRunBody r)
  readRunRow r.runId "journal: created run is missing"

/-- The arguments of `append_command`. -/
structure CommandAppend where
  runId : String
  commandId : String
  commandType : String
  idempotencyKey : String
  payload : Text
  createdAt : String
  actor : String := ""
  correlationId : String := ""
  causationId : String := ""
  deriving DecidableEq

def CommandAppend.row (c : CommandAppend) : CommandRow :=
  ⟨c.runId, c.commandId, c.commandType, c.idempotencyKey, c.actor, c.correlationId, c.causationId,
    c.payload, c.createdAt⟩

def commandFieldsEmpty : String :=
  "journal: command id, type, idempotency_key, and created_at must not be empty"
def commandDiffers : String := "journal: idempotency key already exists with different contents"

def CommandAppend.complete (c : CommandAppend) : Bool :=
  c.commandId ≠ "" ∧ c.commandType ≠ "" ∧ c.idempotencyKey ≠ "" ∧ c.createdAt ≠ ""

/-- `append_command`: the stored command and whether it was there before. -/
def appendCommand (c : CommandAppend) : Sql (CommandRow × Bool) := do
  requireRun c.runId
  .require c.complete commandFieldsEmpty
  .transact (reraise ["idempotency key already exists with different contents"]
      fun _ => "journal: append_command failed") do
    match ← commandByKey c.runId c.idempotencyKey with
    | some stored =>
      .require (stored = { c.row with id := stored.id }) commandDiffers
      return (stored, true)
    | none =>
      insertCommand c.row
      return (c.row, false)

structure CommandSubmission where
  command : CommandRow
  events : List EventRow
  replayed : Bool
  deriving DecidableEq

def runCreateSubmitted : String := "journal: run.create commands must use create_run"
def commandIdTaken : String := "journal: command id already exists with different idempotency key"

/-- `submit_command` -/
def submitCommand (c : CommandAppend) (events : List EventInput) : Sql CommandSubmission :=
  .transact (reraise ["command id already exists with different idempotency key",
      "run.create commands must use create_run", "event id already exists with different contents",
      "command id, type, idempotency_key, and created_at must not be empty"]
      ("journal: submit_command failed: " ++ ·)) do
    match ← commandByKey c.runId c.idempotencyKey with
    | some stored => return ⟨stored, [], true⟩
    | none =>
      .require (c.commandType ≠ "run.create") runCreateSubmitted
      requireRun c.runId
      .require c.complete commandFieldsEmpty
      let taken ← .fetch fun db => (db.commandById c.runId c.commandId).isSome
      .require (!taken) commandIdTaken
      insertCommand c.row
      let stored ← appendEvents c.runId c.row events
      return ⟨c.row, stored, false⟩

/-- The arguments of `record_violation`. -/
structure Violation where
  runId : String
  processId : String
  attempt : Int
  actor : String
  at_ : String
  payload : Text
  impulseId : String := ""
  deriving DecidableEq

namespace Violation

def key (v : Violation) : String := "violation.record:" ++ v.processId ++ ":" ++ toString v.attempt

def command (v : Violation) : CommandAppend :=
  ⟨v.runId, v.key, "violation.record", v.key, v.payload, v.at_, v.actor, "", ""⟩

def event (v : Violation) : EventInput where
  id := v.key ++ ":event"
  eventType := "violation.recorded"
  payload := v.payload
  createdAt := v.at_
  impulseId := v.impulseId
  processId := v.processId
  actor := v.actor

end Violation

/-- `record_violation` -/
def recordViolation (v : Violation) : Sql CommandSubmission := do
  .require (v.processId ≠ "" ∧ v.actor ≠ "" ∧ v.at_ ≠ "" ∧ v.payload ≠ .empty ∧ 1 ≤ v.attempt)
    "journal: violation.record requires process, actor, timestamp, payload, and attempt"
  submitCommand v.command [v.event]

/-- `append_event` -/
def appendEvent (runId commandId : String) (event : EventInput) : Sql EventRow := do
  requireRun runId
  .transact (reraise ["event id already exists with different contents"]
      fun _ => "journal: append_event failed") do
    appendEventInTx runId commandId event

structure RunTransitionResult where
  run : RunRow
  replayed : Bool
  deriving DecidableEq

/-- The arguments of `transition_run_status`. -/
structure RunTransition where
  runId : String
  target : String
  at_ : String
  idempotencyKey : String
  reason : String := ""
  deriving DecidableEq

namespace RunTransition

def durableReason (t : RunTransition) : String := if t.reason ≠ "" then t.reason else t.target

def payload (t : RunTransition) : Text :=
  .template [("target", .quote t.target), ("reason", .quote t.durableReason)]

def command (t : RunTransition) : CommandRow where
  runId := t.runId
  id := t.idempotencyKey
  commandType := "run." ++ t.target
  idempotencyKey := t.idempotencyKey
  actor := ""
  correlationId := ""
  causationId := ""
  payload := t.payload
  createdAt := t.at_

def event (t : RunTransition) : EventInput where
  id := t.idempotencyKey ++ ":event"
  eventType := "run." ++ t.target
  payload := t.payload
  createdAt := t.at_

/-- The assigned columns of the run row. -/
def update (t : RunTransition) (r : RunRecord) : RunRecord :=
  { r with
    status := t.target
    updatedAt := t.at_
    startedAt := if t.target = "active" ∧ r.startedAt = "" then t.at_ else r.startedAt
    finishedAt :=
      if t.target ≠ "active" ∧ (RunStatus.ofValue t.target).isTerminal then t.at_ else r.finishedAt }

def sameCommand (t : RunTransition) (prior : CommandRow) : Bool :=
  prior.commandType = "run." ++ t.target ∧ prior.payload = t.payload ∧ prior.createdAt = t.at_

end RunTransition

def runTransitionConflict : String := "journal: run transition idempotency conflict"
def runTransitionFailed : String := "journal: run transition failed"

def illegalRunTransition (current target : String) : String :=
  "journal: illegal run transition " ++ current ++ " -> " ++ target

/-- `transition_run_status` -/
def transitionRunStatus (t : RunTransition) : Sql RunTransitionResult := do
  requireRun t.runId
  .require (t.target ≠ "" ∧ t.at_ ≠ "" ∧ t.idempotencyKey ≠ "")
    "journal: run transition requires target, timestamp, and idempotency key"
  let current ← readRunRow t.runId unknownRun
  match ← commandByKey t.runId t.idempotencyKey with
  | some prior =>
    .require (t.sameCommand prior) runTransitionConflict
    return ⟨current, true⟩
  | none =>
    .require (canTransitionRun (.ofValue current.status) (.ofValue t.target))
      (illegalRunTransition current.status t.target)
    .transact (fun _ => runTransitionFailed) do
      insertCommand t.command
      let changes ← updateRun t.runId (fun r => r.status = current.status) t.update
      .require (changes = 1) "journal: run transition lost ownership"
      let sequence ← .fetch fun db => db.nextSequence t.runId
      insertEvent (t.event.row t.runId t.idempotencyKey sequence)
    let result ← readRunRow t.runId "journal: transitioned run is missing"
    return ⟨result, false⟩

end Fala.Journal
