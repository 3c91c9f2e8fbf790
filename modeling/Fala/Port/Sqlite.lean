import Fala.Journal.Complete
import Fala.Memory.Journal

/-! `SqliteJournalPort`: a batch is answered by the operation of the journal that the type of its
    leading command names. -/

namespace Fala.Port
open Durable Journal Memory

/-- The texts of a batch, as the columns of the journal hold them. -/
structure Texts where
  read : String → Text
  write : Text → String
  write_read : ∀ s, write (read s) = s

/-- `_json_string` -/
def jsonString (body : Json) (key default : String) : String :=
  match body.member key with
  | some (.str value) => value
  | some (.int value) => toString value
  | some (.bool value) => if value then "true" else "false"
  | _ => default

/-- `_json_int` -/
def jsonInt (body : Json) (key : String) (default : Int) : Int :=
  match body.member key with
  | some (.int value) => value
  | some (.str value) => value.toInt?.getD default
  | _ => default

/-- `_fact_body` -/
def factBody (units : List CommandUnit) (entity : String) : String :=
  ((units.flatMap CommandUnit.facts).find? fun fact =>
    fact.entity = entity ∧ fact.op = "upsert" ∧ fact.bodyJson ≠ "").elim "" StateFact.bodyJson

section
variable (t : Texts)

/-- The process that one fact names. -/
def factProcessId (fact : StateFact) : Option String :=
  if fact.entity ≠ "process" then none
  else if fact.keyId ≠ "" then some fact.keyId
  else if fact.bodyJson = "" then none
  else ((t.read fact.bodyJson).parse.map fun body => jsonString body "id" "").filter (· ≠ "")

/-- `_process_id_from_unit` -/
def processIdFromUnit (u : CommandUnit) : String :=
  let named := if u.command.payloadJson = "" then "" else
    ((t.read u.command.payloadJson).parse.map fun payload => jsonString payload "process_id" "").getD ""
  if named ≠ "" then named else (u.facts.findSome? (factProcessId t)).getD ""

/-- `_events_to_inputs`, one event -/
def eventInput (event : EventRecord) : EventInput where
  id := event.id
  eventType := event.eventType
  payload := t.read event.payloadJson
  createdAt := event.createdAt
  impulseId := event.impulseId
  processId := event.processId
  schemaVersion := event.schemaVersion
  actor := event.actor
  correlationId := event.correlationId
  causationId := event.causationId

/-- The value of a fact's body; a batch without one gives no members. -/
def bodyOf (bodyJson : String) : Except String Json :=
  if bodyJson = "" then .ok (.obj [])
  else
    match (t.read bodyJson).parse with
    | some body => .ok body
    | none => .error "invalid JSON"

/-- The operation of the journal that a batch asks for, with its arguments. -/
inductive PortCall where
  | createRun (r : RunCreation)
  | scheduleProcess (s : ProcessSchedule)
  | completeProcess (runId processId workerId completedAt : String) (outputJson errorJson : Text)
  | submitCommand (c : CommandAppend) (events : List EventInput)
  deriving DecidableEq

/-- The arguments that `_append_run_create` calls `create_run` with. -/
def runCreation (batch : JournalBatch) (command : CommandRecord) : Except String RunCreation := do
  let body ← bodyOf t (factBody batch.units "run")
  let named := if batch.runId ≠ "" then batch.runId else command.runId
  let runId := if named ≠ "" then named else jsonString body "id" ""
  let bodyCreated := jsonString body "created_at" ""
  let createdAt := if bodyCreated ≠ "" then bodyCreated else command.createdAt
  if runId = "" ∨ createdAt = "" then .error "run.create requires run id and created_at"
  else
    return {
      runId
      status := jsonString body "status" "active"
      metadata := jsonString body "metadata" "\x7b\x7d"
      createdAt
      title := jsonString body "title" ""
      updatedAt := createdAt
      idempotencyKey := if command.idempotencyKey ≠ "" then command.idempotencyKey else "run.create" }

/-- The arguments that `_append_process_schedule` calls `schedule_process` with. The source looks for
    `input` in the members of the body, which aborts when it is no object. -/
def processSchedule (batch : JournalBatch) (primary : CommandUnit) : Except String ProcessSchedule := do
  let command := primary.command
  let bodyJson := factBody batch.units "process"
  if bodyJson = "" then .error "process.schedule append_batch requires a process StateFact body"
  else do
    let body ← bodyOf t bodyJson
    let bodyId := jsonString body "id" ""
    let processId := if bodyId ≠ "" then bodyId else (primary.facts.head?.map StateFact.keyId).getD ""
    let createdAt :=
      if command.createdAt ≠ "" then command.createdAt else jsonString body "created_at" ""
    if processId = "" ∨ createdAt = "" then .error "process.schedule requires process id and created_at"
    else if body.isObject = false then .error "not an object"
    else do
      let named := jsonString body "input_json" "\x7b\x7d"
      let inputJson := match body.member "input" with
        | some (.str value) => if named = "\x7b\x7d" then value else named
        | _ => named
      let maxAttempts := jsonInt body "max_attempts" 1
      return {
        runId := command.runId
        processId
        processType := jsonString body "process_type" "native"
        createdAt
        inputJson := t.read inputJson
        metadata := t.read (jsonString body "metadata" "\x7b\x7d")
        impulseId := jsonString body "impulse_id" ""
        priority := jsonInt body "priority" 0
        maxAttempts := if maxAttempts < 1 then 1 else maxAttempts
        availableAt := jsonString body "available_at" ""
        outputSchemaJson := t.read (jsonString body "output_schema_json" "\x7b\x7d")
        idempotencyKey := if command.idempotencyKey ≠ "" then command.idempotencyKey
          else "process.schedule:" ++ processId
        actor := command.actor }

/-- A text field of a payload that may not parse. -/
def payloadField (payloadJson key : String) : String :=
  let found := ((t.read payloadJson).parse.map fun payload => jsonString payload key "").getD ""
  if found ≠ "" then found else "\x7b\x7d"

/-- The dispatch of `append_batch`, up to the call of the journal. -/
def portCall (batch : JournalBatch) (primary : CommandUnit) : Except String PortCall :=
  let command := primary.command
  if command.commandType = "run.create" then (runCreation t batch command).map .createRun
  else if command.commandType = "process.schedule" then
    (processSchedule t batch primary).map .scheduleProcess
  else if command.commandType = "process.complete" then
    let processId := processIdFromUnit t primary
    if processId = "" then .error "process.complete requires process_id in payload or fact"
    else if command.createdAt = "" then .error "process.complete requires created_at"
    else
      .ok (.completeProcess command.runId processId
        (if command.actor ≠ "" then command.actor else "worker") command.createdAt
        (t.read (payloadField t command.payloadJson "output_json"))
        (t.read (payloadField t command.payloadJson "error_json")))
  else
    .ok (.submitCommand
      { runId := command.runId
        commandId := if command.id ≠ "" then command.id else command.idempotencyKey
        commandType := command.commandType
        idempotencyKey := command.idempotencyKey
        payload := t.read command.payloadJson
        createdAt := command.createdAt
        actor := command.actor
        correlationId := command.correlationId
        causationId := command.causationId }
      (primary.events.map (eventInput t)))

def commandRecord (row : CommandRow) : CommandRecord where
  id := row.id
  runId := row.runId
  commandType := row.commandType
  idempotencyKey := row.idempotencyKey
  actor := row.actor
  correlationId := row.correlationId
  causationId := row.causationId
  payloadJson := t.write row.payload
  createdAt := row.createdAt

def eventRecord (row : EventRow) : EventRecord where
  id := row.id
  runId := row.runId
  eventType := row.eventType
  schemaVersion := row.schemaVersion
  impulseId := row.impulseId
  processId := row.processId
  sequence := row.sequence
  commandId := row.commandId
  actor := row.actor
  correlationId := row.correlationId
  causationId := row.causationId
  payloadJson := t.write row.payload
  createdAt := row.createdAt

/-- `_unit_result` -/
def unitResult (command : CommandRecord) (events : List EventRecord) (facts : List StateFact)
    (batch : JournalBatch) (replayed : Bool) : AppendResult :=
  let units := [⟨command, events, facts⟩]
  { batch := { batch with units }, replayed, units }

/-- The event that the port puts together for a typed command. -/
def typedEvent (command : CommandRecord) (id eventType runId processId impulseId commandId
    createdAt correlationId causationId : String) (sequence : Int) : EventRecord where
  id
  runId
  eventType
  schemaVersion := 1
  impulseId
  processId
  sequence
  commandId
  actor := command.actor
  correlationId
  causationId
  payloadJson := command.payloadJson
  createdAt

/-- The answer of `_append_run_create`, after the run was created or found. -/
def createResult (batch : JournalBatch) (primary : CommandUnit) (r : RunCreation) (replayed : Bool) :
    AppendResult :=
  let command := primary.command
  unitResult { command with runId := r.runId }
    [typedEvent command ("run.create:" ++ r.runId ++ ":event") "run.created" r.runId "" ""
      ("run.create:" ++ r.runId) r.createdAt command.correlationId command.causationId 1]
    primary.facts { batch with runId := r.runId } replayed

/-- The answer of `_append_process_schedule`. -/
def scheduleResult (batch : JournalBatch) (primary : CommandUnit) (s : ProcessSchedule)
    (replayed : Bool) : AppendResult :=
  unitResult primary.command
    [typedEvent primary.command (s.key ++ ":event") "process.scheduled" s.runId s.processId s.impulseId
      s.key s.createdAt "" "" 0]
    primary.facts batch replayed

/-- The answer of `_append_process_complete`. -/
def completeResult (batch : JournalBatch) (primary : CommandUnit) (processId : String) : AppendResult :=
  let command := primary.command
  unitResult command
    [typedEvent command (command.idempotencyKey ++ ":event") "process.completed" command.runId processId
      "" command.id command.createdAt "" "" 0]
    primary.facts batch false

/-- The answer of `_append_generic`. -/
def genericResult (batch : JournalBatch) (primary : CommandUnit) (submission : CommandSubmission) :
    AppendResult :=
  unitResult (commandRecord t submission.command) (submission.events.map (eventRecord t))
    primary.facts batch submission.replayed

end

/-- `get_command_by_idempotency` returns. -/
def hasCommand (db : Database) (runId idempotencyKey : String) : Bool :=
  runId ≠ "" ∧ (db.runs.find? runId).isSome ∧ (db.commandByKey runId idempotencyKey).isSome

/-- An answer of the journal, made the answer of the port. -/
def answering {α : Type} (answer : α → AppendResult) (outcome : Except String α × Database) :
    Except String AppendResult × Database :=
  (outcome.1.map answer, outcome.2)

/-- `SqliteJournalPort.append_batch`; only the leading unit is read. -/
def appendBatch (digest : Json → String) (t : Texts) (batch : JournalBatch) (db : Database) :
    Except String AppendResult × Database :=
  match batch.units with
  | [] => (.error "JournalBatch.units must be non-empty", db)
  | primary :: _ =>
    match portCall t batch primary with
    | .error message => (.error message, db)
    | .ok (.createRun r) =>
      answering (fun _ => createResult batch primary r (db.runs.find? r.runId).isSome)
        ((createRun r).eval db)
    | .ok (.scheduleProcess s) =>
      answering (fun _ => scheduleResult batch primary s (hasCommand db s.runId s.key))
        ((scheduleProcess s).eval db)
    | .ok (.completeProcess runId processId workerId completedAt outputJson errorJson) =>
      answering (fun _ => completeResult batch primary processId)
        ((completeProcess digest runId processId workerId completedAt outputJson errorJson).eval db)
    | .ok (.submitCommand c events) =>
      answering (genericResult t batch primary) ((submitCommand c events).eval db)

end Fala.Port
