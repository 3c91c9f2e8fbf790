import Fala.Domain.Records
import Fala.Journal.Commands
import Fala.Store.SideTable

/-! The domain store's commands: a row, its command and its events in one
    transaction. -/

namespace Fala.Domain
open Durable Journal

def unknownRun : String := "domain store: unknown run"
def commandConflict : String := "domain store: command idempotency conflict"
def commandIdTaken : String := "domain store: command id already exists"

/-- `_require_run` -/
def requireStoreRun (runId : String) : Sql Unit := do
  .require (runId ≠ "") "domain store: run_id must not be empty"
  let found ← .fetch fun db => (db.runs.find? runId).isSome
  .require found unknownRun

/-- `_append_domain_event_in_tx` -/
def appendDomainEvent (command : CommandRow) (item : EventInput) : Sql EventRow := do
  .require (item.id ≠ "" ∧ item.eventType ≠ "" ∧ item.createdAt ≠ "" ∧ 1 ≤ item.schemaVersion)
    "domain store: invalid event"
  let row := (item.inherit command).row command.runId command.id
  match ← .fetch fun db => db.eventById command.runId item.id with
  | some prior =>
    .require (prior = row prior.sequence) "domain store: event idempotency conflict"
    return prior
  | none =>
    let sequence ← .fetch fun db => db.nextSequence command.runId
    insertEvent (row sequence)
    return row sequence

def appendDomainEvents (command : CommandRow) : List EventInput → Sql (List EventRow)
  | [] => return []
  | item :: rest => do
    let row ← appendDomainEvent command item
    return row :: (← appendDomainEvents command rest)

/-- The command of a domain call and the events that go with it. -/
structure DomainCall where
  commandId : String
  commandType : String
  idempotencyKey : String
  createdAt : String
  events : List EventInput := []
  actor : String := ""
  correlationId : String := ""
  causationId : String := ""
  deriving DecidableEq

def DomainCall.append (c : DomainCall) (runId : String) (payload : Text) : CommandAppend :=
  ⟨runId, c.commandId, c.commandType, c.idempotencyKey, payload, c.createdAt, c.actor,
    c.correlationId, c.causationId⟩

/-- `_domain_command_start` with the statements that its callers run before they commit. -/
def submitBody (c : CommandAppend) (events : List EventInput) (write : Sql Unit) :
    Sql CommandSubmission := do
  match ← commandByKey c.runId c.idempotencyKey with
  | some prior =>
    .require (prior = { c.row with id := prior.id }) commandConflict
    return ⟨prior, [], true⟩
  | none =>
    let taken ← .fetch fun db => (db.commandById c.runId c.commandId).isSome
    .require (!taken) commandIdTaken
    insertCommand c.row
    write
    let stored ← appendDomainEvents c.row events
    return ⟨c.row, stored, false⟩

/-- A domain command. A replay commits first, and what it then compares is read outside the
    transaction. -/
def submitDomain (c : CommandAppend) (events : List EventInput) (write replay : Sql Unit) :
    Sql CommandSubmission := do
  requireStoreRun c.runId
  .require c.complete "domain store: command fields must not be empty"
  let submission ← .transact id (submitBody c events write)
  if submission.replayed then do
    replay
    return submission
  else return submission

section
variable {ρ : Type} {key : ρ → String × String}

/-- The `get_` query of a table. -/
def getRow (table : SideTable key) (missing runId id : String) : Sql ρ := do
  requireStoreRun runId
  match ← table.find? runId id with
  | some row => return row
  | none => .raise missing

/-- The row of a replay is still the one that the call asks for. -/
def replayRow (table : SideTable key) (missing conflict : String) (same : ρ → Bool)
    (runId id : String) : Sql Unit := do
  let prior ← getRow table missing runId id
  .require (same prior) conflict

/-- An `INSERT` behind a query for the same key. -/
def insertNew (table : SideTable key) (taken runId id : String) (row : ρ) : Sql Unit := do
  let existing ← table.find? runId id
  .require existing.isNone taken
  table.insert row

end

def impulseTypeMissing : String := "domain store: impulse type not found"
def impulseTypeConflict : String := "domain store: impulse type idempotency conflict"

/-- `register_impulse_type` -/
def registerImpulseType (row : ImpulseType) (c : DomainCall) : Sql CommandSubmission := do
  .require (c.commandType = "impulse_type.register")
    "register_impulse_type requires command_type 'impulse_type.register'"
  .require row.isValid "domain store: invalid impulse type"
  submitDomain (c.append row.runId row.toJson) c.events (impulseTypes.insert row)
    (replayRow impulseTypes impulseTypeMissing impulseTypeConflict
      (fun prior => prior.toJson = row.toJson) row.runId row.id)

/-- `record_impulse_relation` -/
def recordImpulseRelation (row : ImpulseRelation) (c : DomainCall) : Sql CommandSubmission := do
  .require (c.commandType = "impulse_relation.record")
    "record_impulse_relation requires command_type 'impulse_relation.record'"
  .require row.isValid "domain store: invalid impulse relation"
  submitDomain (c.append row.runId row.toJson) c.events
    (insertNew impulseRelations "domain store: impulse relation already exists" row.runId row.id row)
    (replayRow impulseRelations "domain store: impulse relation not found"
      "domain store: impulse relation idempotency conflict"
      (fun prior => prior.toJson = row.toJson) row.runId row.id)

/-- `record_association` -/
def recordAssociation (row : Association) (c : DomainCall) : Sql CommandSubmission := do
  .require (c.commandType = "association.record")
    "record_association requires command_type 'association.record'"
  .require row.isValid "domain store: invalid association"
  submitDomain (c.append row.runId row.toJson) c.events
    (insertNew associations "domain store: association already exists" row.runId row.id row)
    (replayRow associations "domain store: association not found"
      "domain store: association idempotency conflict"
      (fun prior => prior.toJson = row.toJson) row.runId row.id)

/-- A `reaction.recorded` event carries the compact payload, whatever the caller gave. -/
def compactEvent (row : Reaction) (event : EventInput) : EventInput :=
  if event.eventType = "reaction.recorded" then { event with payload := row.journalPayload }
  else event

/-- `record_reaction` -/
def recordReaction (row : Reaction) (c : DomainCall) : Sql CommandSubmission := do
  .require (c.commandType = "reaction.record")
    "record_reaction requires command_type 'reaction.record'"
  .require row.isValid "domain store: invalid reaction"
  .ofExcept row.validateCasIdentity
  let metadata ← .ofExcept (Reaction.canonicalMetadata row.metadata)
  let normalized := { row with metadata }
  submitDomain (c.append normalized.runId normalized.journalPayload)
    (c.events.map (compactEvent normalized))
    (insertNew reactions "domain store: reaction already exists" row.runId row.id normalized)
    (replayRow reactions "domain store: reaction not found"
      "domain store: reaction idempotency conflict"
      (fun prior => prior.toJson = normalized.toJson) row.runId row.id)

def homeostatMissing : String := "domain store: homeostat not found"
def homeostatConflict : String := "domain store: homeostat idempotency conflict"

/-- `save_homeostat` -/
def saveHomeostat (row : Homeostat) (c : DomainCall) : Sql CommandSubmission := do
  .require (c.commandType = "homeostat.save" ∨ c.commandType = "homeostat.open")
    "save_homeostat requires command_type 'homeostat.save' or 'homeostat.open'"
  .require row.isValid "domain store: invalid homeostat"
  submitDomain (c.append row.runId row.toJson) c.events
    (insertNew homeostats "domain store: homeostat already exists" row.runId row.id row)
    (replayRow homeostats homeostatMissing homeostatConflict
      (fun prior => prior.toJson = row.toJson) row.runId row.id)

/-- The command type of a terminal homeostat status. -/
def homeostatCommandType (status : String) : String :=
  if status = "cancelled" then "homeostat.cancel"
  else if status = "expired" then "homeostat.expire"
  else "homeostat.complete"

/-- The assigned columns of `transition_homeostat`. -/
def closeHomeostat (row : Homeostat) (createdAt : String) (current : Homeostat) : Homeostat :=
  { current with
    status := row.status
    values := row.values
    updatedAt := if row.updatedAt = "" then createdAt else row.updatedAt }

/-- The statements of `transition_homeostat` between its command and its events. -/
def closeStatements (row : Homeostat) (createdAt : String) : Sql Unit := do
  let current ← getRow homeostats homeostatMissing row.runId row.id
  .require (current.status = "open") "domain store: homeostat is not open"
  let changes ← homeostats.update row.runId row.id (fun h => h.status = "open")
    (closeHomeostat row createdAt)
  .require (changes = 1) "domain store: homeostat transition lost ownership"

/-- `transition_homeostat` of the domain store. It reads the row back in both branches. -/
def transitionHomeostat (row : Homeostat) (c : DomainCall) :
    Sql (Homeostat × CommandSubmission) := do
  .require (row.status = "completed" ∨ row.status = "cancelled" ∨ row.status = "expired")
    "domain store: invalid homeostat terminal status"
  .require (c.commandType = homeostatCommandType row.status)
    ("transition_homeostat requires command_type '" ++ homeostatCommandType row.status ++ "'")
  .require row.isValid "domain store: invalid homeostat"
  let submission ← submitDomain (c.append row.runId row.toJson) c.events
    (closeStatements row c.createdAt) (pure ())
  let updated ← getRow homeostats homeostatMissing row.runId row.id
  return (updated, submission)

/-- `save_projection` -/
def saveProjection (row : Projection) (stale : Bool) (c : DomainCall) : Sql CommandSubmission := do
  .require (c.commandType = "projection.save")
    "save_projection requires command_type 'projection.save'"
  .require row.isValid "domain store: invalid projection"
  submitDomain (c.append row.runId (row.toJson stale)) c.events (projections.upsert row)
    (replayRow projections "domain store: projection not found"
      "domain store: projection idempotency conflict" (fun prior => prior = row) row.runId row.name)

end Fala.Domain

/-! The impulse acceptance and the writes of the domain store that record no
    command. -/

namespace Fala.Domain
open Durable Journal

/-- The arguments of `accept_impulse` beside the row. -/
structure ImpulseAcceptance where
  impulse : Impulse
  idempotencyKey : String
  createdAt : String
  actor : String := ""
  correlationId : String := ""
  causationId : String := ""
  deriving DecidableEq

namespace ImpulseAcceptance

def command (a : ImpulseAcceptance) : CommandRow where
  runId := a.impulse.runId
  id := a.idempotencyKey
  commandType := "impulse.accept"
  idempotencyKey := a.idempotencyKey
  actor := a.actor
  correlationId := a.correlationId
  causationId := a.causationId
  payload := a.impulse.toJson
  createdAt := a.createdAt

def event (a : ImpulseAcceptance) : EventInput where
  id := a.idempotencyKey ++ ":event"
  eventType := "impulse.accepted"
  payload := a.impulse.toJson
  createdAt := a.createdAt
  impulseId := a.impulse.id
  actor := a.actor
  correlationId := a.correlationId
  causationId := a.causationId

/-- The columns that a replay compares with the stored event. -/
def sameEvent (a : ImpulseAcceptance) (commandId : String) (prior : EventRow) : Bool :=
  prior.eventType = "impulse.accepted" ∧ prior.impulseId = a.impulse.id ∧
    prior.commandId = commandId ∧ prior.payload = a.impulse.toJson ∧ prior.createdAt = a.createdAt

end ImpulseAcceptance

structure ImpulseAcceptanceResult where
  impulse : Impulse
  command : CommandRow
  events : List EventRow
  replayed : Bool
  deriving DecidableEq

def acceptanceConflict : String := "domain store: impulse acceptance idempotency conflict"
def impulseDiffers : String := "domain store: impulse id already exists with different contents"

/-- The transaction of `accept_impulse`. -/
def acceptBody (a : ImpulseAcceptance) : Sql ImpulseAcceptanceResult := do
  let runId := a.impulse.runId
  match ← commandByKey runId a.idempotencyKey with
  | some stored =>
    .require (stored = { a.command with id := stored.id }) acceptanceConflict
    match ← impulses.find? runId a.impulse.id with
    | none => .raise "domain store: impulse not found"
    | some prior =>
      .require (prior = a.impulse) impulseDiffers
      match ← .fetch fun db => db.eventById runId a.event.id with
      | none => .raise "domain store: impulse acceptance event is missing"
      | some event =>
        .require (a.sameEvent stored.id event) "domain store: impulse acceptance event conflict"
        return ⟨prior, stored, [event], true⟩
  | none =>
    let taken ← .fetch fun db => (db.commandById runId a.idempotencyKey).isSome
    .require (!taken) "domain store: impulse acceptance command id already exists"
    let present ← impulses.find? runId a.impulse.id
    .require present.isNone "domain store: impulse id already exists"
    insertCommand a.command
    impulses.insert a.impulse
    let sequence ← .fetch fun db => db.nextSequence runId
    insertEvent (a.event.row runId a.idempotencyKey sequence)
    return ⟨a.impulse, a.command, [a.event.row runId a.idempotencyKey sequence], false⟩

/-- `accept_impulse` -/
def acceptImpulse (a : ImpulseAcceptance) : Sql ImpulseAcceptanceResult := do
  .require (a.impulse.isValid ∧ a.idempotencyKey ≠ "" ∧ a.createdAt ≠ "")
    "domain store: invalid impulse acceptance"
  requireStoreRun a.impulse.runId
  let result ← .transact id (acceptBody a)
  if result.replayed then return result
  else do
    match ← .fetch fun db => db.eventById a.impulse.runId a.event.id with
    | none => .raise "domain store: stored impulse event is missing"
    | some event => return { result with events := [event] }

section
variable {ρ : Type} {key : ρ → String × String}

/-- The `put_` writes that overwrite: validity, run, upsert. -/
def putUpsert (table : SideTable key) (valid : Bool) (invalid failed runId : String) (row : ρ) :
    Sql Unit := do
  .require valid invalid
  requireStoreRun runId
  .transact (fun _ => failed) (table.upsert row)

/-- The `put_` writes that only insert: a stored row must be the same one. -/
def putOnce [DecidableEq ρ] (table : SideTable key) (conflict failed runId id : String) (row : ρ) :
    Sql Unit := do
  match ← table.find? runId id with
  | some existing => .require (existing = row) conflict
  | none => .transact (fun _ => failed) (table.insert row)

end

def putImpulse (row : Impulse) : Sql Unit :=
  putUpsert impulses row.isValid "domain store: invalid impulse" "domain store: put_impulse failed"
    row.runId row

def putImpulseType (row : ImpulseType) : Sql Unit :=
  putUpsert impulseTypes row.isValid "domain store: invalid impulse type"
    "domain store: put_impulse_type failed" row.runId row

def putImpulseRelation (row : ImpulseRelation) : Sql Unit :=
  putUpsert impulseRelations row.isValid "domain store: invalid impulse relation"
    "domain store: put_impulse_relation failed" row.runId row

def putAssociation (row : Association) : Sql Unit :=
  putUpsert associations row.isValid "domain store: invalid association"
    "domain store: put_association failed" row.runId row

def putProjection (row : Projection) : Sql Unit :=
  putUpsert projections row.isValid "domain store: invalid projection"
    "domain store: put_projection failed" row.runId row

/-- `put_reaction`; the identity of its content is checked before the run. -/
def putReaction (row : Reaction) : Sql Unit := do
  .require row.isValid "domain store: invalid reaction"
  .ofExcept row.validateCasIdentity
  requireStoreRun row.runId
  let metadata ← .ofExcept (Reaction.canonicalMetadata row.metadata)
  putOnce reactions "domain store: reaction id already exists with different data"
    "domain store: put_reaction failed" row.runId row.id { row with metadata }

def putHomeostat (row : Homeostat) : Sql Unit := do
  .require row.isValid "domain store: invalid homeostat"
  requireStoreRun row.runId
  putOnce homeostats "domain store: homeostat id already exists with different data"
    "domain store: put_homeostat failed" row.runId row.id row

end Fala.Domain
