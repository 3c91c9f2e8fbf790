import Fala.Domain.Store

/-! The bridge outbox and inbox. Deliveries are kept as records; the source keeps
    their members as JSON columns and reads them back one by one. -/

namespace Fala.Bridge
open Durable Journal Domain

inductive BridgeTable where
  | outbox | inbox
  deriving DecidableEq

namespace BridgeTable

def name : BridgeTable → String
  | .outbox => "bridge_outbox"
  | .inbox => "bridge_inbox"

def table : BridgeTable → SideTable BridgeDelivery.key
  | .outbox => bridgeOutbox
  | .inbox => bridgeInbox

end BridgeTable

def idempotencyConflict : String := "domain store: bridge idempotency conflict"
def invalidTransition : String := "domain store: invalid bridge status transition"
def updatedAtEmpty : String := "domain store: bridge updated_at must not be empty"

/-- `_bridge_json_equal`; an absent text is `null`. -/
def bridgeJsonEqual (left right : Text) : Except String Bool :=
  let orNull (text : Text) : Text := if text = .empty then .printed .null else text
  match (orNull left).canonical, (orNull right).canonical with
  | some l, some r => .ok (l = r)
  | _, _ => .error "domain store: invalid bridge JSON"

/-- Every pair of texts is equal JSON; a later pair is not read once one differs. -/
def allJsonEqual : List (Text × Text) → Except String Bool
  | [] => .ok true
  | (left, right) :: rest =>
    match bridgeJsonEqual left right with
    | .error detail => .error detail
    | .ok false => .ok false
    | .ok true => allJsonEqual rest

/-- `_validate_bridge_refs` -/
def validateBridgeRefs (row : BridgeDelivery) : BridgeTable → Except String Unit
  | .inbox =>
    if row.target.runId ≠ row.runId then .error "domain store: bridge target run mismatch"
    else .ok ()
  | .outbox =>
    if row.source.runId ≠ row.runId then .error "domain store: bridge source run mismatch"
    else if row.impulse.runId ≠ row.runId then .error "domain store: bridge impulse run mismatch"
    else if ¬ row.eventRef.isDefault ∧ row.eventRef.runId ≠ row.runId then
      .error "domain store: bridge event run mismatch"
    else .ok ()

/-- `_validate_bridge_budget` -/
def validateBridgeBudget (row : BridgeDelivery) (nextAttempt : Bool) : Except String Unit :=
  if row.budget.runtimeHops.any (· < 1) then
    .error "domain store: bridge runtime hop budget exhausted"
  else if row.budget.impulseCount.any (· < 1) then
    .error "domain store: bridge impulse budget exhausted"
  else if nextAttempt ∧ row.budget.attempts.any (· < row.attempts + 1) then
    .error "domain store: bridge attempts budget exhausted"
  else .ok ()

/-- `_bridge_operation_payload` -/
def operationPayload (deliveryId status : String) (attempts : Int) : Text :=
  .template ([("delivery_id", .quote deliveryId), ("status", .quote status)] ++
    if 0 ≤ attempts then [("attempts", .number attempts)] else [])

/-- `_get_bridge` -/
def getBridge (table : BridgeTable) (runId deliveryId : String) : Sql BridgeDelivery :=
  getRow table.table "domain store: bridge delivery not found" runId deliveryId

/-- What `_record_bridge_journal` records: one command and its event. -/
structure BridgeRecord where
  runId : String
  commandId : String
  commandType : String
  payload : Text
  eventType : String
  createdAt : String
  impulseId : String := ""
  deriving DecidableEq

namespace BridgeRecord

def command (r : BridgeRecord) : CommandRow where
  runId := r.runId
  id := r.commandId
  commandType := r.commandType
  idempotencyKey := r.commandId
  actor := ""
  correlationId := ""
  causationId := ""
  payload := r.payload
  createdAt := r.createdAt

def event (r : BridgeRecord) (commandId : String) : EventInput where
  id := commandId ++ ":event"
  eventType := r.eventType
  payload := r.payload
  createdAt := r.createdAt
  impulseId := r.impulseId

def sameEvent (r : BridgeRecord) (commandId : String) (prior : EventRow) : Bool :=
  prior.eventType = r.eventType ∧ prior.impulseId = r.impulseId ∧ prior.commandId = commandId

end BridgeRecord

/-- The command of a bridge record: the stored one when the key is known. -/
def recordCommand (r : BridgeRecord) : Sql String := do
  match ← commandByKey r.runId r.commandId with
  | some stored =>
    .require (stored.commandType = r.commandType) idempotencyConflict
    let same ← .ofExcept (bridgeJsonEqual stored.payload r.payload)
    .require same idempotencyConflict
    return stored.id
  | none =>
    insertCommand r.command
    return r.commandId

/-- `_record_bridge_journal` -/
def recordBridgeJournal (r : BridgeRecord) : Sql Unit := do
  .require (r.commandId ≠ "" ∧ r.commandType ≠ "" ∧ r.payload ≠ .empty ∧ r.eventType ≠ "" ∧
    r.createdAt ≠ "") "domain store: bridge journal fields must not be empty"
  let commandId ← recordCommand r
  match ← .fetch fun db => db.eventById r.runId (r.event commandId).id with
  | some prior =>
    .require (r.sameEvent commandId prior) "domain store: bridge event idempotency conflict"
    let same ← .ofExcept (bridgeJsonEqual prior.payload r.payload)
    .require same "domain store: bridge event idempotency conflict"
  | none =>
    let sequence ← .fetch fun db => db.nextSequence r.runId
    insertEvent ((r.event commandId).row r.runId commandId sequence)

/-- The record of an operation that a caller gave a key for. -/
def recordKeyed (r : BridgeRecord) : Sql Unit :=
  if r.commandId ≠ "" then recordBridgeJournal r else pure ()

/-- The stored row under the delivery's id, else the one under its key. -/
def existingDelivery (rows : List BridgeDelivery) (row : BridgeDelivery) : Option BridgeDelivery :=
  (rows.find? fun d => d.runId = row.runId ∧ d.id = row.id).or
    (rows.find? fun d => d.runId = row.runId ∧ d.idempotencyKey = row.idempotencyKey)

/-- A refused row is rolled back twice, the second time with no transaction open. -/
def rolledBackTwice : String := "cannot rollback - no transaction is active"

/-- The transaction of `_upsert_bridge_row`; it names the row to read back. -/
def upsertBody (table : BridgeTable) (row : BridgeDelivery) : Sql String := do
  match ← .fetch fun db => existingDelivery (table.table.read db).rows row with
  | some prior =>
    .require (prior.id = row.id ∧ prior.idempotencyKey = row.idempotencyKey) rolledBackTwice
    let same ← .ofExcept (allJsonEqual [(prior.source.toJson, row.source.toJson),
      (prior.target.toJson, row.target.toJson), (prior.impulse.toJson, row.impulse.toJson),
      (prior.eventJson, row.eventJson)])
    .require (same ∧ prior.poolId = row.poolId) rolledBackTwice
    let same ← .ofExcept (allJsonEqual [(prior.budget.toJson, row.budget.toJson),
      (prior.metadata, row.metadata)])
    .require same rolledBackTwice
    .require (bridgeStatusTransitionAllowed prior.status row.status) rolledBackTwice
    let attempts := max prior.attempts row.attempts
    if prior.status ≠ row.status ∨ prior.attempts < attempts then do
      let _ ← table.table.update row.runId prior.id (fun _ => true) fun d =>
        { d with status := row.status, attempts, updatedAt := row.updatedAt }
      return prior.id
    else return prior.id
  | none =>
    table.table.insert row
    return row.id

/-- `_upsert_bridge_row` -/
def upsertBridgeRow (table : BridgeTable) (row : BridgeDelivery) : Sql BridgeDelivery := do
  .ofExcept (validateBridgeRefs row table)
  .require (0 ≤ row.attempts) "domain store: invalid bridge attempts"
  let id ← .transact (reraise [rolledBackTwice]
    fun _ => "domain store: bridge delivery write failed") (upsertBody table row)
  getBridge table row.runId id

/-- `put_bridge_delivery` and `put_inbox_delivery` -/
def putDelivery (table : BridgeTable) (row : BridgeDelivery) : Sql BridgeDelivery := do
  .require row.isValid "domain store: invalid bridge delivery"
  .ofExcept (validateBridgeRefs row table)
  requireStoreRun row.runId
  upsertBridgeRow table row

end Fala.Bridge
