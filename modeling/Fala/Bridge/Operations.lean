import Fala.Bridge.Delivery

namespace Fala.Bridge
open Durable Journal Domain

/-- `_bridge_enqueue_payload` -/
def enqueuePayload (row : BridgeDelivery) (includeStatus : Bool) : Text :=
  .template ([("delivery_id", .quote row.id), ("impulse_id", .quote row.impulse.id),
    ("source", row.source.toJson), ("target", row.target.toJson),
    ("pool_id", optionalJson row.poolId), ("budget", row.budget.toJson)] ++
    (if row.eventRef.isDefault then [] else [("event_ref", row.eventRef.toJson)]) ++
    if includeStatus then [("status", .quote row.status), ("attempts", .number row.attempts)]
    else [])

/-- The arguments of `enqueue_bridge_delivery`. -/
structure BridgeEnqueue where
  row : BridgeDelivery
  idempotencyKey : String := ""
  actor : String := ""
  correlationId : String := ""
  causationId : String := ""
  deriving DecidableEq

namespace BridgeEnqueue

/-- The delivery with its key, its run and its timestamp filled in. -/
def delivery (e : BridgeEnqueue) : BridgeDelivery :=
  { e.row with
    idempotencyKey := if e.idempotencyKey ≠ "" then e.idempotencyKey else e.row.idempotencyKey
    runId := e.row.source.runId
    updatedAt := if e.row.updatedAt = "" then e.row.createdAt else e.row.updatedAt }

def command (e : BridgeEnqueue) (payload : Text) : CommandRow where
  runId := e.delivery.runId
  id := e.delivery.idempotencyKey
  commandType := "bridge.outbox.enqueue"
  idempotencyKey := e.delivery.idempotencyKey
  actor := e.actor
  correlationId := e.correlationId
  causationId := e.causationId
  payload
  createdAt := e.delivery.updatedAt

def event (e : BridgeEnqueue) (payload : Text) : EventInput where
  id := e.delivery.idempotencyKey ++ ":event"
  eventType := "bridge.outbox.enqueued"
  payload
  createdAt := e.delivery.updatedAt
  impulseId := e.delivery.impulse.id
  actor := e.actor
  correlationId := e.correlationId
  causationId := e.causationId

/-- The runs that the outbox of a run targets, each once. -/
def targetRuns (rows : List BridgeDelivery) (runId : String) : List String :=
  ((rows.filter fun d => d.runId = runId).map fun d => d.target.runId).eraseDups

end BridgeEnqueue

structure BridgeEnqueueResult where
  delivery : BridgeDelivery
  submission : CommandSubmission
  deriving DecidableEq

/-- The command stored under the key is this request. -/
def sameEnqueue (e : BridgeEnqueue) (payload : Text) (stored : CommandRow) : Except String Bool :=
  if stored.commandType = "bridge.outbox.enqueue" ∧ stored.actor = e.actor ∧
      stored.correlationId = e.correlationId ∧ stored.causationId = e.causationId ∧
      stored.createdAt = e.delivery.updatedAt then
    bridgeJsonEqual stored.payload payload
  else .ok false

/-- `json_extract(payload, '$.delivery_id')` -/
def deliveryIdFromPayload (payload : Text) : String :=
  match payload.parse.bind (Json.member "delivery_id") with
  | some (.str id) => id
  | _ => ""

/-- A stored impulse of the delivery must be the same; whether there is one. -/
def impulseStored (impulse : Impulse) (conflict : String) : Sql Bool := do
  match ← impulses.find? impulse.runId impulse.id with
  | some existing =>
    .require (existing = impulse) conflict
    return true
  | none => return false

def insertMissing (impulse : Impulse) (stored : Bool) : Sql Unit :=
  if stored then pure () else impulses.insert impulse

/-- The transaction of `enqueue_bridge_delivery`; it names the row to read back. -/
def enqueueBody (e : BridgeEnqueue) (payload eventPayload : Text) :
    Sql (String × CommandSubmission) := do
  let d := e.delivery
  match ← commandByKey d.runId d.idempotencyKey with
  | some stored =>
    let same ← .ofExcept (sameEnqueue e payload stored)
    .require same idempotencyConflict
    let storedId := deliveryIdFromPayload stored.payload
    .require (storedId ≠ "") "domain store: bridge enqueue command identity is invalid"
    let _ ← getBridge .outbox d.runId storedId
    return (storedId, ⟨stored, [], true⟩)
  | none =>
    let targets ← .fetch fun db => BridgeEnqueue.targetRuns db.bridgeOutbox.rows d.runId
    .require (d.target.runId ∈ targets ∨ d.budget.spawnedRuns.all ((targets.length : Int) < ·))
      "domain store: bridge spawned_runs budget exhausted"
    let stored ← impulseStored d.impulse "domain store: bridge impulse idempotency conflict"
    bridgeOutbox.insert d
    insertMissing d.impulse stored
    insertCommand (e.command payload)
    let event ← appendDomainEvent (e.command payload) (e.event eventPayload)
    return (d.id, ⟨e.command payload, [event], false⟩)

/-- `enqueue_bridge_delivery` -/
def enqueueBridgeDelivery (e : BridgeEnqueue) : Sql BridgeEnqueueResult := do
  let d := e.delivery
  .require (d.idempotencyKey ≠ "") "domain store: bridge enqueue idempotency key must not be empty"
  .require (d.isValid ∧ d.status = "pending")
    "domain store: bridge enqueue requires a valid pending delivery"
  .ofExcept (validateBridgeRefs d .outbox)
  requireStoreRun d.runId
  .require (d.updatedAt ≠ "") "domain store: bridge enqueue updated_at must not be empty"
  .ofExcept (validateBridgeBudget d false)
  let payload ← .ofExcept (printable (enqueuePayload d false).canonical)
  let eventPayload ← .ofExcept (printable (enqueuePayload d true).canonical)
  let (id, submission) ← .transact ("domain store: bridge enqueue failed: " ++ ·)
    (enqueueBody e payload eventPayload)
  let saved ← getBridge .outbox d.runId id
  return ⟨saved, submission⟩
where
  printable (text : Option Text) : Except String Text :=
    text.elim (.error "domain store: bridge enqueue payload is invalid JSON") .ok

def importedMetadata : String :=
  "domain store: imported impulse metadata must be a JSON object"

/-- Assignment of a member of an object value. -/
def setMember (name : String) (value : Json) : List (String × Json) → List (String × Json)
  | [] => [(name, value)]
  | (other, held) :: rest =>
    if other = name then (name, value) :: rest else (other, held) :: setMember name value rest

/-- `_normalize_imported_impulse` -/
def normalizeImportedImpulse (row : BridgeDelivery) : Except String Impulse :=
  match row.impulse.metadata.parse with
  | some (.obj members) =>
    let members := setMember "source_impulse_id" (.str row.impulse.id)
      (setMember "source_run_id" (.str row.source.runId)
        (setMember "source_runtime_id" (.str row.source.runtime.id) members))
    .ok { row.impulse with
      runId := row.runId
      metadata := .printed (Json.obj members).canonical }
  | _ => .error importedMetadata

/-- The assigned columns of an inbox row that was there before its import. -/
def importUpdate (row : BridgeDelivery) (impulse : Impulse) (budget : RuntimeBudget)
    (d : BridgeDelivery) : BridgeDelivery :=
  { d with
    impulse
    eventRef := row.eventRef
    budget
    status := "imported"
    attempts := row.attempts + 1
    metadata := row.metadata
    updatedAt := row.updatedAt }

def importRecord (row : BridgeDelivery) (impulseId : String) : BridgeRecord where
  runId := row.runId
  commandId := row.idempotencyKey
  commandType := "bridge.inbox.import"
  payload := operationPayload row.id "imported" (row.attempts + 1)
  eventType := "bridge.inbox.imported"
  createdAt := row.updatedAt
  impulseId

/-- The stored inbox row may be the one that is imported. -/
def sameInbox (row prior : BridgeDelivery) : Except String Bool :=
  if prior.id = row.id ∧ prior.idempotencyKey = row.idempotencyKey then
    (allJsonEqual [(prior.source.toJson, row.source.toJson),
      (prior.target.toJson, row.target.toJson)]).map fun same => same && prior.poolId = row.poolId
  else .ok false

/-- The inbox row of an import, written over the stored one or inserted. -/
def storeImported (row : BridgeDelivery) (impulse : Impulse) (budget : RuntimeBudget) :
    Option BridgeDelivery → Sql Unit
  | some prior => do
    let changes ← bridgeInbox.update row.runId prior.id (fun _ => true)
      (importUpdate row impulse budget)
    .require (changes = 1) "domain store: inbox import lost ownership"
  | none => bridgeInbox.insert { row with impulse, budget, attempts := row.attempts + 1 }

/-- The writes of an import, once its row is known to be new or replaceable. -/
def importWrites (row : BridgeDelivery) (impulse : Impulse) (existing : Option BridgeDelivery) :
    Sql Unit := do
  .ofExcept (validateBridgeBudget row true)
  match row.budget.consumeDelivery with
  | none => .raise "domain store: bridge budget exhausted"
  | some budget =>
    storeImported row impulse budget existing
    let stored ← impulses.find? impulse.runId impulse.id
    insertMissing impulse stored.isSome
    recordBridgeJournal (importRecord row impulse.id)

/-- The transaction of `import_inbox_delivery`. -/
def importBody (row : BridgeDelivery) (impulse : Impulse) : Sql Unit := do
  let _ ← impulseStored impulse "domain store: bridge impulse idempotency conflict"
  match ← .fetch fun db => existingDelivery db.bridgeInbox.rows row with
  | none => importWrites row impulse none
  | some prior =>
    let same ← .ofExcept (sameInbox row prior)
    .require same idempotencyConflict
    if prior.status = "imported" then do
      let same ← .ofExcept (bridgeJsonEqual prior.impulse.toJson impulse.toJson)
      .require same idempotencyConflict
    else do
      .require (bridgeStatusTransitionAllowed prior.status row.status) invalidTransition
      importWrites row impulse (some prior)

/-- `import_inbox_delivery` -/
def importInboxDelivery (row : BridgeDelivery) : Sql BridgeDelivery := do
  .require (row.isValid ∧ row.status = "imported")
    "domain store: inbox import requires valid imported delivery"
  .ofExcept (validateBridgeRefs row .inbox)
  requireStoreRun row.runId
  let impulse ← .ofExcept (normalizeImportedImpulse row)
  .transact (reraise ["idempotency conflict", "status transition", "budget"]
    fun _ => "domain store: inbox import failed") (importBody row impulse)
  getBridge .inbox row.runId row.id

/-- The inbox row of a remote delivery. -/
def importedRow (row : BridgeDelivery) (idempotencyKey : String) : BridgeDelivery :=
  { row with
    idempotencyKey := if idempotencyKey ≠ "" then idempotencyKey else row.idempotencyKey
    runId := row.target.runId
    status := "imported"
    updatedAt := if row.updatedAt = "" then row.createdAt else row.updatedAt }

/-- `import_bridge_delivery` -/
def importBridgeDelivery (row : BridgeDelivery) (idempotencyKey : String) :
    Sql BridgeDelivery := do
  let imported := importedRow row idempotencyKey
  .require (imported.idempotencyKey ≠ "")
    "domain store: bridge import idempotency key must not be empty"
  .require (imported.updatedAt ≠ "") "domain store: bridge import updated_at must not be empty"
  importInboxDelivery imported

/-- The arguments that the operations on a stored delivery share. -/
structure DeliveryCall where
  table : BridgeTable
  runId : String
  deliveryId : String
  updatedAt : String
  idempotencyKey : String := ""
  deriving DecidableEq

/-- The record of an operation on a stored delivery. -/
def DeliveryCall.record (c : DeliveryCall) (operation status : String) (attempts : Int)
    (impulseId : String) : BridgeRecord where
  runId := c.runId
  commandId := c.idempotencyKey
  commandType := "bridge." ++ c.table.name ++ "." ++ operation
  payload := operationPayload c.deliveryId status attempts
  eventType := "bridge." ++ c.table.name ++ "." ++ operation
  createdAt := c.updatedAt
  impulseId

/-- The transaction of `transition_bridge_delivery`. -/
def transitionDeliveryBody (c : DeliveryCall) (toStatus : String) (current : BridgeDelivery) :
    Sql Unit := do
  changeStatus
  recordKeyed (c.record toStatus toStatus current.attempts "")
where
  changeStatus : Sql Unit :=
    if current.status ≠ toStatus then do
      let changes ← c.table.table.update c.runId c.deliveryId
        (fun d => d.status = current.status)
        fun d => { d with status := toStatus, updatedAt := c.updatedAt }
      .require (changes = 1) "domain store: bridge transition lost ownership"
    else pure ()

/-- `transition_bridge_delivery` -/
def transitionBridgeDelivery (c : DeliveryCall) (toStatus : String) : Sql BridgeDelivery := do
  .require (statusBridge toStatus) "domain store: invalid bridge status"
  .require (c.updatedAt ≠ "") updatedAtEmpty
  let current ← getBridge c.table c.runId c.deliveryId
  .require (bridgeStatusTransitionAllowed current.status toStatus) invalidTransition
  if c.idempotencyKey = "" ∧ current.status = toStatus then return current
  else do
    .transact id (transitionDeliveryBody c toStatus current)
    getBridge c.table c.runId c.deliveryId

/-- `claim_bridge_delivery` -/
def claimBridgeDelivery (c : DeliveryCall) : Sql BridgeDelivery :=
  transitionBridgeDelivery c "pending"

/-- The command recorded under the key of a call that gives one must be the expected one;
    whether there is one. -/
def replayedDelivery (c : DeliveryCall) (commandType : String) (expected : Text) : Sql Bool :=
  if c.idempotencyKey ≠ "" then do
    match ← commandByKey c.runId c.idempotencyKey with
    | some prior =>
      .require (prior.commandType = commandType) idempotencyConflict
      let same ← .ofExcept (bridgeJsonEqual prior.payload expected)
      .require same idempotencyConflict
      return true
    | none => return false
  else return false

/-- The transaction of `deliver_bridge_delivery`. -/
def deliverBody (c : DeliveryCall) (current : BridgeDelivery) (budget : RuntimeBudget) :
    Sql Unit := do
  let changes ← c.table.table.update c.runId c.deliveryId (fun d => d.status = "pending")
    fun d => { d with
      budget, status := "delivered", attempts := current.attempts + 1, updatedAt := c.updatedAt }
  .require (changes = 1) "domain store: bridge delivery lost ownership"
  recordKeyed (c.record "delivered" "delivered" (current.attempts + 1) current.impulse.id)

/-- `deliver_bridge_delivery`. A replay is judged by the attempts that the row has now. -/
def deliverBridgeDelivery (c : DeliveryCall) : Sql BridgeDelivery := do
  .require (c.updatedAt ≠ "") updatedAtEmpty
  let current ← getBridge c.table c.runId c.deliveryId
  .require (current.status = "pending" ∨ current.status = "delivered") invalidTransition
  let attempts := if current.status = "pending" then current.attempts + 1 else current.attempts
  let replayed ← replayedDelivery c ("bridge." ++ c.table.name ++ ".delivered")
    (operationPayload c.deliveryId "delivered" attempts)
  if replayed ∨ current.status = "delivered" then return current
  else do
    .ofExcept (validateBridgeBudget current true)
    match current.budget.consumeDelivery with
    | none => .raise "domain store: bridge budget exhausted"
    | some budget =>
      .transact id (deliverBody c current budget)
      getBridge c.table c.runId c.deliveryId

/-- The transaction of `retry_bridge_delivery`. -/
def retryBody (c : DeliveryCall) (current : BridgeDelivery) : Sql Unit := do
  let changes ← c.table.table.update c.runId c.deliveryId (fun d => d.status = "pending")
    fun d => { d with attempts := d.attempts + 1, updatedAt := c.updatedAt }
  .require (changes = 1) "domain store: bridge retry lost ownership"
  recordKeyed (c.record "retry" "pending" (current.attempts + 1) current.impulse.id)

/-- `retry_bridge_delivery`. A replay is judged by the attempts that the row has now. -/
def retryBridgeDelivery (c : DeliveryCall) : Sql BridgeDelivery := do
  .require (c.updatedAt ≠ "") updatedAtEmpty
  let current ← getBridge c.table c.runId c.deliveryId
  .require (current.status = "pending") invalidTransition
  let replayed ← replayedDelivery c ("bridge." ++ c.table.name ++ ".retry")
    (operationPayload c.deliveryId "pending" current.attempts)
  if replayed then return current
  else do
    .ofExcept (validateBridgeBudget current true)
    .transact id (retryBody c current)
    getBridge c.table c.runId c.deliveryId

/-- A pending delivery of one run, which may be attempted twice. -/
def pendingDelivery : BridgeDelivery where
  id := "d"
  runId := "r"
  idempotencyKey := "k"
  source := ⟨⟨"local", "", .printed (.obj [])⟩, "r"⟩
  target := ⟨⟨"remote", "", .printed (.obj [])⟩, "t"⟩
  impulse := ⟨"i", "r", "message", .printed .null, .printed (.obj []), "0", "0"⟩
  eventRef := ⟨⟨"runtime", "", .printed (.obj [])⟩, "run", "", 0⟩
  poolId := ""
  budget := ⟨some 1, none, some 1, none, some 2, none⟩
  status := "pending"
  attempts := 0
  metadata := .printed (.obj [])
  createdAt := "0"
  updatedAt := "0"

/-- A database with one run that is running. -/
def oneRun (id : String) : Database :=
  { Database.empty with
    runs := ⟨[⟨id, "running", "", {}, 1, "", "0", "0", "", ""⟩], by simp⟩ }

def oneDelivery : Database :=
  { oneRun "r" with bridgeOutbox := ⟨[pendingDelivery], by simp⟩ }

end Fala.Bridge
