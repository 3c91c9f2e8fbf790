import Fala.Bridge.Effects
import Fala.Domain.Effects
import Fala.Durable.Focus

namespace Fala.Bridge
open Durable Journal Domain Program

namespace DeliveryCall

/-- The command under the key of the call records the operation with this payload. -/
def Recalls (c : DeliveryCall) (commandType : String) (payload : Text) (db : Database) : Prop :=
  ∃ prior, db.commandByKey c.runId c.idempotencyKey = some prior ∧
    prior.commandType = commandType ∧ bridgeJsonEqual prior.payload payload = .ok true

variable {c : DeliveryCall} {commandType : String} {payload : Text} {db db' : Database}

theorem replayedDelivery_iff (keyed : c.idempotencyKey ≠ "") {replayed : Bool} :
    (replayedDelivery c commandType payload).eval db = (.ok replayed, db') ↔
      (replayed = true ∧ c.Recalls commandType payload db ∨
        replayed = false ∧ db.commandByKey c.runId c.idempotencyKey = none) ∧ db = db' := by
  simp only [replayedDelivery, if_pos keyed, bind_ok, commandByKey_ok]
  constructor
  · rintro ⟨found, _, ⟨looked, rfl⟩, h⟩
    cases found with
    | none =>
      obtain ⟨rfl, rfl⟩ := pure_ok.mp h
      exact ⟨.inr ⟨rfl, looked⟩, rfl⟩
    | some prior =>
      simp only [bind_ok, require_ok, ofExcept_ok, pure_ok, decide_eq_true_eq] at h
      obtain ⟨_, _, ⟨type, rfl⟩, _, _, ⟨equal, rfl⟩, _, _, ⟨rfl, rfl⟩, rfl, rfl⟩ := h
      exact ⟨.inl ⟨rfl, prior, looked, type, equal⟩, rfl⟩
  · rintro ⟨⟨rfl, prior, looked, type, equal⟩ | ⟨rfl, looked⟩, rfl⟩
    · refine ⟨some prior, db, ⟨looked, rfl⟩, ?_⟩
      exact (ok_bind (require_met (decide_eq_true type))).trans <|
        (ok_bind (ofExcept_ok.mpr ⟨equal, rfl⟩)).trans (ok_bind (require_met rfl))
    · exact ⟨none, db, ⟨looked, rfl⟩, rfl⟩

theorem known_after {runId deliveryId : String} {table : BridgeTable} {current row : BridgeDelivery}
    {P : Write → Prop} {R : Database → Prop} {p : Sql BridgeDelivery} {middle : Database}
    (read : (getBridge table runId deliveryId).eval db = (.ok current, middle))
    (settles : p.Settles db (CommitsWith P R db)) (h : p.eval db = (.ok row, db')) :
    RunKnown db' runId := by
  simp only [getBridge, getRow, bind_ok] at read
  obtain ⟨_, _, required, -⟩ := read
  obtain ⟨known, -⟩ := requireStoreRun_runKnown required
  have final : (p.run ⟨db, none⟩).2.store = db' := congrArg Prod.snd h
  have reached := settles none
  rw [final] at reached
  rcases reached with rfl | ⟨-, rfl | ⟨w, -, written, -⟩⟩
  · exact known
  · exact known
  · exact ⟨known.1, written.logged.kept _ known.2⟩

/-- What an accepted call with a key leaves in place. -/
structure Recorded (c : DeliveryCall) (db : Database) : Prop where
  keyed : c.idempotencyKey ≠ ""
  timed : c.updatedAt ≠ ""
  known : RunKnown db c.runId

theorem Recorded.grown (recorded : c.Recorded db) (grown : Grown db db') : c.Recorded db' where
  keyed := recorded.keyed
  timed := recorded.timed
  known := ⟨recorded.known.1, grown.runs _ recorded.known.2⟩

theorem getBridge_iff {table : BridgeTable} {runId deliveryId : String} {row : BridgeDelivery}
    (known : RunKnown db runId) :
    (getBridge table runId deliveryId).eval db = (.ok row, db) ↔
      (table.table.read db).find? (runId, deliveryId) = some row := by
  constructor
  · exact fun h => (getBridge_known h).2
  · exact fun found => (ok_bind (requireStoreRun_known known)).trans
      (ok_bind (SideTable.find?_ok.mpr ⟨found, rfl⟩))

theorem Keyed.found {r : BridgeRecord} (keyed : r.Keyed db) (named : r.commandId ≠ "") :
    db.commandByKey r.runId r.commandId ≠ none := by
  obtain ⟨command, member, -, -, run, key, -⟩ := keyed named
  have found : db.commandByKey r.runId r.commandId = some command :=
    Ledger.find?_some.mpr ⟨member, Prod.ext run key⟩
  simp [found]

theorem retry_recorded {row : BridgeDelivery} (keyed : c.idempotencyKey ≠ "")
    (h : (retryBridgeDelivery c).eval db = (.ok row, db')) : c.Recorded db' := by
  have checked := h
  simp only [retryBridgeDelivery, bind_ok, require_ok, decide_eq_true_eq] at checked
  obtain ⟨_, _, ⟨timed, rfl⟩, current, _, read, -⟩ := checked
  exact ⟨keyed, timed, known_after read (retryBridgeDelivery_settles c db) h⟩

theorem deliver_recorded {row : BridgeDelivery} (keyed : c.idempotencyKey ≠ "")
    (h : (deliverBridgeDelivery c).eval db = (.ok row, db')) : c.Recorded db' := by
  have checked := h
  simp only [deliverBridgeDelivery, bind_ok, require_ok, decide_eq_true_eq] at checked
  obtain ⟨_, _, ⟨timed, rfl⟩, current, _, read, -⟩ := checked
  exact ⟨keyed, timed, known_after read (deliverBridgeDelivery_settles c db) h⟩

/-- The delivery is pending and the recorded retry is the one of the attempts that it has now. -/
def RetryCurrent (c : DeliveryCall) (db : Database) : Prop :=
  ∃ current, (c.table.table.read db).find? (c.runId, c.deliveryId) = some current ∧
    current.status = "pending" ∧
      c.Recalls ("bridge." ++ c.table.name ++ ".retry")
        (operationPayload c.deliveryId "pending" current.attempts) db

theorem retry_repeats_iff (recorded : c.Recorded db) :
    (∃ row, (retryBridgeDelivery c).eval db = (.ok row, db)) ↔ c.RetryCurrent db := by
  obtain ⟨keyed, timed, known⟩ := recorded
  constructor
  · rintro ⟨row, h⟩
    simp only [retryBridgeDelivery, bind_ok, require_ok, decide_eq_true_eq] at h
    obtain ⟨_, _, ⟨-, rfl⟩, current, _, read, _, _, ⟨pending, rfl⟩, replayed, _, answered, h⟩ := h
    obtain ⟨-, found, rfl⟩ := getRow_ok read
    obtain ⟨recalled, rfl⟩ := (replayedDelivery_iff keyed).mp answered
    rcases recalled with ⟨-, recalls⟩ | ⟨rfl, free⟩
    · exact ⟨current, found, pending, recalls⟩
    · simp only [Bool.false_eq_true, if_false, bind_ok, ofExcept_ok, transact_ok, retryBody,
        require_ok] at h
      obtain ⟨_, _, ⟨-, rfl⟩, _, _, ⟨_, _, -, _, _, ⟨-, rfl⟩, record⟩, reread⟩ := h
      obtain ⟨-, -, rfl⟩ := getRow_ok reread
      exact absurd free (Keyed.found (recordKeyed_ok record).2 keyed)
  · rintro ⟨current, found, pending, recalls⟩
    refine ⟨current, ?_⟩
    exact (ok_bind (require_met (decide_eq_true timed))).trans <|
      (ok_bind ((getBridge_iff known).mpr found)).trans <|
      (ok_bind (require_met (decide_eq_true pending))).trans
        (ok_bind ((replayedDelivery_iff keyed).mpr ⟨.inl ⟨rfl, recalls⟩, rfl⟩))

/-- The recorded delivery is the one of the attempts that the row has now, or none is recorded of
    a row that was delivered already. -/
def DeliveryCurrent (c : DeliveryCall) (db : Database) : Prop :=
  ∃ current, (c.table.table.read db).find? (c.runId, c.deliveryId) = some current ∧
    (current.status = "pending" ∧
        c.Recalls ("bridge." ++ c.table.name ++ ".delivered")
          (operationPayload c.deliveryId "delivered" (current.attempts + 1)) db ∨
      current.status = "delivered" ∧
        (c.Recalls ("bridge." ++ c.table.name ++ ".delivered")
            (operationPayload c.deliveryId "delivered" current.attempts) db ∨
          db.commandByKey c.runId c.idempotencyKey = none))

theorem deliver_repeats_iff (recorded : c.Recorded db) :
    (∃ row, (deliverBridgeDelivery c).eval db = (.ok row, db)) ↔ c.DeliveryCurrent db := by
  obtain ⟨keyed, timed, known⟩ := recorded
  constructor
  · rintro ⟨row, h⟩
    simp only [deliverBridgeDelivery, bind_ok, require_ok, decide_eq_true_eq] at h
    obtain ⟨_, _, ⟨-, rfl⟩, current, _, read, _, _, ⟨status, rfl⟩, replayed, _, answered, h⟩ := h
    obtain ⟨-, found, rfl⟩ := getRow_ok read
    obtain ⟨recalled, rfl⟩ := (replayedDelivery_iff keyed).mp answered
    refine ⟨current, found, ?_⟩
    rcases status with pending | delivered
    · refine .inl ⟨pending, ?_⟩
      rw [if_pos pending] at recalled
      rcases recalled with ⟨-, recalls⟩ | ⟨rfl, free⟩
      · exact recalls
      · have undelivered : current.status ≠ "delivered" := by simp [pending]
        simp only [Bool.false_eq_true, undelivered, or_self, if_false, bind_ok, ofExcept_ok] at h
        obtain ⟨_, _, ⟨-, rfl⟩, h⟩ := h
        cases consumed : current.budget.consumeDelivery with
        | none => simp only [consumed, raise_ok] at h
        | some budget =>
          simp only [consumed, bind_ok, transact_ok, deliverBody, require_ok] at h
          obtain ⟨_, _, ⟨_, _, -, _, _, ⟨-, rfl⟩, record⟩, reread⟩ := h
          obtain ⟨-, -, rfl⟩ := getRow_ok reread
          exact absurd free (Keyed.found (recordKeyed_ok record).2 keyed)
    · have idle : current.status ≠ "pending" := by simp [delivered]
      rw [if_neg idle] at recalled
      exact .inr ⟨delivered, recalled.imp And.right And.right⟩
  · rintro ⟨current, found, status⟩
    refine ⟨current, ?_⟩
    have begun : (deliverBridgeDelivery c).eval db =
        ((replayedDelivery c ("bridge." ++ c.table.name ++ ".delivered")
          (operationPayload c.deliveryId "delivered"
            (if current.status = "pending" then current.attempts + 1 else current.attempts))) >>=
          fun replayed =>
            if replayed ∨ current.status = "delivered" then pure current else _).eval db :=
      (ok_bind (require_met (decide_eq_true timed))).trans <|
        (ok_bind ((getBridge_iff known).mpr found)).trans
          (ok_bind (require_met (decide_eq_true (status.imp And.left And.left))))
    rw [begun]
    rcases status with ⟨pending, recalls⟩ | ⟨delivered, recalls | free⟩
    · rw [if_pos pending]
      exact ok_bind ((replayedDelivery_iff keyed).mpr ⟨.inl ⟨rfl, recalls⟩, rfl⟩)
    · have idle : current.status ≠ "pending" := by simp [delivered]
      rw [if_neg idle]
      exact ok_bind ((replayedDelivery_iff keyed).mpr ⟨.inl ⟨rfl, recalls⟩, rfl⟩)
    · refine (ok_bind ((replayedDelivery_iff keyed).mpr ⟨.inr ⟨rfl, free⟩, rfl⟩)).trans ?_
      simp only [delivered, or_true, if_true]
      rfl

end DeliveryCall
end Fala.Bridge

/-! The transport between two local databases: an import into the target, then the delivery on the
    source, each in its own transaction. The paths that name the databases are not modelled. -/

namespace Fala.Bridge
open Durable Journal Domain

/-- The databases at the two ends of a transport. -/
structure Ends where
  source : Database
  target : Database
  deriving DecidableEq

variable {α : Type}

def onSource (p : Sql α) : Program Ends α := p.focus Ends.source fun e source => { e with source }

def onTarget (p : Sql α) : Program Ends α := p.focus Ends.target fun e target => { e with target }

/-- The arguments of `deliver_local_bridge`. -/
structure TransportCall where
  sourceRunId : String
  deliveryId : String
  updatedAt : String
  deliveryKey : String := ""
  importKey : String := ""
  deriving DecidableEq

namespace TransportCall

def stableDeliveryKey (c : TransportCall) : String :=
  if c.deliveryKey = "" then "bridge.deliver:" ++ c.deliveryId else c.deliveryKey

def stableImportKey (c : TransportCall) : String :=
  if c.importKey = "" then "bridge.import:" ++ c.deliveryId else c.importKey

/-- The delivery on the source. -/
def delivery (c : TransportCall) : DeliveryCall where
  table := .outbox
  runId := c.sourceRunId
  deliveryId := c.deliveryId
  updatedAt := c.updatedAt
  idempotencyKey := c.stableDeliveryKey

end TransportCall

structure BridgeTransportResult where
  sourceDelivery : BridgeDelivery
  importedDelivery : BridgeDelivery
  sourceReplayed : Bool
  importedReplayed : Bool
  deriving DecidableEq

/-- `_bridge_operation_payload` of the transport, which always names the attempts. -/
def transportPayload (deliveryId status : String) (attempts : Int) : Text :=
  .template [("delivery_id", .quote deliveryId), ("status", .quote status),
    ("attempts", .number attempts)]

/-- `_exact_bridge_command` -/
def exactBridgeCommand (runId key commandType : String) (payload : Text) : Sql Bool :=
  if key = "" then return false
  else do
    match ← commandByKey runId key with
    | none => return false
    | some stored =>
      if stored.commandType ≠ commandType then return false
      else
        match payload.canonical, stored.payload.canonical with
        | some expected, some held => return held = expected
        | _, _ => .raise "bridge replay payload invalid"

/-- The attempts of the inbox row, when `get_inbox_delivery` does not raise. -/
def inboxAttempts (runId deliveryId : String) (db : Database) : Option Int :=
  if runId ≠ "" ∧ (db.runs.find? runId).isSome then
    (db.bridgeInbox.find? (runId, deliveryId)).map BridgeDelivery.attempts
  else none

/-- `deliver_local_bridge`. The source swallows a failure of its look into the inbox; here a
    statement that fails there ends the attempt, as a crash does. -/
def deliverLocalBridge (c : TransportCall) : Program Ends BridgeTransportResult := do
  .require (c.sourceRunId ≠ "") "bridge_transport: source run id must not be empty"
  .require (c.deliveryId ≠ "") "bridge_transport: delivery id must not be empty"
  .require (c.updatedAt ≠ "") "bridge_transport: updated_at must not be empty"
  let current ← onSource (getBridge .outbox c.sourceRunId c.deliveryId)
  let attempts := if current.status = "delivered" then current.attempts else current.attempts + 1
  let sourceReplayed ← onSource (exactBridgeCommand c.sourceRunId c.stableDeliveryKey
    "bridge.bridge_outbox.delivered" (transportPayload c.deliveryId "delivered" attempts))
  let importAttempts ← onTarget (.fetch (inboxAttempts current.target.runId c.deliveryId))
  let importedReplayed ← onTarget (exactBridgeCommand current.target.runId c.stableImportKey
    "bridge.inbox.import" (transportPayload c.deliveryId "imported"
      (importAttempts.getD (current.attempts + 1))))
  let imported ← onTarget (importBridgeDelivery current c.stableImportKey)
  let delivered ← onSource (deliverBridgeDelivery c.delivery)
  return ⟨delivered, imported, sourceReplayed, importedReplayed⟩

end Fala.Bridge
