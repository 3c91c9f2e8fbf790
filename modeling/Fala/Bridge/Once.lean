import Fala.Bridge.Repeat

/-! What an import and a delivery do that were not made before. -/

namespace Fala.Bridge
open Durable Journal Domain Program

namespace BridgeRecord

/-- Neither the command nor the event of the record is stored. -/
def Unmade (r : BridgeRecord) (db : Database) : Prop :=
  (∀ command, db.commandByKey r.runId r.commandId = some command →
      command.commandType ≠ r.commandType) ∧
    ∀ event, db.eventById r.runId (r.event r.commandId).id = some event → event.eventType ≠ r.eventType

theorem unmade_of_empty {r : BridgeRecord} {db : Database} (commands : db.commands = .empty)
    (events : db.events = .empty) : r.Unmade db := by
  unfold Unmade Database.commandByKey Database.eventById
  rw [commands, events]
  exact ⟨nofun, nofun⟩

/-- The log grew by the command and the event of the record. -/
def AppendedTo (r : BridgeRecord) (db db' : Database) : Prop :=
  db'.commands.rows = db.commands.rows ++ [r.command] ∧
    db'.events.rows = db.events.rows ++
      [(r.event r.commandId).row r.runId r.commandId (db.nextSequence r.runId)]

end BridgeRecord

theorem recordBridgeJournal_unmade {r : BridgeRecord} {u : Unit} {db db' : Database}
    (unmade : r.Unmade db) (h : (recordBridgeJournal r).eval db = (.ok u, db')) :
    (∃ commands events, db' = (db.setCommands commands).setEvents events) ∧ r.AppendedTo db db' := by
  simp only [recordBridgeJournal, recordCommand, bind_ok, require_ok, fetch_ok, commandByKey_ok] at h
  obtain ⟨_, _, ⟨-, rfl⟩, id, _, ⟨_, _, ⟨looked, rfl⟩, command⟩, _, _, ⟨found, rfl⟩, h⟩ := h
  cases known : db.commandByKey r.runId r.commandId with
  | some stored =>
    rw [known] at looked
    subst looked
    simp only [bind_ok, require_ok, decide_eq_true_eq] at command
    obtain ⟨_, _, ⟨typed, -⟩, -⟩ := command
    exact absurd typed (unmade.1 stored known)
  | none =>
    rw [known] at looked
    subst looked
    simp only [bind_ok, pure_ok] at command
    obtain ⟨_, _, inserted, rfl, rfl⟩ := command
    obtain ⟨commands, added, rfl⟩ := insertCommand_rows inserted
    cases prior : db.eventById r.runId (r.event r.commandId).id with
    | some event =>
      have here : (db.setCommands commands).eventById r.runId (r.event r.commandId).id = some event :=
        prior
      rw [here] at found
      subst found
      simp only [bind_ok, require_ok] at h
      obtain ⟨_, _, ⟨same, -⟩, -⟩ := h
      exact absurd (of_decide_eq_true same).1 (unmade.2 event prior)
    | none =>
      have here : (db.setCommands commands).eventById r.runId (r.event r.commandId).id = none := prior
      rw [here] at found
      subst found
      simp only [bind_ok, fetch_ok, insertEvent_ok] at h
      obtain ⟨_, _, ⟨rfl, rfl⟩, -, events, appended, rfl⟩ := h
      obtain ⟨-, rows⟩ := Ledger.append?_some.mp appended
      exact ⟨⟨commands, events, rfl⟩, added, rows⟩

namespace TransportCall

/-- The record of the delivery of a row, and of its import. -/
def deliverRecord (c : TransportCall) (row : BridgeDelivery) : BridgeRecord :=
  c.delivery.record "delivered" "delivered" (row.attempts + 1) row.impulse.id

def importRecord (c : TransportCall) (row : BridgeDelivery) : BridgeRecord :=
  Bridge.importRecord (importedRow row c.stableImportKey) row.impulse.id

theorem stableDeliveryKey_ne (c : TransportCall) : c.stableDeliveryKey ≠ "" := by
  unfold stableDeliveryKey
  split
  · exact fun none => absurd (String.append_eq_empty_iff.mp none).1 (by decide)
  · assumption

theorem stableImportKey_ne (c : TransportCall) : c.stableImportKey ≠ "" := by
  unfold stableImportKey
  split
  · exact fun none => absurd (String.append_eq_empty_iff.mp none).1 (by decide)
  · assumption

/-- The change that one delivery makes of the source. -/
structure DeliveredOnce (c : TransportCall) (row : BridgeDelivery) (s s' : Database) : Prop where
  changed : s' = ((bridgeOutbox.write s s'.bridgeOutbox).setCommands s'.commands).setEvents s'.events
  outbox : ∃ budget, row.budget.consumeDelivery = some budget ∧
    s'.bridgeOutbox.rows.filter (fun d => d.key = row.key) =
      [{ row with
          budget, status := "delivered", attempts := row.attempts + 1, updatedAt := c.updatedAt }]
  outboxOthers : ∀ key, key ≠ row.key → s'.bridgeOutbox.find? key = s.bridgeOutbox.find? key
  log : (c.deliverRecord row).AppendedTo s s'

/-- The change that one import makes of the target. -/
structure ImportedOnce (c : TransportCall) (row : BridgeDelivery) (t t' : Database) : Prop where
  changed : t' = ((impulses.write (bridgeInbox.write t t'.bridgeInbox) t'.impulses).setCommands
    t'.commands).setEvents t'.events
  inbox : ∃ d, t'.bridgeInbox.rows.filter (fun d => d.key = (row.target.runId, row.id)) = [d] ∧
    d.status = "imported" ∧ d.idempotencyKey = c.stableImportKey ∧ d.attempts = row.attempts + 1 ∧
      row.budget.consumeDelivery = some d.budget
  inboxOthers : ∀ key, key ≠ (row.target.runId, row.id) →
    t'.bridgeInbox.find? key = t.bridgeInbox.find? key
  imported : ∃ impulse, normalizeImportedImpulse (importedRow row c.stableImportKey) = .ok impulse ∧
    t'.impulses.rows.filter (fun i => i.key = (row.target.runId, row.impulse.id)) = [impulse]
  impulseOthers : ∀ key, key ≠ (row.target.runId, row.impulse.id) →
    t'.impulses.find? key = t.impulses.find? key
  log : (c.importRecord row).AppendedTo t t'

end TransportCall

variable {c : TransportCall} {row : BridgeDelivery} {s s' t t' : Database}

theorem BridgeRecord.Unmade.beside {r : BridgeRecord} {db db' : Database} (unmade : r.Unmade db)
    (beside : Beside db db') : r.Unmade db' := by
  unfold Unmade Database.commandByKey Database.eventById
  rw [beside.commands, beside.events]
  exact unmade

theorem BridgeRecord.AppendedTo.beside {r : BridgeRecord} {db middle db' : Database}
    (appended : r.AppendedTo middle db') (beside : Beside db middle) : r.AppendedTo db db' := by
  unfold AppendedTo Database.nextSequence at appended ⊢
  rw [beside.commands, beside.events] at appended
  exact appended

theorem recordKeyed_unmade {r : BridgeRecord} {u : Unit} {db db' : Database}
    (keyed : r.commandId ≠ "") (unmade : r.Unmade db)
    (h : (recordKeyed r).eval db = (.ok u, db')) :
    (∃ commands events, db' = (db.setCommands commands).setEvents events) ∧ r.AppendedTo db db' := by
  rw [recordKeyed, if_pos keyed] at h
  exact recordBridgeJournal_unmade unmade h

theorem deliverBody_once {budget : RuntimeBudget} {u : Unit}
    (here : (c.sourceRunId, c.deliveryId) = row.key)
    (stored : s.bridgeOutbox.find? row.key = some row)
    (consumed : row.budget.consumeDelivery = some budget) (unmade : (c.deliverRecord row).Unmade s)
    (h : (deliverBody c.delivery row budget).eval s = (.ok u, s')) : c.DeliveredOnce row s s' := by
  simp only [deliverBody, bind_ok, require_ok, decide_eq_true_eq] at h
  obtain ⟨_, _, update, _, _, ⟨one, rfl⟩, recorded⟩ := h
  obtain ⟨old, found, -, rfl⟩ := SideTable.update_one update one
  obtain ⟨⟨commands, events, rfl⟩, appended⟩ := recordKeyed_unmade c.stableDeliveryKey_ne
    (unmade.beside (beside_write _ _ _)) recorded
  have place : (c.delivery.runId, c.delivery.deliveryId) = row.key := here
  have keeps (d : BridgeDelivery) : ({ d with
      budget, status := "delivered", attempts := row.attempts + 1,
      updatedAt := c.delivery.updatedAt } : BridgeDelivery).key = d.key := rfl
  refine ⟨rfl, ⟨budget, consumed, ?_⟩, fun key other => ?_, appended.beside (beside_write _ _ _)⟩
  · rw [← place] at stored ⊢
    exact Table.filter_key (Table.find?_modified stored _ keeps)
  · have apart : key ≠ (c.delivery.runId, c.delivery.deliveryId) := place ▸ other
    exact (Table.find?_modify _ _ key _ keeps).trans (if_neg apart)

theorem deliver_completes (here : (c.sourceRunId, c.deliveryId) = row.key)
    (stored : s.bridgeOutbox.find? row.key = some row) (pending : row.status = "pending")
    (unmade : (c.deliverRecord row).Unmade s) :
    (deliverBridgeDelivery c.delivery).Completes s (c.DeliveredOnce row s) := by
  refine .require fun _ => .afterRead (getBridge_reads _ _ _) fun current read =>
    .require fun _ => .afterRead (replayedDelivery_reads _ _ _) fun replayed answered => ?_
  obtain ⟨-, found⟩ := getBridge_known read
  have same : s.bridgeOutbox.find? (c.sourceRunId, c.deliveryId) = some current := found
  rw [here] at same
  cases stored.symm.trans same
  have waiting : row.status ≠ "delivered" := by simp [pending]
  obtain ⟨⟨rfl, prior, looked, type, -⟩ | ⟨rfl, -⟩, -⟩ :=
    (DeliveryCall.replayedDelivery_iff c.stableDeliveryKey_ne).mp answered
  · exact absurd type (unmade.1 prior looked)
  · simp only [Bool.false_eq_true, waiting, or_self, if_false]
    refine .afterRead (.ofExcept _) fun _ _ => ?_
    cases consumed : row.budget.consumeDelivery with
    | none => exact .raise _
    | some budget =>
      exact .thenRead (.transact fun _ s' h => deliverBody_once here stored consumed unmade h)
        fun _ => getBridge_reads _ _ _

theorem deliver_again (stored : s.bridgeOutbox.find? (c.sourceRunId, c.deliveryId) = some row)
    (delivered : row.status = "delivered") :
    (deliverBridgeDelivery c.delivery).Completes s (· = s) := by
  refine .require fun _ => .afterRead (getBridge_reads _ _ _) fun current read =>
    .require fun _ => .afterRead (replayedDelivery_reads _ _ _) fun replayed _ => ?_
  obtain ⟨-, found⟩ := getBridge_known read
  have same : s.bridgeOutbox.find? (c.sourceRunId, c.deliveryId) = some current := found
  cases stored.symm.trans same
  simp only [delivered, or_true, if_true]
  exact .ofReadOnly (.pure _) fun _ _ => rfl

theorem deliver_refused (stored : s.bridgeOutbox.find? (c.sourceRunId, c.deliveryId) = some row)
    (idle : row.status ≠ "pending") (undelivered : row.status ≠ "delivered") {Q : Database → Prop} :
    (deliverBridgeDelivery c.delivery).Completes s Q := by
  refine .require fun _ => .afterRead (getBridge_reads _ _ _) fun current read =>
    .require fun status => ?_
  obtain ⟨-, found⟩ := getBridge_known read
  have same : s.bridgeOutbox.find? (c.sourceRunId, c.deliveryId) = some current := found
  cases stored.symm.trans same
  exact absurd (of_decide_eq_true status) (not_or.mpr ⟨idle, undelivered⟩)

theorem insertMissing_once {impulse : Impulse} {stored : Bool} {u : Unit} {db db' : Database}
    (held : stored = true → Holds impulses impulse db)
    (h : (insertMissing impulse stored).eval db = (.ok u, db')) :
    ∃ rows, db' = impulses.write db rows ∧ rows.find? impulse.key = some impulse ∧
      ∀ key, key ≠ impulse.key → rows.find? key = db.impulses.find? key := by
  unfold insertMissing at h
  split at h
  · rename_i present
    obtain ⟨-, rfl⟩ := pure_ok.mp h
    exact ⟨db.impulses, rfl, held present, fun _ _ => rfl⟩
  · obtain ⟨rows, inserted, -, rfl⟩ := SideTable.insert_ok.mp h
    have found := Table.find?_insert inserted
    exact ⟨rows, rfl, (found _).trans (if_pos rfl), fun key other =>
      (found key).trans (if_neg (Ne.symm other))⟩

theorem storeImported_once {row : BridgeDelivery} {impulse : Impulse} {budget : RuntimeBudget}
    {existing : Option BridgeDelivery} {u : Unit} {db db' : Database}
    (imported : row.status = "imported")
    (same : ∀ prior ∈ existing, prior.id = row.id ∧ prior.idempotencyKey = row.idempotencyKey ∧
      db.bridgeInbox.find? row.key = some prior)
    (h : (storeImported row impulse budget existing).eval db = (.ok u, db')) :
    ∃ rows, db' = bridgeInbox.write db rows ∧
      (∃ d, rows.find? row.key = some d ∧ d.status = "imported" ∧
        d.idempotencyKey = row.idempotencyKey ∧ d.attempts = row.attempts + 1 ∧ d.budget = budget) ∧
      ∀ key, key ≠ row.key → rows.find? key = db.bridgeInbox.find? key := by
  cases existing with
  | none =>
    obtain ⟨rows, inserted, -, rfl⟩ := SideTable.insert_ok.mp h
    have found := Table.find?_insert inserted
    refine ⟨rows, rfl, ⟨_, (found row.key).trans (if_pos rfl), imported, rfl, rfl, rfl⟩, ?_⟩
    exact fun key other => (found key).trans (if_neg (Ne.symm other))
  | some prior =>
    obtain ⟨id, key, stored⟩ := same prior rfl
    simp only [storeImported, bind_ok, require_ok, decide_eq_true_eq] at h
    obtain ⟨_, _, update, one, rfl⟩ := h
    obtain ⟨old, found, -, rfl⟩ := SideTable.update_one update one
    have here : (row.runId, prior.id) = row.key := congrArg (row.runId, ·) id
    have keeps (d : BridgeDelivery) : (importUpdate row impulse budget d).key = d.key := rfl
    rw [← here] at stored ⊢
    refine ⟨_, rfl, ⟨_, Table.find?_modified stored _ keeps, rfl, key, rfl, rfl⟩, ?_⟩
    exact fun key other => (Table.find?_modify _ _ key _ keeps).trans (if_neg other)

theorem existingDelivery_stored {inbox : Table BridgeDelivery.key} {row d : BridgeDelivery}
    (stored : inbox.find? row.key = some d) : existingDelivery inbox.rows row = some d := by
  have first : inbox.rows.find? (fun d => d.runId = row.runId ∧ d.id = row.id) = some d := by
    rw [← stored]
    refine congrArg (List.find? · inbox.rows) (funext fun held => ?_)
    simp [BridgeDelivery.key]
  rw [existingDelivery, first, Option.some_or]

theorem existingDelivery_found {inbox : Table BridgeDelivery.key} {row d : BridgeDelivery}
    (h : existingDelivery inbox.rows row = some d) (same : d.id = row.id) :
    inbox.find? row.key = some d := by
  have listed : d ∈ inbox.rows ∧ d.runId = row.runId := by
    rcases Option.or_eq_some_iff.mp h with first | ⟨-, second⟩
    · have here := List.find?_some first
      exact ⟨List.mem_of_find?_eq_some first, (of_decide_eq_true here).1⟩
    · have here := List.find?_some second
      exact ⟨List.mem_of_find?_eq_some second, (of_decide_eq_true here).1⟩
  exact Table.find?_some.mpr ⟨listed.1, Prod.ext listed.2 same⟩

theorem sameInbox_ok {row prior : BridgeDelivery} (h : sameInbox row prior = .ok true) :
    prior.id = row.id ∧ prior.idempotencyKey = row.idempotencyKey := by
  unfold sameInbox at h
  split at h
  · assumption
  · cases h

theorem importBody_again {row d : BridgeDelivery} {impulse : Impulse} {u : Unit}
    (stored : t.bridgeInbox.find? row.key = some d) (imported : d.status = "imported")
    (h : (importBody row impulse).eval t = (.ok u, t')) : t' = t := by
  simp only [importBody, bind_ok, fetch_ok] at h
  obtain ⟨_, _, checked, existing, _, ⟨looked, rfl⟩, h⟩ := h
  obtain ⟨rfl, -⟩ := impulseStored_ok checked
  cases looked.symm.trans (existingDelivery_stored stored)
  simp only [imported, if_true, bind_ok, ofExcept_ok, require_ok] at h
  obtain ⟨_, _, ⟨-, rfl⟩, _, _, ⟨-, rfl⟩, _, _, ⟨-, rfl⟩, -, rfl⟩ := h
  rfl

theorem normalizeImportedImpulse_key {row : BridgeDelivery} {impulse : Impulse}
    (made : normalizeImportedImpulse row = .ok impulse) : impulse.key = (row.runId, row.impulse.id) := by
  unfold normalizeImportedImpulse at made
  split at made
  · cases made
    rfl
  · cases made

theorem importedRow_key (c : TransportCall) (row : BridgeDelivery) :
    (importedRow row c.stableImportKey).idempotencyKey = c.stableImportKey :=
  if_pos c.stableImportKey_ne

theorem importWrites_once {impulse : Impulse} {existing : Option BridgeDelivery} {u : Unit}
    (made : normalizeImportedImpulse (importedRow row c.stableImportKey) = .ok impulse)
    (held : ∀ stored, t.impulses.find? impulse.key = some stored → stored = impulse)
    (same : ∀ prior ∈ existing, prior.id = row.id ∧ prior.idempotencyKey = c.stableImportKey ∧
      t.bridgeInbox.find? (row.target.runId, row.id) = some prior)
    (unmade : (c.importRecord row).Unmade t)
    (h : (importWrites (importedRow row c.stableImportKey) impulse existing).eval t = (.ok u, t')) :
    c.ImportedOnce row t t' := by
  have named := normalizeImportedImpulse_key made
  simp only [importWrites, bind_ok, ofExcept_ok] at h
  obtain ⟨_, _, ⟨-, rfl⟩, h⟩ := h
  cases consumed : (importedRow row c.stableImportKey).budget.consumeDelivery with
  | none => simp only [consumed, raise_ok] at h
  | some budget =>
    simp only [consumed, bind_ok, SideTable.find?_ok] at h
    obtain ⟨_, _, inbox, stored, _, ⟨read, rfl⟩, _, _, missing, record⟩ := h
    obtain ⟨rows, rfl, ⟨d, found, imported, key, attempts, rfl⟩, others⟩ :=
      storeImported_once rfl (by rwa [importedRow_key]) inbox
    obtain ⟨rows', rfl, kept, rest⟩ := insertMissing_once (fun present => by
      obtain ⟨other, rfl⟩ := Option.isSome_iff_exists.mp present
      exact held other read ▸ read) missing
    have beside : Beside t (impulses.write (bridgeInbox.write t rows) rows') := ⟨rfl, rfl, rfl, rfl⟩
    have record : (recordBridgeJournal (c.importRecord row)).eval
        (impulses.write (bridgeInbox.write t rows) rows') = (.ok u, t') := by
      have id : impulse.id = row.impulse.id := congrArg Prod.snd named
      rw [TransportCall.importRecord, ← id]
      exact record
    obtain ⟨⟨commands, events, rfl⟩, appended⟩ :=
      recordBridgeJournal_unmade (unmade.beside beside) record
    refine ⟨rfl, ⟨d, Table.filter_key found, imported, key.trans (importedRow_key c row), attempts,
      consumed⟩, others, ⟨impulse, made, ?_⟩, ?_, appended.beside beside⟩
    · rw [named] at kept
      exact Table.filter_key kept
    · rw [named] at rest
      exact rest

theorem importBody_once {impulse : Impulse} {u : Unit}
    (made : normalizeImportedImpulse (importedRow row c.stableImportKey) = .ok impulse)
    (unimported : ∀ d, t.bridgeInbox.find? (row.target.runId, row.id) = some d →
      d.status ≠ "imported")
    (unmade : (c.importRecord row).Unmade t)
    (h : (importBody (importedRow row c.stableImportKey) impulse).eval t = (.ok u, t')) :
    c.ImportedOnce row t t' := by
  simp only [importBody, bind_ok, fetch_ok] at h
  obtain ⟨_, _, checked, existing, _, ⟨looked, rfl⟩, h⟩ := h
  obtain ⟨rfl, -, held⟩ := impulseStored_ok checked
  cases existing with
  | none => exact importWrites_once made held (by simp) unmade h
  | some prior =>
    simp only [bind_ok, ofExcept_ok, require_ok] at h
    obtain ⟨_, _, ⟨compared, rfl⟩, _, _, ⟨rfl, rfl⟩, h⟩ := h
    obtain ⟨id, key⟩ := sameInbox_ok compared
    have stored := existingDelivery_found looked id
    simp only [if_neg (unimported prior stored), bind_ok, require_ok] at h
    obtain ⟨_, _, ⟨-, rfl⟩, h⟩ := h
    refine importWrites_once made held (fun held here => ?_) unmade h
    cases here
    exact ⟨id, key.trans (importedRow_key c row), stored⟩

theorem import_completes {Q : Database → Prop} {key : String}
    (body : ∀ u impulse t', normalizeImportedImpulse (importedRow row key) = .ok impulse →
      (importBody (importedRow row key) impulse).eval t = (.ok u, t') → Q t') :
    (importBridgeDelivery row key).Completes t Q := by
  refine .require fun _ => .require fun _ => .require fun _ => .afterRead (.ofExcept _) fun _ _ =>
    .afterRead (requireStoreRun_reads _) fun _ _ => .afterRead (.ofExcept _) fun impulse made =>
    .thenRead (.transact fun u t' h => body u impulse t' (ofExcept_ok.mp made).1 h)
      fun _ => getBridge_reads _ _ _

end Fala.Bridge
