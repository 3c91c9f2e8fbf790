import Fala.Bridge.Operations
import Fala.Domain.Effects

/-! What the bridge operations commit. -/

namespace Fala.Bridge
open Durable Journal Domain Program

namespace BridgeRecord

/-- The write of a bridge record: its command unless the key was known, and its event unless
    that was stored. -/
def Stores (r : BridgeRecord) (w : Write) : Prop :=
  ∃ commands events, w = .record r.runId commands events ∧
    (commands = [] ∨ commands = [r.command]) ∧ (events = [] ∨ ∃ id, events = [(id, r.event id)])

/-- The command and the event of a bridge record are stored. -/
def Present (r : BridgeRecord) (db : Database) : Prop :=
  ∃ command ∈ db.commands.rows, ∃ event ∈ db.events.rows,
    command.runId = r.runId ∧ command.idempotencyKey = r.commandId ∧
      command.commandType = r.commandType ∧ event.runId = r.runId ∧
        event.commandId = command.id ∧ event.eventType = r.eventType

/-- The same, when the caller gave a key. -/
def Keyed (r : BridgeRecord) (db : Database) : Prop := r.commandId ≠ "" → r.Present db

end BridgeRecord

/-- A log that a transaction extended, the other tables being as they were. -/
structure Extended (r : BridgeRecord) (db db' : Database) : Prop where
  log : ∃ commands events, db' = (db.setCommands commands).setEvents events
  writes : ∃ commands events, r.Stores (.record r.runId commands events) ∧
    db'.commands.rows = db.commands.rows ++ commands ∧
      EventsStored db'.commands.rows r.runId events db.events.rows db'.events.rows

theorem recordCommand_ok {r : BridgeRecord} {id : String} {db db' : Database}
    (h : (recordCommand r).eval db = (.ok id, db')) :
    ∃ commands, db' = db.setCommands commands ∧
      (commands.rows = db.commands.rows ∨
        (commands.rows = db.commands.rows ++ [r.command] ∧ id = r.commandId)) ∧
      ∃ command ∈ commands.rows, command.runId = r.runId ∧ command.id = id ∧
        command.idempotencyKey = r.commandId ∧ command.commandType = r.commandType := by
  simp only [recordCommand, bind_ok, commandByKey_ok] at h
  obtain ⟨_, _, ⟨rfl, rfl⟩, h⟩ := h
  cases found : db.commandByKey r.runId r.commandId with
  | some stored =>
    simp only [found, bind_ok, require_ok, ofExcept_ok, pure_ok, decide_eq_true_eq] at h
    obtain ⟨_, _, ⟨typed, rfl⟩, _, _, ⟨-, rfl⟩, _, _, ⟨-, rfl⟩, rfl, rfl⟩ := h
    obtain ⟨member, same⟩ := Ledger.find?_some.mp found
    exact ⟨db.commands, rfl, .inl rfl, stored, member, congrArg Prod.fst same, rfl,
      congrArg Prod.snd same, typed⟩
  | none =>
    simp only [found, bind_ok, pure_ok] at h
    obtain ⟨_, _, command, rfl, rfl⟩ := h
    obtain ⟨commands, stored, rfl⟩ := insertCommand_rows command
    exact ⟨commands, rfl, .inr ⟨stored, rfl⟩, r.command, by simp [stored], rfl, rfl, rfl, rfl⟩

theorem recordBridgeJournal_ok {r : BridgeRecord} {u : Unit} {db db' : Database}
    (h : (recordBridgeJournal r).eval db = (.ok u, db')) : Extended r db db' ∧ r.Present db' := by
  simp only [recordBridgeJournal, bind_ok, require_ok, fetch_ok] at h
  obtain ⟨_, _, ⟨-, rfl⟩, id, _, command, _, _, ⟨rfl, rfl⟩, h⟩ := h
  obtain ⟨commands, rfl, grown, stored, member, run, rfl, key, typed⟩ := recordCommand_ok command
  have added : ∃ new : List CommandRow, commands.rows = db.commands.rows ++ new ∧
      (new = [] ∨ new = [r.command]) := by
    rcases grown with same | ⟨appended, -⟩
    · exact ⟨[], by simp [same], .inl rfl⟩
    · exact ⟨_, appended, .inr rfl⟩
  obtain ⟨new, added, kind⟩ := added
  cases found : (db.setCommands commands).eventById r.runId (r.event stored.id).id with
  | some prior =>
    simp only [found, bind_ok, require_ok, ofExcept_ok] at h
    obtain ⟨_, _, ⟨same, rfl⟩, _, _, ⟨-, rfl⟩, -, rfl⟩ := h
    obtain ⟨told, named⟩ := Ledger.find?_some.mp found
    obtain ⟨type, -, owner⟩ := of_decide_eq_true same
    refine ⟨⟨⟨commands, db.events, rfl⟩, new, [], ⟨_, _, rfl, kind, .inl rfl⟩, added, .nil⟩, ?_⟩
    exact ⟨stored, member, prior, told, run, key, typed, congrArg Prod.fst named, owner, type⟩
  | none =>
    simp only [found, bind_ok, fetch_ok, insertEvent_ok] at h
    obtain ⟨_, _, ⟨rfl, rfl⟩, referenced, events, appended, rfl⟩ := h
    obtain ⟨⟨-, fresh⟩, rows⟩ := Ledger.append?_some.mp appended
    refine ⟨⟨⟨commands, events, rfl⟩, new, _, ⟨_, _, rfl, kind, .inr ⟨stored.id, rfl⟩⟩, added,
      .one ?_⟩, ?_⟩
    · simp only [Database.setEvents, rows]
      exact .appended fresh referenced
    · exact ⟨stored, member, _, by
        simp only [Database.setEvents, rows, List.mem_append, List.mem_singleton]
        exact .inr rfl, run, key, typed, rfl, rfl, rfl⟩

theorem recordKeyed_ok {r : BridgeRecord} {u : Unit} {db db' : Database}
    (h : (recordKeyed r).eval db = (.ok u, db')) : Extended r db db' ∧ r.Keyed db' := by
  unfold recordKeyed at h
  split at h
  · obtain ⟨extended, present⟩ := recordBridgeJournal_ok h
    exact ⟨extended, fun _ => present⟩
  · rename_i unkeyed
    obtain ⟨-, rfl⟩ := pure_ok.mp h
    refine ⟨⟨⟨db.commands, db.events, rfl⟩, [], [], ⟨_, _, rfl, .inl rfl, .inl rfl⟩, ?_, .nil⟩,
      fun keyed => absurd keyed unkeyed⟩
    simp

theorem Extended.commits {r : BridgeRecord} {R : Database → Prop} {db middle db' : Database}
    (beside : Beside db middle) (extended : Extended r middle db')
    (known : (db.runs.find? r.runId).isSome = true) (holds : R db') :
    CommitsWith r.Stores R db db' := by
  obtain ⟨⟨commands, events, rfl⟩, added, told, stores, stored, listed⟩ := extended
  rw [beside.commands] at stored
  rw [beside.events] at listed
  exact .inr ⟨_, stores, .record beside.processes (.intro beside.runs known stored listed), holds⟩

/-- The delivery under a key has a status. -/
def DeliveryIs (table : BridgeTable) (runId id status : String) (db : Database) : Prop :=
  ((table.table.read db).find? (runId, id)).any (fun d => d.status = status) = true

theorem DeliveryIs.extended {table : BridgeTable} {runId id status : String} {r : BridgeRecord}
    {db db' : Database} (is : DeliveryIs table runId id status db) (extended : Extended r db db') :
    DeliveryIs table runId id status db' := by
  obtain ⟨commands, events, rfl⟩ := extended.log
  rw [DeliveryIs, table.table.read_setEvents, table.table.read_setCommands]
  exact is

theorem deliveryIs_update (table : BridgeTable) {runId id status : String}
    {guard : BridgeDelivery → Bool} {f : BridgeDelivery → BridgeDelivery}
    {keeps : ∀ d, (f d).key = d.key} {n : Nat} {db db' : Database}
    (h : (table.table.update runId id guard f keeps).eval db = (.ok n, db')) (changed : n = 1)
    (moved : ∀ d, (f d).status = status) :
    Beside db db' ∧ DeliveryIs table runId id status db' := by
  obtain ⟨old, found, -, rfl⟩ := SideTable.update_one h changed
  refine ⟨beside_write table.table db _, ?_⟩
  rw [DeliveryIs, table.table.read_write]
  exact Table.any_modify found f keeps (by simp [moved])

theorem getBridge_reads (table : BridgeTable) (runId deliveryId : String) :
    ReadOnly (getBridge table runId deliveryId) := getRow_reads _ _ _ _

theorem getBridge_known {table : BridgeTable} {runId deliveryId : String} {row : BridgeDelivery}
    {db db' : Database} (h : (getBridge table runId deliveryId).eval db = (.ok row, db')) :
    (db.runs.find? runId).isSome = true ∧
      (table.table.read db).find? (runId, deliveryId) = some row :=
  ⟨(getRow_ok h).1, (getRow_ok h).2.1⟩

theorem replayedDelivery_reads (c : DeliveryCall) (commandType : String) (expected : Text) :
    ReadOnly (replayedDelivery c commandType expected) := by
  unfold replayedDelivery
  split
  · refine .bind (commandByKey_reads _ _) fun found => ?_
    cases found with
    | some prior =>
      exact .bind (.require _ _) fun _ => .bind (.ofExcept _) fun _ => .bind (.require _ _)
        fun _ => .pure _
    | none => exact .pure _
  · exact .pure _

/-- What an operation on a stored delivery commits: the row in its new status, and the record of
    the operation when the caller gave a key. -/
def DeliveryCall.Moves (c : DeliveryCall) (operation status : String) (db db' : Database) : Prop :=
  CommitsWith (fun w => ∃ attempts impulseId, (c.record operation status attempts impulseId).Stores w)
    (fun db' => DeliveryIs c.table c.runId c.deliveryId status db' ∧
      ∃ attempts impulseId, (c.record operation status attempts impulseId).Keyed db') db db'

theorem Extended.moves {c : DeliveryCall} {operation status impulseId : String} {attempts : Int}
    {db middle db' : Database} (beside : Beside db middle)
    (extended : Extended (c.record operation status attempts impulseId) middle db')
    (known : (db.runs.find? c.runId).isSome = true)
    (is : DeliveryIs c.table c.runId c.deliveryId status middle)
    (keyed : (c.record operation status attempts impulseId).Keyed db') :
    c.Moves operation status db db' := by
  rcases extended.commits beside known (is.extended extended) with same | ⟨w, stores, written, is⟩
  · exact .inl same
  · exact .inr ⟨w, ⟨_, _, stores⟩, written, is, _, _, keyed⟩

theorem transitionBridgeDelivery_settles (c : DeliveryCall) (toStatus : String) (db : Database) :
    (transitionBridgeDelivery c toStatus).Settles db (c.Moves toStatus toStatus db) := by
  refine .require fun _ => .require fun _ => .afterRead (getBridge_reads _ _ _) fun current read =>
    .require fun _ => ?_
  obtain ⟨known, found⟩ := getBridge_known read
  split
  · exact .ofReadOnly (.pure _)
  · refine .thenRead (.transact fun _ db' h => ?_) fun _ => getBridge_reads _ _ _
    simp only [transitionDeliveryBody, bind_ok] at h
    obtain ⟨_, middle, changed, recorded⟩ := h
    have moved : Beside db middle ∧ DeliveryIs c.table c.runId c.deliveryId toStatus middle := by
      unfold transitionDeliveryBody.changeStatus at changed
      split at changed
      · simp only [bind_ok, require_ok, decide_eq_true_eq] at changed
        obtain ⟨_, _, update, one, rfl⟩ := changed
        exact deliveryIs_update _ update one fun _ => rfl
      · rename_i same
        obtain ⟨-, rfl⟩ := pure_ok.mp changed
        exact ⟨.refl db, by simpa [DeliveryIs, found] using same⟩
    obtain ⟨extended, keyed⟩ := recordKeyed_ok recorded
    exact extended.moves moved.1 known moved.2 keyed

theorem deliverBridgeDelivery_settles (c : DeliveryCall) (db : Database) :
    (deliverBridgeDelivery c).Settles db (c.Moves "delivered" "delivered" db) := by
  refine .require fun _ => .afterRead (getBridge_reads _ _ _) fun current read =>
    .require fun _ => .afterRead (replayedDelivery_reads _ _ _) fun replayed _ => ?_
  obtain ⟨known, -⟩ := getBridge_known read
  split
  · exact .ofReadOnly (.pure _)
  · refine .afterRead (.ofExcept _) fun _ _ => ?_
    cases current.budget.consumeDelivery with
    | none => exact .ofReadOnly (.raise _)
    | some budget =>
      refine .thenRead (.transact fun _ db' h => ?_) fun _ => getBridge_reads _ _ _
      simp only [deliverBody, bind_ok, require_ok, decide_eq_true_eq] at h
      obtain ⟨_, _, update, _, _, ⟨one, rfl⟩, recorded⟩ := h
      obtain ⟨beside, is⟩ := deliveryIs_update _ update one fun _ => rfl
      obtain ⟨extended, keyed⟩ := recordKeyed_ok recorded
      exact extended.moves beside known is keyed

theorem retryBridgeDelivery_settles (c : DeliveryCall) (db : Database) :
    (retryBridgeDelivery c).Settles db (c.Moves "retry" "pending" db) := by
  refine .require fun _ => .afterRead (getBridge_reads _ _ _) fun current read =>
    .require fun _ => .afterRead (replayedDelivery_reads _ _ _) fun replayed _ => ?_
  obtain ⟨known, -⟩ := getBridge_known read
  split
  · exact .ofReadOnly (.pure _)
  · refine .afterRead (.ofExcept _) fun _ _ =>
      .thenRead (.transact fun _ db' h => ?_) fun _ => getBridge_reads _ _ _
    simp only [retryBody, bind_ok, require_ok, decide_eq_true_eq] at h
    obtain ⟨_, _, update, _, _, ⟨one, rfl⟩, recorded⟩ := h
    obtain ⟨old, found, guarded, rfl⟩ := SideTable.update_one update one
    obtain ⟨extended, keyed⟩ := recordKeyed_ok recorded
    refine extended.moves (beside_write c.table.table db _) known ?_ keyed
    rw [DeliveryIs, c.table.table.read_write]
    exact Table.any_modify found _ _ guarded

theorem putDelivery_settles (table : BridgeTable) (row : BridgeDelivery) (db : Database) :
    (putDelivery table row).Settles db
      (CommitsWith Unrecorded (DeliveryIs table row.runId row.id row.status) db) := by
  refine .require fun _ => .afterRead (.ofExcept _) fun _ _ =>
    .afterRead (requireStoreRun_reads _) fun _ known => .afterRead (.ofExcept _) fun _ _ =>
    .require fun _ => .thenRead (.transact fun _ db' h => ?_) fun _ => getBridge_reads _ _ _
  obtain ⟨known, -⟩ := requireStoreRun_ok known
  simp only [upsertBody, bind_ok, fetch_ok] at h
  obtain ⟨existing, _, ⟨-, rfl⟩, h⟩ := h
  cases existing with
  | none =>
    simp only [bind_ok, pure_ok] at h
    obtain ⟨_, _, inserted, -, rfl⟩ := h
    obtain ⟨beside, holds⟩ := insert_beside inserted
    refine beside.commits known ?_
    exact (congrArg (Option.any _) holds).trans (decide_eq_true rfl)
  | some prior =>
    simp only [bind_ok, require_ok, ofExcept_ok, decide_eq_true_eq] at h
    obtain ⟨_, _, ⟨⟨same, -⟩, rfl⟩, _, _, ⟨-, rfl⟩, _, _, ⟨-, rfl⟩, _, _, ⟨-, rfl⟩, _, _, ⟨-, rfl⟩,
      _, _, ⟨-, rfl⟩, h⟩ := h
    split at h
    · simp only [bind_ok, pure_ok] at h
      obtain ⟨n, _, update, -, rfl⟩ := h
      by_cases one : n = 1
      · obtain ⟨beside, is⟩ := deliveryIs_update _ update one fun _ => rfl
        exact beside.commits known (same ▸ is)
      · exact .inl (updateWhere_none update one)
    · obtain ⟨-, rfl⟩ := pure_ok.mp h
      exact .inl rfl

theorem impulseStored_ok {impulse : Impulse} {conflict : String} {stored : Bool}
    {db db' : Database} (h : (impulseStored impulse conflict).eval db = (.ok stored, db')) :
    db = db' ∧ (stored = true → Holds impulses impulse db) ∧
      ∀ other, db.impulses.find? impulse.key = some other → other = impulse := by
  simp only [impulseStored, bind_ok, SideTable.find?_ok] at h
  obtain ⟨found, _, ⟨read, rfl⟩, h⟩ := h
  have read : db.impulses.find? impulse.key = found := read
  cases found with
  | none =>
    obtain ⟨rfl, rfl⟩ := pure_ok.mp h
    exact ⟨rfl, by rintro ⟨⟩, by simp [read]⟩
  | some existing =>
    simp only [bind_ok, require_ok, pure_ok, decide_eq_true_eq] at h
    obtain ⟨_, _, ⟨rfl, rfl⟩, -, rfl⟩ := h
    exact ⟨rfl, fun _ => read, by simp [read]⟩

theorem insertMissing_ok {impulse : Impulse} {stored : Bool} {u : Unit} {db db' : Database}
    (h : (insertMissing impulse stored).eval db = (.ok u, db'))
    (held : stored = true → Holds impulses impulse db) :
    ∃ rows, db' = impulses.write db rows ∧ Holds impulses impulse db' := by
  unfold insertMissing at h
  split at h
  · rename_i present
    obtain ⟨-, rfl⟩ := pure_ok.mp h
    exact ⟨db.impulses, rfl, held present⟩
  · obtain ⟨-, holds⟩ := insert_beside h
    obtain ⟨rows, -, -, rfl⟩ := SideTable.insert_ok.mp h
    exact ⟨rows, rfl, holds⟩

/-- The write of an enqueue. -/
def BridgeEnqueue.Stores (e : BridgeEnqueue) (w : Write) : Prop :=
  ∃ payload eventPayload, w = .record e.delivery.runId [e.command payload]
    [(e.delivery.idempotencyKey, (e.event eventPayload).inherit (e.command payload))]

theorem enqueueBridgeDelivery_settles (e : BridgeEnqueue) (db : Database) :
    (enqueueBridgeDelivery e).Settles db (CommitsWith e.Stores
      (fun db' => Holds bridgeOutbox e.delivery db' ∧ Holds impulses e.delivery.impulse db')
      db) := by
  refine .require fun _ => .require fun _ => .afterRead (.ofExcept _) fun _ _ =>
    .afterRead (requireStoreRun_reads _) fun _ known => .require fun _ =>
    .afterRead (.ofExcept _) fun _ _ => .afterRead (.ofExcept _) fun payload _ =>
    .afterRead (.ofExcept _) fun eventPayload _ => .thenRead (.transact fun _ db' h => ?_)
      fun _ => .bind (getBridge_reads _ _ _) fun _ => .pure _
  obtain ⟨known, -⟩ := requireStoreRun_ok known
  simp only [enqueueBody, bind_ok, commandByKey_ok] at h
  obtain ⟨_, _, ⟨rfl, rfl⟩, h⟩ := h
  cases found : db.commandByKey e.delivery.runId e.delivery.idempotencyKey with
  | some stored =>
    simp only [found, bind_ok, require_ok, ofExcept_ok, pure_ok] at h
    obtain ⟨_, _, ⟨-, rfl⟩, _, _, ⟨-, rfl⟩, _, _, ⟨-, rfl⟩, _, _, read, -, rfl⟩ := h
    exact .inl (getRow_ok read).2.2.symm
  | none =>
    simp only [found, bind_ok, require_ok, fetch_ok, pure_ok] at h
    obtain ⟨_, _, ⟨-, rfl⟩, _, _, ⟨-, rfl⟩, present, _, impulse, _, _, outbox, _, _, missing, _, _,
      command, _, _, event, -, rfl⟩ := h
    obtain ⟨rfl, held, -⟩ := impulseStored_ok impulse
    obtain ⟨beside, queued⟩ := insert_beside outbox
    obtain ⟨rows, -, -, rfl⟩ := SideTable.insert_ok.mp outbox
    obtain ⟨rows', rfl, kept⟩ := insertMissing_ok missing held
    obtain ⟨commands, stored, rfl⟩ := insertCommand_rows command
    obtain ⟨events, told, rfl⟩ := appendDomainEvent_rows event
    exact .inr ⟨_, ⟨payload, eventPayload, rfl⟩,
      .record rfl (.intro rfl known stored (.one told)), queued, kept⟩

theorem importWrites_commits {row : BridgeDelivery} {impulse : Impulse}
    {existing : Option BridgeDelivery} {u : Unit} {db db' : Database}
    (known : (db.runs.find? row.runId).isSome = true)
    (imported : row.status = "imported") (same : ∀ prior ∈ existing, prior.id = row.id)
    (held : ∀ stored, db.impulses.find? impulse.key = some stored → stored = impulse)
    (h : (importWrites row impulse existing).eval db = (.ok u, db')) :
    CommitsWith (importRecord row impulse.id).Stores
      (fun db' => DeliveryIs .inbox row.runId row.id "imported" db' ∧ Holds impulses impulse db' ∧
        (importRecord row impulse.id).Present db') db db' := by
  simp only [importWrites, bind_ok, ofExcept_ok] at h
  obtain ⟨_, _, ⟨-, rfl⟩, h⟩ := h
  cases consumed : row.budget.consumeDelivery with
  | none => simp only [consumed, raise_ok] at h
  | some budget =>
    simp only [consumed, bind_ok, SideTable.find?_ok] at h
    obtain ⟨_, middle, inbox, stored, _, ⟨read, rfl⟩, _, _, missing, record⟩ := h
    have moved : (∃ rows, middle = bridgeInbox.write db rows) ∧
        DeliveryIs .inbox row.runId row.id "imported" middle := by
      cases existing with
      | none =>
        obtain ⟨-, holds⟩ := insert_beside inbox
        obtain ⟨rows, -, -, rfl⟩ := SideTable.insert_ok.mp inbox
        exact ⟨⟨rows, rfl⟩, (congrArg (Option.any _) holds).trans (decide_eq_true imported)⟩
      | some prior =>
        simp only [storeImported, bind_ok, require_ok, decide_eq_true_eq] at inbox
        obtain ⟨_, _, update, one, rfl⟩ := inbox
        obtain ⟨-, is⟩ := deliveryIs_update .inbox update one fun _ => rfl
        obtain ⟨_, -, -, rfl⟩ := SideTable.update_one update one
        exact ⟨⟨_, rfl⟩, same prior rfl ▸ is⟩
    obtain ⟨⟨rows, rfl⟩, is⟩ := moved
    obtain ⟨rows', rfl, kept⟩ := insertMissing_ok missing fun present => by
      obtain ⟨other, rfl⟩ := Option.isSome_iff_exists.mp present
      exact held other read ▸ read
    obtain ⟨extended, present⟩ := recordBridgeJournal_ok record
    have beside : Beside db (impulses.write (bridgeInbox.write db rows) rows') := ⟨rfl, rfl, rfl, rfl⟩
    have is : DeliveryIs .inbox row.runId row.id "imported"
        (impulses.write (bridgeInbox.write db rows) rows') := is
    refine extended.commits beside known ⟨is.extended extended, ?_, present⟩
    · obtain ⟨commands, events, rfl⟩ := extended.log
      exact kept

theorem importInboxDelivery_settles (row : BridgeDelivery) (db : Database) :
    (importInboxDelivery row).Settles db (CommitsWith (importRecord row row.impulse.id).Stores
      (fun db' => DeliveryIs .inbox row.runId row.id "imported" db' ∧
        (db'.impulses.find? (row.runId, row.impulse.id)).isSome = true ∧
        (importRecord row row.impulse.id).Present db') db) := by
  refine .require fun valid => .afterRead (.ofExcept _) fun _ _ =>
    .afterRead (requireStoreRun_reads _) fun _ known => .afterRead (.ofExcept _) fun impulse made =>
    .thenRead (.transact fun _ db' h => ?_) fun _ => getBridge_reads _ _ _
  obtain ⟨known, -⟩ := requireStoreRun_ok known
  have imported := (of_decide_eq_true valid).2
  have named : impulse.id = row.impulse.id ∧ impulse.runId = row.runId := by
    have made := (ofExcept_ok.mp made).1
    unfold normalizeImportedImpulse at made
    split at made
    · cases made
      exact ⟨rfl, rfl⟩
    · cases made
  have key : impulse.key = (row.runId, row.impulse.id) := Prod.ext named.2 named.1
  simp only [importBody, bind_ok, fetch_ok] at h
  obtain ⟨_, _, checked, existing, _, ⟨looked, rfl⟩, h⟩ := h
  obtain ⟨rfl, -, held⟩ := impulseStored_ok checked
  have written (existing : Option BridgeDelivery) (same : ∀ prior ∈ existing, prior.id = row.id)
      (h : (importWrites row impulse existing).eval db = (.ok (), db')) :
      CommitsWith (importRecord row row.impulse.id).Stores
        (fun db' => DeliveryIs .inbox row.runId row.id "imported" db' ∧
          (db'.impulses.find? (row.runId, row.impulse.id)).isSome = true ∧
          (importRecord row row.impulse.id).Present db') db db' := by
    rcases importWrites_commits known imported same held h with
      rfl | ⟨w, stores, written, is, holds, present⟩
    · exact .inl rfl
    · rw [named.1] at stores present
      rw [Holds, key] at holds
      exact .inr ⟨w, stores, written, is, Option.isSome_of_eq_some holds, present⟩
  cases existing with
  | none => exact written none (by simp) h
  | some prior =>
    simp only [bind_ok, ofExcept_ok, require_ok] at h
    obtain ⟨_, _, ⟨compared, rfl⟩, _, _, ⟨rfl, rfl⟩, h⟩ := h
    have same : prior.id = row.id := by
      unfold sameInbox at compared
      split at compared
      · rename_i same
        exact same.1
      · cases compared
    split at h
    · simp only [bind_ok, ofExcept_ok, require_ok] at h
      obtain ⟨_, _, ⟨-, rfl⟩, -, rfl⟩ := h
      exact .inl rfl
    · simp only [bind_ok, require_ok] at h
      obtain ⟨_, _, ⟨-, rfl⟩, h⟩ := h
      exact written (some prior) (by simp [same]) h

end Fala.Bridge
