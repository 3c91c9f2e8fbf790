import Fala.Domain.Store
import Fala.Journal.Effects
import Fala.Journal.Repeat

/-! What the operations of the domain store commit. -/

namespace Fala.Domain
open Durable Journal Program

/-- A change of the tables beside the journal's. -/
structure Beside (db db' : Database) : Prop where
  runs : db'.runs = db.runs
  commands : db'.commands = db.commands
  events : db'.events = db.events
  processes : db'.processes = db.processes

theorem Beside.refl (db : Database) : Beside db db := ⟨rfl, rfl, rfl, rfl⟩

section
variable {ρ : Type} {key : ρ → String × String}

theorem beside_write (table : SideTable key) (db : Database) (rows : Table key) :
    Beside db (table.write db rows) :=
  ⟨table.write_runs db rows, table.write_commands db rows, table.write_events db rows,
    table.write_processes db rows⟩

/-- The row that a side table holds under the key of `row` is `row`. -/
def Holds (table : SideTable key) (row : ρ) (db : Database) : Prop :=
  (table.read db).find? (key row) = some row

theorem Holds.setEvents {table : SideTable key} {row : ρ} {db : Database}
    (holds : Holds table row db) (events : Ledger EventRow.key EventRow.unique) :
    Holds table row (db.setEvents events) := by
  rw [Holds, table.read_setEvents]
  exact holds

theorem insert_beside {table : SideTable key} {row : ρ} {u : Unit} {db db' : Database}
    (h : (table.insert row).eval db = (.ok u, db')) : Beside db db' ∧ Holds table row db' := by
  obtain ⟨rows, inserted, -, rfl⟩ := SideTable.insert_ok.mp h
  refine ⟨beside_write table db rows, ?_⟩
  rw [Holds, table.read_write]
  exact (Table.find?_insert inserted _).trans (if_pos rfl)

theorem upsert_beside {table : SideTable key} {row : ρ} {u : Unit} {db db' : Database}
    (h : (table.upsert row).eval db = (.ok u, db')) : Beside db db' ∧ Holds table row db' := by
  obtain ⟨-, rfl⟩ := SideTable.upsert_ok.mp h
  refine ⟨beside_write table db _, ?_⟩
  rw [Holds, table.read_write]
  rw [Table.find?_upsert, if_pos rfl]

theorem insertNew_beside {table : SideTable key} {taken runId id : String} {row : ρ} {u : Unit}
    {db db' : Database} (h : (insertNew table taken runId id row).eval db = (.ok u, db')) :
    Beside db db' ∧ Holds table row db' := by
  simp only [insertNew, bind_ok, SideTable.find?_ok, require_ok] at h
  obtain ⟨_, _, ⟨-, rfl⟩, _, _, ⟨-, rfl⟩, h⟩ := h
  exact insert_beside h

theorem getRow_reads (table : SideTable key) (missing runId id : String) :
    ReadOnly (getRow table missing runId id) := by
  refine .bind (.bind (.require _ _) fun _ => .bind (.fetch _) fun _ => .require _ _) fun _ =>
    .bind (.fetch _) fun found => ?_
  cases found with
  | none => exact .raise _
  | some row => exact .pure _

theorem getRow_ok {table : SideTable key} {missing runId id : String} {row : ρ}
    {db db' : Database} (h : (getRow table missing runId id).eval db = (.ok row, db')) :
    (db.runs.find? runId).isSome = true ∧ (table.read db).find? (runId, id) = some row ∧
      db = db' := by
  simp only [getRow, requireStoreRun, bind_ok, require_ok, fetch_ok, SideTable.find?_ok] at h
  obtain ⟨_, _, ⟨_, _, ⟨-, rfl⟩, _, _, ⟨rfl, rfl⟩, known, rfl⟩, found, _, ⟨read, rfl⟩, h⟩ := h
  cases found with
  | none => simp only [raise_ok] at h
  | some stored =>
    obtain ⟨rfl, rfl⟩ := pure_ok.mp h
    exact ⟨known, read, rfl⟩

theorem replayRow_reads {table : SideTable key} {missing conflict : String} {same : ρ → Bool}
    {runId id : String} : ReadOnly (replayRow table missing conflict same runId id) :=
  .bind (getRow_reads table missing runId id) fun _ => .require _ _

end

theorem requireStoreRun_reads (runId : String) : ReadOnly (requireStoreRun runId) :=
  .bind (.require _ _) fun _ => .bind (.fetch _) fun _ => .require _ _

theorem requireStoreRun_ok {runId : String} {u : Unit} {db db' : Database}
    (h : (requireStoreRun runId).eval db = (.ok u, db')) :
    (db.runs.find? runId).isSome = true ∧ db = db' := by
  simp only [requireStoreRun, bind_ok, require_ok, fetch_ok] at h
  obtain ⟨_, _, ⟨-, rfl⟩, _, _, ⟨rfl, rfl⟩, known, rfl⟩ := h
  exact ⟨known, rfl⟩

theorem appendDomainEvent_rows {command : CommandRow} {item : EventInput} {row : EventRow}
    {db db' : Database} (h : (appendDomainEvent command item).eval db = (.ok row, db')) :
    ∃ events, EventStored db.commands.rows command.runId command.id (item.inherit command)
        db.events.rows events.rows ∧ db' = db.setEvents events := by
  simp only [appendDomainEvent, bind_ok, require_ok, fetch_ok] at h
  obtain ⟨_, _, ⟨-, rfl⟩, _, _, ⟨rfl, rfl⟩, h⟩ := h
  cases stored : db.eventById command.runId item.id with
  | some prior =>
    simp only [stored, bind_ok, require_ok, pure_ok, decide_eq_true_eq] at h
    obtain ⟨_, _, ⟨same, rfl⟩, rfl, rfl⟩ := h
    obtain ⟨member, -⟩ := Ledger.find?_some.mp stored
    exact ⟨db.events, .replayed prior.sequence (same ▸ member), rfl⟩
  | none =>
    simp only [stored, bind_ok, fetch_ok, insertEvent_ok, pure_ok] at h
    obtain ⟨_, _, ⟨rfl, rfl⟩, _, _, ⟨referenced, events, appended, rfl⟩, -, rfl⟩ := h
    obtain ⟨⟨-, fresh⟩, rows⟩ := Ledger.append?_some.mp appended
    refine ⟨events, ?_, rfl⟩
    rw [rows]
    exact .appended fresh referenced

theorem appendDomainEvents_rows {command : CommandRow} {items : List EventInput}
    {rows : List EventRow} {db db' : Database}
    (h : (appendDomainEvents command items).eval db = (.ok rows, db')) :
    ∃ after, EventsStored db.commands.rows command.runId
        (items.map fun item => (command.id, item.inherit command)) db.events.rows after.rows ∧
      db' = db.setEvents after := by
  induction items generalizing db rows with
  | nil =>
    obtain ⟨-, rfl⟩ := pure_ok.mp h
    exact ⟨db.events, .nil, rfl⟩
  | cons item items ih =>
    simp only [appendDomainEvents, bind_ok, pure_ok] at h
    obtain ⟨_, _, here, _, _, later, -, rfl⟩ := h
    obtain ⟨middle, stored, rfl⟩ := appendDomainEvent_rows here
    obtain ⟨after, told, rfl⟩ := ih later
    exact ⟨after, .cons stored told, rfl⟩

/-- The log of a domain command. -/
def Submits (c : CommandAppend) (events : List EventInput) (w : Write) : Prop :=
  w = .record c.runId [c.row] (events.map fun event => (c.commandId, event.inherit c.row))

/-- The stored command is the one of the call, under whatever id. -/
def sameSubmission (c : CommandAppend) (prior : CommandRow) : Bool :=
  prior = { c.row with id := prior.id }

/-- A domain command finds itself stored, or is stored with its events and the row that its
    statements write. -/
theorem submitBody_ok {c : CommandAppend} {events : List EventInput} {write : Sql Unit}
    {R : Database → Prop} {submission : CommandSubmission} {db db' : Database}
    (beside : ∀ {before after : Database} {u : Unit}, write.eval before = (.ok u, after) →
      Beside before after ∧ R after)
    (kept : ∀ db events, R db → R (db.setEvents events))
    (known : (db.runs.find? c.runId).isSome = true)
    (h : (submitBody c events write).eval db = (.ok submission, db')) :
    (submission.replayed = true ∧
        (db.commandByKey c.runId c.idempotencyKey).any (sameSubmission c) = true ∧ db' = db) ∨
      (submission.replayed = false ∧
        Written db (.record c.runId [c.row]
          (events.map fun event => (c.commandId, event.inherit c.row))) db' ∧ R db') := by
  simp only [submitBody, bind_ok, commandByKey_ok] at h
  obtain ⟨_, _, ⟨rfl, rfl⟩, h⟩ := h
  cases found : db.commandByKey c.runId c.idempotencyKey with
  | some stored =>
    simp only [found, bind_ok, require_ok, pure_ok] at h
    obtain ⟨_, _, ⟨same, rfl⟩, rfl, rfl⟩ := h
    exact .inl ⟨rfl, same, rfl⟩
  | none =>
    simp only [found, bind_ok, require_ok, fetch_ok, pure_ok] at h
    obtain ⟨_, _, ⟨-, rfl⟩, _, _, ⟨-, rfl⟩, _, _, command, _, _, written, _, _, batch, rfl, rfl⟩ := h
    obtain ⟨commands, stored, rfl⟩ := insertCommand_rows command
    obtain ⟨aside, holds⟩ := beside written
    obtain ⟨after, told, rfl⟩ := appendDomainEvents_rows batch
    rw [aside.commands, aside.events] at told
    refine .inr ⟨rfl, .record aside.processes (.intro aside.runs known ?_ ?_), kept _ _ holds⟩
    · exact (congrArg Ledger.rows aside.commands).trans stored
    · simp only [Database.setEvents, aside.commands]
      exact told

theorem submitDomain_settles {c : CommandAppend} {events : List EventInput} {write replay : Sql Unit}
    {R : Database → Prop} (reads : ReadOnly replay)
    (beside : ∀ {before after : Database} {u : Unit}, write.eval before = (.ok u, after) →
      Beside before after ∧ R after)
    (kept : ∀ db events, R db → R (db.setEvents events)) (db : Database) :
    (submitDomain c events write replay).Settles db (CommitsWith (Submits c events) R db) := by
  refine .afterRead (requireStoreRun_reads _) fun _ known => .require fun _ =>
    .thenRead (.transact fun _ db' h => ?_) fun submission => ?_
  · have known := (requireStoreRun_ok known).1
    rcases submitBody_ok beside kept known h with ⟨-, -, same⟩ | ⟨-, written, holds⟩
    · exact .inl same
    · exact .inr ⟨_, rfl, written, holds⟩
  · split
    · exact .bind reads fun _ => .pure _
    · exact .pure _

theorem registerImpulseType_settles (row : ImpulseType) (c : DomainCall) (db : Database) :
    (registerImpulseType row c).Settles db
      (CommitsWith (Submits (c.append row.runId row.toJson) c.events) (Holds impulseTypes row)
        db) :=
  .require fun _ => .require fun _ => submitDomain_settles replayRow_reads insert_beside
    (fun _ events holds => holds.setEvents events) db

theorem recordImpulseRelation_settles (row : ImpulseRelation) (c : DomainCall) (db : Database) :
    (recordImpulseRelation row c).Settles db
      (CommitsWith (Submits (c.append row.runId row.toJson) c.events) (Holds impulseRelations row)
        db) :=
  .require fun _ => .require fun _ => submitDomain_settles replayRow_reads insertNew_beside
    (fun _ events holds => holds.setEvents events) db

theorem recordAssociation_settles (row : Association) (c : DomainCall) (db : Database) :
    (recordAssociation row c).Settles db
      (CommitsWith (Submits (c.append row.runId row.toJson) c.events) (Holds associations row)
        db) :=
  .require fun _ => .require fun _ => submitDomain_settles replayRow_reads insertNew_beside
    (fun _ events holds => holds.setEvents events) db

theorem recordReaction_settles (row : Reaction) (c : DomainCall) (db : Database) :
    (recordReaction row c).Settles db
      (CommitsWith (fun w => ∃ events, Submits (c.append row.runId row.journalPayload) events w)
        (fun db' => ∃ metadata, Holds reactions { row with metadata } db') db) := by
  refine .require fun _ => .require fun _ => .afterRead (.ofExcept _) fun _ _ =>
    .afterRead (.ofExcept _) fun metadata _ =>
      .imp (submitDomain_settles replayRow_reads insertNew_beside
        (fun _ events holds => holds.setEvents events) db) fun db' commits => ?_
  rcases commits with same | ⟨w, submits, written, holds⟩
  · exact .inl same
  · exact .inr ⟨w, ⟨_, submits⟩, written, metadata, holds⟩

theorem saveHomeostat_settles (row : Homeostat) (c : DomainCall) (db : Database) :
    (saveHomeostat row c).Settles db
      (CommitsWith (Submits (c.append row.runId row.toJson) c.events) (Holds homeostats row) db) :=
  .require fun _ => .require fun _ => submitDomain_settles replayRow_reads insertNew_beside
    (fun _ events holds => holds.setEvents events) db

/-- The homeostat under a key has a status. -/
def HomeostatIs (runId id status : String) (db : Database) : Prop :=
  (db.homeostats.find? (runId, id)).any (fun h => h.status = status) = true

theorem closeStatements_beside {row : Homeostat} {createdAt : String} {u : Unit}
    {db db' : Database} (h : (closeStatements row createdAt).eval db = (.ok u, db')) :
    Beside db db' ∧ HomeostatIs row.runId row.id row.status db' := by
  simp only [closeStatements, bind_ok, require_ok, decide_eq_true_eq] at h
  obtain ⟨current, _, read, _, _, ⟨-, rfl⟩, _, _, update, changed, rfl⟩ := h
  obtain ⟨-, -, rfl⟩ := getRow_ok read
  obtain ⟨old, found, -, rfl⟩ := SideTable.update_one update changed
  exact ⟨beside_write homeostats db _,
    Table.any_modify found (closeHomeostat row createdAt) (fun _ => rfl) (decide_eq_true rfl)⟩

theorem transitionHomeostat_settles (row : Homeostat) (c : DomainCall) (db : Database) :
    (transitionHomeostat row c).Settles db
      (CommitsWith (Submits (c.append row.runId row.toJson) c.events)
        (HomeostatIs row.runId row.id row.status) db) :=
  .require fun _ => .require fun _ => .require fun _ =>
    .thenRead (submitDomain_settles (.pure ()) closeStatements_beside (fun _ _ holds => holds) db)
      fun _ => .bind (getRow_reads _ _ _ _) fun _ => .pure _

theorem saveProjection_settles (row : Projection) (stale : Bool) (c : DomainCall) (db : Database) :
    (saveProjection row stale c).Settles db
      (CommitsWith (Submits (c.append row.runId (row.toJson stale)) c.events)
        (Holds projections row) db) :=
  .require fun _ => .require fun _ => submitDomain_settles replayRow_reads upsert_beside
    (fun _ events holds => holds.setEvents events) db

/-- The command of an acceptance, its impulse and its event are as it asks for them. -/
structure ImpulseAcceptance.Found (a : ImpulseAcceptance) (db : Database) : Prop where
  command : (db.commandByKey a.impulse.runId a.idempotencyKey).any
    (fun stored => stored = { a.command with id := stored.id }) = true
  impulse : (db.impulses.find? (a.impulse.runId, a.impulse.id)).any (· = a.impulse) = true
  event : ∀ stored, db.commandByKey a.impulse.runId a.idempotencyKey = some stored →
    (db.eventById a.impulse.runId a.event.id).any (a.sameEvent stored.id) = true

theorem acceptBody_ok {a : ImpulseAcceptance} {result : ImpulseAcceptanceResult}
    {db db' : Database} (known : (db.runs.find? a.impulse.runId).isSome = true)
    (h : (acceptBody a).eval db = (.ok result, db')) :
    (result.replayed = true ∧ a.Found db ∧ db' = db) ∨
      (db.commandByKey a.impulse.runId a.idempotencyKey = none ∧
        Written db (.record a.impulse.runId [a.command] [(a.idempotencyKey, a.event)]) db' ∧
          Holds impulses a.impulse db' ∧ ∃ sequence, db'.eventById a.impulse.runId a.event.id =
            some (a.event.row a.impulse.runId a.idempotencyKey sequence)) := by
  simp only [acceptBody, bind_ok, commandByKey_ok] at h
  obtain ⟨_, _, ⟨rfl, rfl⟩, h⟩ := h
  cases found : db.commandByKey a.impulse.runId a.idempotencyKey with
  | some stored =>
    simp only [found, bind_ok, require_ok, SideTable.find?_ok] at h
    obtain ⟨_, _, ⟨command, rfl⟩, impulse, _, ⟨read, rfl⟩, h⟩ := h
    have read : db.impulses.find? (a.impulse.runId, a.impulse.id) = impulse := read
    cases impulse with
    | none => simp only [raise_ok] at h
    | some prior =>
      simp only [bind_ok, require_ok, fetch_ok] at h
      obtain ⟨_, _, ⟨same, rfl⟩, event, _, ⟨told, rfl⟩, h⟩ := h
      cases event with
      | none => simp only [raise_ok] at h
      | some event =>
        simp only [bind_ok, require_ok, pure_ok] at h
        obtain ⟨_, _, ⟨sameEvent, rfl⟩, rfl, rfl⟩ := h
        refine .inl ⟨rfl, ⟨?_, ?_, ?_⟩, rfl⟩
        · rw [found, Option.any_some, command]
        · rw [read, Option.any_some, same]
        · intro other here
          obtain rfl := Option.some.inj (found.symm.trans here)
          rw [told, Option.any_some, sameEvent]
  | none =>
    simp only [found, bind_ok, require_ok, fetch_ok, SideTable.find?_ok, insertEvent_ok,
      pure_ok] at h
    obtain ⟨_, _, ⟨-, rfl⟩, _, _, ⟨-, rfl⟩, _, _, ⟨-, rfl⟩, _, _, ⟨-, rfl⟩, _, _, command, _, _,
      written, _, _, ⟨rfl, rfl⟩, _, _, ⟨referenced, events, appended, rfl⟩, rfl, rfl⟩ := h
    obtain ⟨commands, stored, rfl⟩ := insertCommand_rows command
    obtain ⟨aside, holds⟩ := insert_beside written
    obtain ⟨⟨-, fresh⟩, rows⟩ := Ledger.append?_some.mp appended
    have told : events.find? (a.impulse.runId, a.event.id) = some _ :=
      Ledger.find?_some.mpr ⟨rows ▸ List.mem_append_right _ (List.mem_singleton_self _), rfl⟩
    refine .inr ⟨rfl, .record aside.processes (.intro aside.runs known ?_ (.one ?_)),
      holds.setEvents events, _, told⟩
    · exact (congrArg Ledger.rows aside.commands).trans stored
    · simp only [Database.setEvents, rows, Database.nextSequence, aside.events] at fresh ⊢
      exact .appended fresh referenced

theorem acceptImpulse_settles (a : ImpulseAcceptance) (db : Database) :
    (acceptImpulse a).Settles db
      (CommitsWith (· = .record a.impulse.runId [a.command] [(a.idempotencyKey, a.event)])
        (Holds impulses a.impulse) db) := by
  refine .require fun _ => .afterRead (requireStoreRun_reads _) fun _ known =>
    .thenRead (.transact fun _ db' h => ?_) fun result => ?_
  · rcases acceptBody_ok (requireStoreRun_ok known).1 h with
      ⟨-, -, same⟩ | ⟨-, written, holds, -⟩
    · exact .inl same
    · exact .inr ⟨_, rfl, written, holds⟩
  · split
    · exact .pure _
    · refine .bind (.fetch _) fun event => ?_
      cases event with
      | none => exact .raise _
      | some event => exact .pure _

/-- A write that records no command. -/
def Unrecorded (w : Write) : Prop := ∃ runId, w = .record runId [] []

theorem Beside.commits {R : Database → Prop} {db db' : Database} {runId : String}
    (beside : Beside db db') (known : (db.runs.find? runId).isSome = true) (holds : R db') :
    CommitsWith Unrecorded R db db' := by
  refine .inr ⟨_, ⟨runId, rfl⟩, .record beside.processes (.intro beside.runs known ?_ ?_), holds⟩
  · simp [beside.commands]
  · rw [beside.events]
    exact .nil

section
variable {ρ : Type} {key : ρ → String × String}

theorem putUpsert_settles (table : SideTable key) (valid : Bool) (invalid failed runId : String)
    (row : ρ) (db : Database) :
    (putUpsert table valid invalid failed runId row).Settles db
      (CommitsWith Unrecorded (Holds table row) db) := by
  refine .require fun _ => .afterRead (requireStoreRun_reads _) fun _ known =>
    .transact fun _ db' h => ?_
  obtain ⟨beside, holds⟩ := upsert_beside h
  exact beside.commits (requireStoreRun_ok known).1 holds

theorem putOnce_settles [DecidableEq ρ] (table : SideTable key)
    (conflict failed runId id : String) (row : ρ) {db : Database}
    (known : (db.runs.find? runId).isSome = true) :
    (putOnce table conflict failed runId id row).Settles db
      (CommitsWith Unrecorded (Holds table row) db) := by
  refine .afterRead (.fetch _) fun found _ => ?_
  cases found with
  | some existing => exact .ofReadOnly (.require _ _)
  | none =>
    refine .transact fun _ db' h => ?_
    obtain ⟨beside, holds⟩ := insert_beside h
    exact beside.commits known holds

end

theorem putReaction_settles (row : Reaction) (db : Database) :
    (putReaction row).Settles db
      (CommitsWith Unrecorded (fun db' => ∃ metadata, Holds reactions { row with metadata } db')
        db) := by
  refine .require fun _ => .afterRead (.ofExcept _) fun _ _ =>
    .afterRead (requireStoreRun_reads _) fun _ known => .afterRead (.ofExcept _) fun metadata _ =>
      .imp (putOnce_settles reactions _ _ _ _ _ (requireStoreRun_ok known).1) fun db' commits => ?_
  rcases commits with same | ⟨w, unrecorded, written, holds⟩
  · exact .inl same
  · exact .inr ⟨w, unrecorded, written, metadata, holds⟩

theorem putHomeostat_settles (row : Homeostat) (db : Database) :
    (putHomeostat row).Settles db (CommitsWith Unrecorded (Holds homeostats row) db) :=
  .require fun _ => .afterRead (requireStoreRun_reads _) fun _ known =>
    putOnce_settles homeostats _ _ _ _ row (requireStoreRun_ok known).1

end Fala.Domain

namespace Fala.Domain
open Durable Journal Program

theorem requireStoreRun_known {runId : String} {db : Database} (known : RunKnown db runId) :
    (requireStoreRun runId).eval db = (.ok (), db) := by
  have found : (db.runs.find? runId).isSome = true := known.2
  exact (ok_bind (require_met (decide_eq_true known.1))).trans
    ((ok_bind (fetch_ok.mpr ⟨rfl, rfl⟩)).trans (require_met found))

theorem requireStoreRun_runKnown {runId : String} {u : Unit} {db db' : Database}
    (h : (requireStoreRun runId).eval db = (.ok u, db')) : RunKnown db runId ∧ db = db' := by
  obtain ⟨known, rfl⟩ := requireStoreRun_ok h
  simp only [requireStoreRun, bind_ok, require_ok, decide_eq_true_eq] at h
  obtain ⟨_, _, ⟨named, -⟩, -⟩ := h
  exact ⟨⟨named, known⟩, rfl⟩

section
variable {ρ : Type} {key : ρ → String × String} {table : SideTable key} {missing conflict : String}
  {same : ρ → Bool} {runId id : String} {db : Database}

theorem replayRow_iff (known : RunKnown db runId) :
    (replayRow table missing conflict same runId id).eval db = (.ok (), db) ↔
      ((table.read db).find? (runId, id)).any same = true := by
  constructor
  · intro h
    simp only [replayRow, bind_ok, require_ok] at h
    obtain ⟨row, _, read, met, rfl⟩ := h
    obtain ⟨-, found, -⟩ := getRow_ok read
    rw [found, Option.any_some, met]
  · intro holds
    obtain ⟨row, found, met⟩ := (Option.any_eq_true _ _).mp holds
    have read : (getRow table missing runId id).eval db = (.ok row, db) :=
      (ok_bind (requireStoreRun_known known)).trans
        (ok_bind (SideTable.find?_ok.mpr ⟨found, rfl⟩))
    exact (ok_bind read).trans (require_met met)

end

structure SubmissionRecorded (c : CommandAppend) (db : Database) : Prop where
  known : RunKnown db c.runId
  complete : c.complete = true
  command : (db.commandByKey c.runId c.idempotencyKey).any (sameSubmission c) = true

theorem SubmissionRecorded.grown {c : CommandAppend} {db db' : Database}
    (recorded : SubmissionRecorded c db) (grown : Grown db db') : SubmissionRecorded c db' where
  known := ⟨recorded.known.1, grown.runs _ recorded.known.2⟩
  complete := recorded.complete
  command := prior_grown grown recorded.command

section
variable {c : CommandAppend} {events : List EventInput} {write replay : Sql Unit}
  {submission : CommandSubmission} {db db' : Database}

theorem submission_recorded {R : Database → Prop} (reads : ReadOnly replay)
    (beside : ∀ {before after : Database} {u : Unit}, write.eval before = (.ok u, after) →
      Beside before after ∧ R after)
    (kept : ∀ db events, R db → R (db.setEvents events))
    (h : (submitDomain c events write replay).eval db = (.ok submission, db')) :
    SubmissionRecorded c db' := by
  simp only [submitDomain, bind_ok, require_ok, transact_ok] at h
  obtain ⟨_, _, known, _, _, ⟨complete, rfl⟩, submitted, middle, body, rest⟩ := h
  obtain ⟨here, rfl⟩ := requireStoreRun_runKnown known
  have same : db' = middle := by
    split at rest
    · simp only [bind_ok, pure_ok] at rest
      obtain ⟨_, _, replayed, -, rfl⟩ := rest
      have store := reads.eval middle
      rw [replayed] at store
      exact store
    · exact (pure_ok.mp rest).2.symm
  subst same
  rcases submitBody_ok beside kept here.2 body with ⟨-, command, rfl⟩ | ⟨-, written, -⟩
  · exact ⟨here, complete, command⟩
  · refine ⟨⟨here.1, written.logged.known⟩, complete, ?_⟩
    have found := written.command (c := c.row) (List.mem_singleton_self _)
    rw [show db'.commandByKey c.runId c.idempotencyKey = some c.row from found, Option.any_some]
    exact decide_eq_true rfl

theorem submission_repeats_iff (recorded : SubmissionRecorded c db) :
    (∃ submission, (submitDomain c events write replay).eval db = (.ok submission, db)) ↔
      replay.eval db = (.ok (), db) := by
  obtain ⟨known, complete, command⟩ := recorded
  obtain ⟨prior, found, same⟩ := (Option.any_eq_true _ _).mp command
  have body : (submitBody c events write).eval db = (.ok ⟨prior, [], true⟩, db) :=
    (ok_bind (commandByKey_ok.mpr ⟨found, rfl⟩)).trans (ok_bind (require_met same))
  have eval : (submitDomain c events write replay).eval db =
      (replay >>= fun _ => pure ⟨prior, [], true⟩).eval db :=
    (ok_bind (requireStoreRun_known known)).trans <| (ok_bind (require_met complete)).trans
      (ok_bind (transact_ok.mpr body))
  rw [eval]
  constructor
  · rintro ⟨submission, h⟩
    simp only [bind_ok, pure_ok] at h
    obtain ⟨_, _, replayed, -, rfl⟩ := h
    exact replayed
  · intro replayed
    exact ⟨_, ok_bind replayed⟩

end

/-- What a save of a homeostat has left on record. -/
structure HomeostatRecorded (row : Homeostat) (c : DomainCall) (db : Database) : Prop where
  type : c.commandType = "homeostat.save" ∨ c.commandType = "homeostat.open"
  valid : row.isValid = true
  submission : SubmissionRecorded (c.append row.runId row.toJson) db

section
variable {row : Homeostat} {c : DomainCall} {submission : CommandSubmission} {db db' : Database}

theorem saveHomeostat_recorded (h : (saveHomeostat row c).eval db = (.ok submission, db')) :
    HomeostatRecorded row c db' := by
  simp only [saveHomeostat, bind_ok, require_ok, decide_eq_true_eq] at h
  obtain ⟨_, _, ⟨type, rfl⟩, _, _, ⟨valid, rfl⟩, submitted⟩ := h
  exact ⟨type, valid, submission_recorded replayRow_reads insertNew_beside
    (fun _ events holds => holds.setEvents events) submitted⟩

theorem saveHomeostat_repeats_iff (recorded : HomeostatRecorded row c db) :
    (∃ submission, (saveHomeostat row c).eval db = (.ok submission, db)) ↔
      (db.homeostats.find? (row.runId, row.id)).any (fun h => h.toJson = row.toJson) = true := by
  have eval : (saveHomeostat row c).eval db =
      (submitDomain (c.append row.runId row.toJson) c.events
        (insertNew homeostats "domain store: homeostat already exists" row.runId row.id row)
        (replayRow homeostats homeostatMissing homeostatConflict
          (fun prior => prior.toJson = row.toJson) row.runId row.id)).eval db :=
    (ok_bind (require_met (decide_eq_true recorded.type))).trans
      (ok_bind (require_met recorded.valid))
  rw [eval, submission_repeats_iff recorded.submission]
  exact replayRow_iff recorded.submission.known

end

namespace ImpulseAcceptance

variable {a : ImpulseAcceptance} {result : ImpulseAcceptanceResult} {db db' : Database}

structure Recorded (a : ImpulseAcceptance) (db : Database) : Prop where
  valid : a.impulse.isValid = true ∧ a.idempotencyKey ≠ "" ∧ a.createdAt ≠ ""
  known : RunKnown db a.impulse.runId
  recorded : ∃ stored event, db.commandByKey a.impulse.runId a.idempotencyKey = some stored ∧
    stored = { a.command with id := stored.id } ∧
      db.eventById a.impulse.runId a.event.id = some event ∧ a.sameEvent stored.id event = true

theorem Recorded.grown (recorded : a.Recorded db) (grown : Grown db db') : a.Recorded db' where
  valid := recorded.valid
  known := ⟨recorded.known.1, grown.runs _ recorded.known.2⟩
  recorded := by
    obtain ⟨stored, event, found, same, told, sameEvent⟩ := recorded.recorded
    exact ⟨stored, event, grown.commandByKey found, same, grown.eventById told, sameEvent⟩

theorem Found.recorded (found : a.Found db) : ∃ stored event,
    db.commandByKey a.impulse.runId a.idempotencyKey = some stored ∧
      stored = { a.command with id := stored.id } ∧
        db.eventById a.impulse.runId a.event.id = some event ∧
          a.sameEvent stored.id event = true := by
  obtain ⟨stored, here, same⟩ := (Option.any_eq_true _ _).mp found.command
  obtain ⟨event, told, sameEvent⟩ := (Option.any_eq_true _ _).mp (found.event stored here)
  exact ⟨stored, event, here, of_decide_eq_true same, told, sameEvent⟩

theorem recorded_of_ok (h : (acceptImpulse a).eval db = (.ok result, db')) : a.Recorded db' := by
  simp only [acceptImpulse, bind_ok, require_ok, transact_ok, decide_eq_true_eq] at h
  obtain ⟨_, _, ⟨valid, rfl⟩, _, _, known, accepted, middle, body, rest⟩ := h
  obtain ⟨here, rfl⟩ := requireStoreRun_runKnown known
  have same : db' = middle := by
    split at rest
    · exact (pure_ok.mp rest).2.symm
    · simp only [bind_ok, fetch_ok] at rest
      obtain ⟨event, _, ⟨-, rfl⟩, rest⟩ := rest
      cases event with
      | none => simp only [raise_ok] at rest
      | some event => exact (pure_ok.mp rest).2.symm
  subst same
  rcases acceptBody_ok here.2 body with ⟨-, found, rfl⟩ | ⟨-, written, -, sequence, told⟩
  · exact ⟨valid, here, found.recorded⟩
  · have found := written.command (c := a.command) (List.mem_singleton_self _)
    exact ⟨valid, ⟨here.1, written.logged.known⟩, a.command, _, found, rfl, told,
      decide_eq_true ⟨rfl, rfl, rfl, rfl, rfl⟩⟩

theorem repeats_iff (recorded : a.Recorded db) :
    (∃ result, (acceptImpulse a).eval db = (.ok result, db)) ↔
      (db.impulses.find? (a.impulse.runId, a.impulse.id)).any (· = a.impulse) = true := by
  obtain ⟨valid, known, stored, event, found, same, told, sameEvent⟩ := recorded
  have begun : (acceptImpulse a).eval db =
      ((Program.transact id (acceptBody a)) >>= fun result =>
        if result.replayed then pure result else _).eval db :=
    (ok_bind (require_met (decide_eq_true valid))).trans (ok_bind (requireStoreRun_known known))
  rw [begun]
  constructor
  · rintro ⟨result, h⟩
    simp only [bind_ok, transact_ok] at h
    obtain ⟨accepted, middle, body, -⟩ := h
    rcases acceptBody_ok known.2 body with ⟨-, there, -⟩ | ⟨fresh, -⟩
    · exact there.impulse
    · exact absurd (found.symm.trans fresh) (by simp)
  · intro holds
    obtain ⟨impulse, read, sameImpulse⟩ := (Option.any_eq_true _ _).mp holds
    have heard : (Program.fetch fun db : Database => db.eventById a.impulse.runId a.event.id).eval
        db = (.ok (some event), db) := fetch_ok.mpr ⟨told, rfl⟩
    have body : (acceptBody a).eval db = (.ok ⟨impulse, stored, [event], true⟩, db) :=
      (ok_bind (commandByKey_ok.mpr ⟨found, rfl⟩)).trans <|
        (ok_bind (require_met (decide_eq_true same))).trans <|
        (ok_bind (SideTable.find?_ok.mpr ⟨read, rfl⟩)).trans <|
        (ok_bind (require_met sameImpulse)).trans <|
        (ok_bind heard).trans (ok_bind (require_met sameEvent))
    exact ⟨_, ok_bind (transact_ok.mpr body)⟩

end ImpulseAcceptance
end Fala.Domain
