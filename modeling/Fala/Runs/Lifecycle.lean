import Fala.Journal.Commands
import Fala.Journal.Effects

/-! `RunLifecycle`: run creation and run transitions under the caller's keys. -/

namespace Fala.Runs
open Durable Journal

def findRun (runId : String) : Sql RunRow := readRunRow runId "Unknown run"

/-- The arguments of `RunLifecycle._transition`. -/
structure LifecycleTransition where
  runId : String
  target : String
  commandType : String
  eventType : String
  now : String
  idempotencyKey : String
  commandId : String := ""
  reason : String := ""
  reasonPresent : Bool := true
  actor : String := ""
  deriving DecidableEq

namespace LifecycleTransition

def cid (t : LifecycleTransition) : String :=
  if t.commandId ≠ "" then t.commandId else t.idempotencyKey

/-- `_transition_payload` -/
def payload (t : LifecycleTransition) : Text :=
  .template [("reason", if t.reasonPresent then .quote t.reason else .printed .null),
    ("target", .quote t.target)]

def command (t : LifecycleTransition) : CommandRow where
  runId := t.runId
  id := t.cid
  commandType := t.commandType
  idempotencyKey := t.idempotencyKey
  actor := t.actor
  correlationId := ""
  causationId := ""
  payload := t.payload
  createdAt := t.now

def event (t : LifecycleTransition) : EventInput where
  id := t.cid ++ ":event"
  eventType := t.eventType
  payload := t.payload
  createdAt := t.now
  actor := t.actor

def sameCommand (t : LifecycleTransition) (prior : CommandRow) : Bool :=
  prior.id = t.cid ∧ prior.commandType = t.commandType ∧ prior.actor = t.actor ∧
    prior.payload = t.payload ∧ prior.createdAt = t.now

def sameEvent (t : LifecycleTransition) (prior : EventRow) : Bool :=
  prior.id = t.cid ++ ":event" ∧ prior.eventType = t.eventType ∧ prior.actor = t.actor ∧
    prior.payload = t.payload ∧ prior.createdAt = t.now

/-- The assigned columns of the run row. -/
def update (t : LifecycleTransition) (r : RunRecord) : RunRecord :=
  { r with
    status := t.target
    updatedAt := t.now
    startedAt := if t.target = "active" ∧ r.startedAt = "" then t.now else r.startedAt
    finishedAt :=
      if t.target ≠ "active" ∧ (RunStatus.ofValue t.target).isTerminal then t.now
      else r.finishedAt }

end LifecycleTransition

def lifecycleConflict : String := "run lifecycle idempotency conflict"

/-- The transaction of `_transition`. -/
def transitionBody (t : LifecycleTransition) (current : RunRow) : Sql Unit := do
  insertCommand t.command
  let changes ← updateRun t.runId (fun r => r.status = current.status) t.update
  .require (changes = 1) "run changed concurrently"
  let sequence ← .fetch fun db => db.nextSequence t.runId
  insertEvent (t.event.row t.runId t.cid sequence)

/-- `RunLifecycle._transition` -/
def transition (t : LifecycleTransition) : Sql RunRow := do
  .require (t.runId ≠ "" ∧ t.idempotencyKey ≠ "")
    "run lifecycle requires run_id and idempotency_key"
  let current ← findRun t.runId
  match ← commandByKey t.runId t.idempotencyKey with
  | some prior =>
    .require (t.sameCommand prior) lifecycleConflict
    let event ← .fetch fun db =>
      db.events.rows.find? fun e => e.runId = t.runId ∧ e.commandId = prior.id
    .require (event.any t.sameEvent) lifecycleConflict
    return current
  | none =>
    let source := RunStatus.ofValue current.status
    let target := RunStatus.ofValue t.target
    .require (source.isKnown ∧ target.isKnown) "Unknown run status"
    .require (canTransitionRun source target)
      ("Invalid run status transition: " ++ current.status ++ " -> " ++ t.target)
    .transact (fun _ => "run lifecycle transition failed") (transitionBody t current)
    findRun t.runId

def start (runId now : String) (idempotencyKey : String := "run.start") : Sql RunRow :=
  transition
    { runId, target := "active", commandType := "run.start", eventType := "run.started", now,
      idempotencyKey }

def wait (runId now : String) (idempotencyKey : String := "run.wait") : Sql RunRow :=
  transition
    { runId, target := "waiting", commandType := "run.wait", eventType := "run.waiting", now,
      idempotencyKey }

def complete (runId now : String) (idempotencyKey : String := "run.complete") : Sql RunRow :=
  transition
    { runId, target := "completed", commandType := "run.complete", eventType := "run.completed",
      now, idempotencyKey }

def fail (runId now : String) (idempotencyKey : String := "run.fail") : Sql RunRow :=
  transition
    { runId, target := "failed", commandType := "run.fail", eventType := "run.failed", now,
      idempotencyKey }

def requestCancel (runId now : String) (idempotencyKey : String := "run.cancel.request")
    (reason : String := "cancel_requested") (reasonPresent : Bool := true) (actor : String := "") :
    Sql RunRow :=
  transition
    { runId, target := "cancel_requested", commandType := "run.cancel",
      eventType := "run.cancel_requested", now, idempotencyKey, reason, reasonPresent, actor }

def cancel (runId now : String) (idempotencyKey : String := "run.cancel")
    (reason : String := "cancelled") (actor : String := "") : Sql RunRow :=
  transition
    { runId, target := "cancelled", commandType := "run.cancel", eventType := "run.cancelled", now,
      idempotencyKey, reason, actor }

def timeout (runId now : String) (idempotencyKey : String := "run.timeout")
    (reason : String := "timed_out") : Sql RunRow :=
  transition
    { runId, target := "timed_out", commandType := "run.timeout", eventType := "run.timed_out",
      now, idempotencyKey, reason }

/-- The arguments of `create_result`. -/
structure LifecycleCreation where
  runId : String
  createdAt : String
  metadata : String := "\x7b\x7d"
  title : String := ""
  status : String := "created"
  idempotencyKey : String := "run.create"
  commandId : String := ""
  identity : RunIdentity := {}
  actor : String := ""
  deriving DecidableEq

namespace LifecycleCreation

def cid (c : LifecycleCreation) : String :=
  if c.commandId ≠ "" then c.commandId else c.idempotencyKey

/-- `_create_payload` -/
def payload (c : LifecycleCreation) : Text :=
  .template [("run_id", .quote c.runId), ("status", .quote c.status)]

def row (c : LifecycleCreation) : RunRecord where
  id := c.runId
  status := c.status
  title := c.title
  identity := c.identity
  schemaVersion := 6
  metadata := c.metadata
  createdAt := c.createdAt
  updatedAt := c.createdAt
  startedAt := ""
  finishedAt := ""

def command (c : LifecycleCreation) : CommandRow where
  runId := c.runId
  id := c.cid
  commandType := "run.create"
  idempotencyKey := c.idempotencyKey
  actor := c.actor
  correlationId := ""
  causationId := ""
  payload := c.payload
  createdAt := c.createdAt

def event (c : LifecycleCreation) : EventInput where
  id := c.cid ++ ":event"
  eventType := "run.created"
  payload := c.payload
  createdAt := c.createdAt
  actor := c.actor

end LifecycleCreation

structure RunCreateResult where
  run : RunRecord
  command : CommandRow
  replayed : Bool
  deriving DecidableEq

/-- The transaction of `create_result`; whether the key was known. -/
def createBody (c : LifecycleCreation) : Sql Bool := do
  match ← commandByKey c.runId c.idempotencyKey with
  | some _ => return true
  | none =>
    let existing ← .fetch fun db => db.runs.find? c.runId
    .require existing.isNone "run already exists"
    insertRun c.row
    insertCommand c.command
    insertEvent (c.event.row c.runId c.cid 1)
    return false

/-- `create_result` -/
def createResult (c : LifecycleCreation) : Sql RunCreateResult := do
  .require (c.runId ≠ "" ∧ c.idempotencyKey ≠ "")
    "run creation requires run_id and idempotency_key"
  .require (RunStatus.ofValue c.status).isKnown ("Unknown run status: " ++ c.status)
  let replayed ← .transact (fun _ => "run creation failed") (createBody c)
  match ← .fetch fun db => (db.runs.find? c.runId, db.commandByKey c.runId c.idempotencyKey) with
  | (none, _) => .raise "Unknown run"
  | (some stored, command) =>
    .require (stored.identity = c.identity) "run lifecycle identity mismatch"
    match command with
    | none => .raise "journal: command row not found"
    | some command => return ⟨stored, command, replayed⟩

open Program

theorem findRun_ok {runId : String} {row : RunRow} {db db' : Database}
    (h : (findRun runId).eval db = (.ok row, db')) :
    (db.runs.find? runId).isSome = true ∧ db = db' := by
  simp only [findRun, readRunRow, query_ok] at h
  obtain ⟨read, rfl⟩ := h
  cases found : db.runs.find? runId with
  | none => simp [found] at read
  | some row => exact ⟨rfl, rfl⟩

theorem findRun_reads (runId : String) : ReadOnly (findRun runId) := by
  unfold findRun readRunRow
  exact .query _

theorem transition_settles (t : LifecycleTransition) (db : Database) :
    (transition t).Settles db
      (CommitsWith (· = .record t.runId [t.command] [(t.cid, t.event)])
        (fun db' => (db'.runs.find? t.runId).any fun r => r.status = t.target) db) := by
  refine .require fun _ => .afterRead (findRun_reads _) fun current known =>
    .afterRead (commandByKey_reads _ _) fun found _ => ?_
  obtain ⟨known, -⟩ := findRun_ok known
  cases found with
  | some prior =>
    exact .ofReadOnly (.bind (.require _ _) fun _ => .bind (.fetch _) fun _ =>
      .bind (.require _ _) fun _ => .pure _)
  | none =>
    refine .require fun _ => .require fun _ => .thenRead (.transact fun _ db' h => ?_)
      fun _ => findRun_reads _
    simp only [transitionBody, bind_ok, require_ok, fetch_ok, insertEvent_ok,
      decide_eq_true_eq] at h
    obtain ⟨_, _, command, _, _, update, _, _, ⟨changed, rfl⟩, _, _, ⟨rfl, rfl⟩,
      referenced, events, appended, rfl⟩ := h
    obtain ⟨commands, stored, rfl⟩ := insertCommand_rows command
    obtain ⟨found, rfl⟩ := updateWhere_one update changed
    obtain ⟨row, found, -⟩ := (Option.any_eq_true _ _).mp found
    obtain ⟨⟨-, fresh⟩, rows⟩ := Ledger.append?_some.mp appended
    have moved := Table.any_modify (p := fun r => r.status = t.target) found t.update
      (fun _ => rfl) (decide_eq_true rfl)
    have runs (id : String) :
        ((db.runs.modify t.runId t.update fun _ => rfl).find? id).isSome =
          (db.runs.find? id).isSome := Table.isSome_modify ..
    refine .inr ⟨_, rfl, .record rfl
      ⟨fun id found => (runs id).trans found, (runs _).trans known, stored, .one ?_⟩, moved⟩
    simp only [Database.setEvents, rows]
    exact .appended fresh referenced

theorem createResult_settles (c : LifecycleCreation) {db : Database} (housed : EventsHoused db) :
    (createResult c).Settles db
      (CommitsWith (· = .record c.runId [c.command] [(c.cid, c.event)])
        (fun db' => db'.runs.find? c.runId = some c.row) db) := by
  refine .require fun _ => .require fun _ => .thenRead (.transact fun _ db' h => ?_) fun _ =>
    .bind (.fetch _) fun read => ?_
  · simp only [createBody, bind_ok, commandByKey_ok] at h
    obtain ⟨_, _, ⟨rfl, rfl⟩, h⟩ := h
    cases found : db.commandByKey c.runId c.idempotencyKey with
    | some prior =>
      simp only [found, pure_ok] at h
      obtain ⟨-, rfl⟩ := h
      exact .inl rfl
    | none =>
      simp only [found, bind_ok, fetch_ok, require_ok, insertRun_ok, insertEvent_ok, pure_ok] at h
      obtain ⟨_, _, ⟨rfl, rfl⟩, _, _, ⟨absent, rfl⟩, _, _, ⟨runs, inserted, rfl⟩, _, _, command,
        _, _, ⟨referenced, events, appended, rfl⟩, -, rfl⟩ := h
      obtain ⟨commands, stored, rfl⟩ := insertCommand_rows command
      have first : nextSequence EventRow.runId EventRow.sequence db.events.rows c.runId = 1 := by
        rw [nextSequence, housed.streamRows_unknown (Option.isNone_iff_eq_none.mp absent)]
        rfl
      obtain ⟨⟨-, fresh⟩, rows⟩ := Ledger.append?_some.mp appended
      have created : runs.find? c.runId = some c.row :=
        (Table.find?_insert inserted _).trans (if_pos rfl)
      refine .inr ⟨_, rfl, .record rfl ⟨fun id known => ?_, ?_, stored, .one ?_⟩, created⟩
      · simp only [Database.setRuns, Database.setCommands, Database.setEvents,
          Table.find?_insert inserted]
        split
        · rfl
        · exact known
      · exact Option.isSome_of_eq_some created
      · simp only [Database.setEvents, rows]
        rw [← first]
        exact .appended fresh referenced
  · obtain ⟨run, command⟩ := read
    cases run with
    | none => exact .raise _
    | some stored =>
      refine .bind (.require _ _) fun _ => ?_
      cases command with
      | none => exact .raise _
      | some command => exact .pure _

end Fala.Runs
