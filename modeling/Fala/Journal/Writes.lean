import Fala.Journal.Common
import Fala.Journal.Homeostat
import Fala.Journal.Claim

/-! What the shared statements of a transaction did, given that they returned. -/

namespace Fala.Journal
open Durable Program

/-- The run exists, as `_require_run` finds it. -/
def RunKnown (db : Database) (runId : String) : Prop :=
  runId ≠ "" ∧ (db.runs.find? runId).isSome = true

theorem requireRun_ok {runId : String} {u : Unit} {db db' : Database} :
    (requireRun runId).eval db = (.ok u, db') ↔ RunKnown db runId ∧ db = db' := by
  simp only [requireRun, bind_ok, require_ok, fetch_ok, decide_eq_true_eq]
  constructor
  · rintro ⟨_, _, ⟨named, rfl⟩, _, _, ⟨rfl, rfl⟩, found, rfl⟩
    exact ⟨⟨named, found⟩, rfl⟩
  · rintro ⟨⟨named, found⟩, rfl⟩
    exact ⟨(), db, ⟨named, rfl⟩, _, db, ⟨rfl, rfl⟩, found, rfl⟩

theorem readProcess_ok {runId processId : String} {row : ProcessRow} {db db' : Database} :
    (readProcess runId processId).eval db = (.ok row, db') ↔
      db.processes.find? (runId, processId) = some row ∧ db = db' := by
  simp only [readProcess, query_ok]
  cases db.processes.find? (runId, processId) <;> simp

theorem getProcess_ok {runId processId : String} {row : ProcessRow} {db db' : Database} :
    (getProcess runId processId).eval db = (.ok row, db') ↔
      RunKnown db runId ∧ db.processes.find? (runId, processId) = some row ∧ db = db' := by
  simp only [getProcess, bind_ok, requireRun_ok, readProcess_ok]
  constructor
  · rintro ⟨_, _, ⟨known, rfl⟩, found, rfl⟩
    exact ⟨known, found, rfl⟩
  · rintro ⟨known, found, rfl⟩
    exact ⟨(), db, ⟨known, rfl⟩, found, rfl⟩

theorem requireRun_reads (runId : String) : ReadOnly (requireRun runId) :=
  .bind (.require _ _) fun _ => .bind (.fetch _) fun _ => .require _ _

theorem getProcess_reads (runId processId : String) : ReadOnly (getProcess runId processId) :=
  .bind (requireRun_reads runId) fun _ => .query _

theorem commandByKey_reads (runId key : String) : ReadOnly (commandByKey runId key) := .fetch _

theorem commandByKey_ok {runId key : String} {found : Option CommandRow} {db db' : Database} :
    (commandByKey runId key).eval db = (.ok found, db') ↔
      db.commandByKey runId key = found ∧ db = db' := by
  simp only [commandByKey, fetch_ok]

theorem canonicalJsonField_ok {value text : Text} {field : String} :
    canonicalJsonField value field = .ok text ↔ value.canonical = some text := by
  unfold canonicalJsonField
  cases value.canonical <;> simp

theorem updateProcess_one {runId id : String} {guard : ProcessRow → Bool}
    {f : ProcessRow → ProcessRow} {keeps : ∀ p, (f p).key = p.key} {n : Nat} {db db' : Database}
    (h : (updateProcess runId id guard f keeps).eval db = (.ok n, db')) (changed : n = 1) :
    ∃ row, db.processes.find? (runId, id) = some row ∧ guard row = true ∧
      db' = db.setProcesses (db.processes.modify (runId, id) f keeps) := by
  obtain ⟨found, rfl⟩ := updateWhere_one h changed
  obtain ⟨row, found, met⟩ := (Option.any_eq_true _ _).mp found
  exact ⟨row, found, met, rfl⟩

theorem updateProcess_met {runId id : String} (guard : ProcessRow → Bool)
    (f : ProcessRow → ProcessRow) (keeps : ∀ p, (f p).key = p.key) {row : ProcessRow}
    {db : Database} (found : db.processes.find? (runId, id) = some row) (met : guard row = true) :
    (updateProcess runId id guard f keeps).eval db =
      (.ok 1, db.setProcesses (db.processes.modify (runId, id) f keeps)) :=
  updateWhere_met (by simp only [found, Option.any_some, met])

theorem updateHomeostat_one {runId id : String} {guard : Homeostat → Bool}
    {f : Homeostat → Homeostat} {keeps : ∀ h, (f h).key = h.key} {n : Nat} {db db' : Database}
    (h : (updateHomeostat runId id guard f keeps).eval db = (.ok n, db')) (changed : n = 1) :
    ∃ row, db.homeostats.find? (runId, id) = some row ∧ guard row = true ∧
      db' = db.setHomeostats (db.homeostats.modify (runId, id) f keeps) := by
  obtain ⟨found, rfl⟩ := updateWhere_one h changed
  obtain ⟨row, found, met⟩ := (Option.any_eq_true _ _).mp found
  exact ⟨row, found, met, rfl⟩

theorem insertCommand_rows {row : CommandRow} {u : Unit} {db db' : Database}
    (h : (insertCommand row).eval db = (.ok u, db')) :
    ∃ commands, commands.rows = db.commands.rows ++ [row] ∧ db' = db.setCommands commands := by
  obtain ⟨commands, appended, rfl⟩ := insertCommand_ok.mp h
  exact ⟨commands, (Ledger.append?_some.mp appended).2, rfl⟩

/-- An event stored under its id: it was there with the same contents, or it is new, has the
    next number of its run and names a stored command. -/
inductive EventStored (commands : List CommandRow) (runId commandId : String)
    (event : EventInput) : List EventRow → List EventRow → Prop
  | replayed {rows : List EventRow} (sequence : Nat)
      (stored : event.row runId commandId sequence ∈ rows) :
      EventStored commands runId commandId event rows rows
  | appended {rows : List EventRow} (fresh : (runId, event.id) ∉ rows.map EventRow.unique)
      (referenced : commandId = "" ∨ (runId, commandId) ∈ commands.map CommandRow.key) :
      EventStored commands runId commandId event rows
        (rows ++ [event.row runId commandId
          (nextSequence EventRow.runId EventRow.sequence rows runId)])

theorem EventStored.mono {commands later : List CommandRow} {runId commandId : String}
    {event : EventInput} {rows after : List EventRow}
    (stored : EventStored commands runId commandId event rows after) (kept : commands ⊆ later) :
    EventStored later runId commandId event rows after := by
  cases stored with
  | replayed sequence stored => exact .replayed sequence stored
  | appended fresh referenced =>
    exact .appended fresh (referenced.imp_right fun member => List.map_subset _ kept member)

theorem appendEventInTx_rows {runId commandId : String} {event : EventInput} {row : EventRow}
    {db db' : Database} (h : (appendEventInTx runId commandId event).eval db = (.ok row, db')) :
    ∃ events, EventStored db.commands.rows runId commandId event db.events.rows events.rows ∧
      db' = db.setEvents events := by
  simp only [appendEventInTx, bind_ok, require_ok, fetch_ok] at h
  obtain ⟨_, _, ⟨-, rfl⟩, _, _, ⟨-, rfl⟩, _, _, ⟨rfl, rfl⟩, h⟩ := h
  cases stored : db.eventById runId event.id with
  | some existing =>
    simp only [stored, bind_ok, require_ok, pure_ok, decide_eq_true_eq] at h
    obtain ⟨_, _, ⟨same, rfl⟩, rfl, rfl⟩ := h
    obtain ⟨member, -⟩ := Ledger.find?_some.mp stored
    exact ⟨db.events, .replayed existing.sequence (same ▸ member), rfl⟩
  | none =>
    simp only [stored, bind_ok, fetch_ok, insertEvent_ok, query_ok] at h
    obtain ⟨_, _, ⟨rfl, rfl⟩, _, _, ⟨referenced, events, appended, rfl⟩, -, rfl⟩ := h
    obtain ⟨⟨-, fresh⟩, rows⟩ := Ledger.append?_some.mp appended
    refine ⟨events, ?_, rfl⟩
    rw [rows]
    exact .appended fresh referenced

/-- The events of one write stored one after another. -/
inductive EventsStored (commands : List CommandRow) (runId : String) :
    List (String × EventInput) → List EventRow → List EventRow → Prop
  | nil {rows : List EventRow} : EventsStored commands runId [] rows rows
  | cons {commandId : String} {event : EventInput} {rest : List (String × EventInput)}
      {rows middle after : List EventRow}
      (first : EventStored commands runId commandId event rows middle)
      (later : EventsStored commands runId rest middle after) :
      EventsStored commands runId ((commandId, event) :: rest) rows after

theorem EventsStored.one {commands : List CommandRow} {runId commandId : String}
    {event : EventInput} {rows after : List EventRow}
    (stored : EventStored commands runId commandId event rows after) :
    EventsStored commands runId [(commandId, event)] rows after := .cons stored .nil

theorem EventsStored.two {commands : List CommandRow} {runId commandId commandId' : String}
    {event event' : EventInput} {rows middle after : List EventRow}
    (first : EventStored commands runId commandId event rows middle)
    (second : EventStored commands runId commandId' event' middle after) :
    EventsStored commands runId [(commandId, event), (commandId', event')] rows after :=
  .cons first (.one second)

theorem appendEvents_rows {runId : String} {command : CommandRow} {events : List EventInput}
    {rows : List EventRow} {db db' : Database}
    (h : (appendEvents runId command events).eval db = (.ok rows, db')) :
    ∃ after, EventsStored db.commands.rows runId
        (events.map fun event => (command.id, event.inherit command)) db.events.rows after.rows ∧
      db' = db.setEvents after := by
  induction events generalizing db rows with
  | nil =>
    obtain ⟨-, rfl⟩ := pure_ok.mp h
    exact ⟨db.events, .nil, rfl⟩
  | cons event events ih =>
    simp only [appendEvents, bind_ok, pure_ok] at h
    obtain ⟨_, _, here, _, _, later, -, rfl⟩ := h
    obtain ⟨middle, stored, rfl⟩ := appendEventInTx_rows here
    obtain ⟨after, told, rfl⟩ := ih later
    exact ⟨after, .cons stored told, rfl⟩

end Fala.Journal

/-! The journal as a system that writes: a committed operation stores commands
    with their events, and rewrites process rows by one of a few actions. -/

namespace Fala.Journal
open Durable

/-- A way in which an operation rewrites one process row. -/
inductive RowAction where
  | claim (c : ClaimRequest)
  | expire (workerId now : String)
  | transition (t : ProcessTransition) (output error : Text)
  | command (t : CommandTransition) (output error : Text)
  | park (p : HomeostatPark) (output metadata : Text)
  | resolve (t : HomeostatTransition) (output error : Text)
  | reopen (r : HomeostatReopen) (homeostat : Homeostat)
  | promote (c : ChildrenCall) (child : CorrelationChildTransition)

namespace RowAction

def apply (old : ProcessRow) : RowAction → ProcessRow
  | .claim c => claimUpdate c.workerId c.now c.leaseExpiresAt old
  | .expire _ now => expireUpdate now (expiredError old.leaseOwner) old
  | .transition t output error =>
    t.update (t.storedOutput output old) (t.storedError error old) output old
  | .command t output error => t.update output error old
  | .park p output _ => p.update output old
  | .resolve t output error => t.update output error old
  | .reopen r _ => r.update old
  | .promote c child => c.update child old old

/-- The guards that the operation has checked on the row before it writes. -/
def Enabled (old : ProcessRow) : RowAction → Prop
  | .claim c => claimable old c.now = true ∧ c.workerId ≠ "" ∧ c.leaseExpiresAt ≠ ""
  | .expire _ now => exhausted old now = true ∧ now ≠ ""
  | .transition t _ _ =>
    t.at_ ≠ "" ∧ t.legal old = true ∧ (t.toStatus = .retryWait → old.attempt < old.maxAttempts) ∧
      (t.checksOwner = true → old.leaseOwner = "" ∨ old.leaseOwner = t.actor)
  | .command t _ _ =>
    t.command.createdAt ≠ "" ∧ expectedCommandType t.target = some t.command.commandType ∧
      t.guard old = .ok ()
  | .park p _ _ => p.at_ ≠ "" ∧ old.status = .running ∧ old.leaseOwner = p.actor
  | .resolve t _ _ =>
    t.at_ ≠ "" ∧ old.status = .waiting ∧ old.leaseOwner = "" ∧ old.leaseExpiresAt = "" ∧
      (t.processStatus = .succeeded ∨ t.processStatus = .cancelled ∨ t.processStatus = .timedOut)
  | .reopen _ _ =>
    (old.status = .succeeded ∨ old.status = .cancelled ∨ old.status = .timedOut) ∧
      old.attempt < old.maxAttempts
  | .promote _ _ => old.status = .pending

/-- The commands that record the action. -/
def commands (old : ProcessRow) : RowAction → List CommandRow
  | .claim c => [c.command (claimUpdate c.workerId c.now c.leaseExpiresAt old)]
  | .expire workerId now => [expireCommand workerId now old]
  | .transition t output error => [t.command (t.payload output error old)]
  | .command t _ _ => [t.storedCommand]
  | .park p output metadata =>
    [plainCommand p.runId p.key "homeostat.open" p.actor (p.payload output metadata) p.at_,
      plainCommand p.runId (p.key ++ ":process") "process.wait" p.actor
        (p.payload output metadata) p.at_]
  | .resolve t output error =>
    [plainCommand t.runId t.key t.commandType t.actor (t.payload output error) t.at_]
  | .reopen r homeostat =>
    [plainCommand r.runId (r.key homeostat) "homeostat.reopen" r.actor r.payload r.at_]
  | .promote c child => [c.command child old]

/-- The events of the action, each with the id of its command. -/
def events (old : ProcessRow) : RowAction → List (String × EventInput)
  | .claim c =>
    let row := claimUpdate c.workerId c.now c.leaseExpiresAt old
    [(c.commandId row, c.event row)]
  | .expire workerId now => [(failKey old, expireEvent workerId now old)]
  | .transition t output error =>
    [(t.effectiveKey, t.event (t.payload output error old) old)]
  | .command t _ _ => t.events.map fun event => (t.command.id, event.inherit t.command)
  | .park p output metadata =>
    let payload := p.payload output metadata
    let waitKey := p.key ++ ":process"
    [(p.key, p.event p.key "homeostat.opened" payload old),
      (waitKey, p.event waitKey "process.waiting" payload old)]
  | .resolve t output error =>
    let payload := t.payload output error
    [(t.key, t.event (t.key ++ ":event") ("homeostat." ++ t.homeostatStatus) payload old),
      (t.key, t.event (t.key ++ ":process-event") ("process." ++ t.processStatus.value) payload old)]
  | .reopen r homeostat =>
    let key := r.key homeostat
    [(key, r.event (key ++ ":event") "homeostat.reopened" old),
      (key, r.event (key ++ ":process-event") "process.waiting" old)]
  | .promote c child => [(ChildrenCall.key child, c.event child old)]

end RowAction

/-- The commands and events that a transaction adds to the log of a run. -/
structure Logged (db : Database) (runId : String) (commands : List CommandRow)
    (events : List (String × EventInput)) (db' : Database) : Prop where
  kept : ∀ id, (db.runs.find? id).isSome = true → (db'.runs.find? id).isSome = true
  known : (db'.runs.find? runId).isSome = true
  stored : db'.commands.rows = db.commands.rows ++ commands
  told : EventsStored db'.commands.rows runId events db.events.rows db'.events.rows

/-- One committed write. -/
inductive Write where
  | record (runId : String) (commands : List CommandRow) (events : List (String × EventInput))
  | schedule (row : ProcessRow) (commands : List CommandRow) (events : List (String × EventInput))
  | act (runId processId : String) (action : RowAction)

/-- What a write leaves of the process rows and of the log. -/
inductive Written (db : Database) : Write → Database → Prop
  | record {runId : String} {commands : List CommandRow} {events : List (String × EventInput)}
      {db' : Database} (processes : db'.processes = db.processes)
      (logged : Logged db runId commands events db') :
      Written db (.record runId commands events) db'
  | schedule {row : ProcessRow} {commands : List CommandRow} {events : List (String × EventInput)}
      {db' : Database} (inserted : db.processes.insert? row = some db'.processes)
      (logged : Logged db row.runId commands events db') :
      Written db (.schedule row commands events) db'
  | act {runId processId : String} {action : RowAction} {old : ProcessRow} {db' : Database}
      (found : db.processes.find? (runId, processId) = some old) (enabled : action.Enabled old)
      (processes : ∀ k, db'.processes.find? k =
        if k = (runId, processId) then some (action.apply old) else db.processes.find? k)
      (logged : Logged db runId (action.commands old) (action.events old) db') :
      Written db (.act runId processId action) db'

/-- The writes of one transaction. -/
inductive Writes : Database → List Write → Database → Prop
  | nil {db : Database} : Writes db [] db
  | cons {db middle db' : Database} {write : Write} {rest : List Write}
      (first : Written db write middle) (later : Writes middle rest db') :
      Writes db (write :: rest) db'

theorem Writes.append {db middle db' : Database} {left right : List Write}
    (first : Writes db left middle) (later : Writes middle right db') :
    Writes db (left ++ right) db' := by
  induction first with
  | nil => exact later
  | cons written _ ih => exact .cons written (ih later)

theorem Writes.one {db db' : Database} {write : Write} (written : Written db write db') :
    Writes db [write] db' := .cons written .nil

/-- The rows are unchanged, or changed by writes of the given kind. -/
def Does (P : Write → Prop) (db db' : Database) : Prop :=
  ∃ writes, (∀ w ∈ writes, P w) ∧ Writes db writes db'

theorem Does.refl {P : Write → Prop} (db : Database) : Does P db db :=
  ⟨[], by simp, .nil⟩

theorem Does.one {P : Write → Prop} {db db' : Database} {write : Write} (permitted : P write)
    (written : Written db write db') : Does P db db' :=
  ⟨[write], by simpa using permitted, .one written⟩

theorem Does.trans {P : Write → Prop} {db middle db' : Database} (first : Does P db middle)
    (later : Does P middle db') : Does P db db' := by
  obtain ⟨left, allowed, done⟩ := first
  obtain ⟨right, allowed', done'⟩ := later
  exact ⟨left ++ right, by
    simpa [or_imp, forall_and] using ⟨allowed, allowed'⟩, done.append done'⟩

theorem Does.imp {P Q : Write → Prop} {db db' : Database} (does : Does P db db')
    (weaker : ∀ w, P w → Q w) : Does Q db db' := by
  obtain ⟨writes, allowed, done⟩ := does
  exact ⟨writes, fun w member => weaker w (allowed w member), done⟩

theorem Does.induct {I : Database → Prop} {P : Write → Prop} {db db' : Database}
    (does : Does P db db') (initial : I db)
    (step : ∀ {before after : Database} {w : Write}, P w → Written before w after →
      I before → I after) : I db' := by
  obtain ⟨writes, allowed, done⟩ := does
  induction done with
  | nil => exact initial
  | cons written _ ih =>
    obtain ⟨here, later⟩ := List.forall_mem_cons.mp allowed
    exact ih (step here written initial) later

end Fala.Journal
