import Fala.Durable.Atomic
import Fala.Durable.Ledger
import Fala.Durable.Rows
import Fala.Durable.Table
import Fala.Store.Rows

namespace Fala
open Durable

/-! Primary keys and unique keys of schema version 6. -/

def CommandRow.key (c : CommandRow) : String × String := (c.runId, c.id)
def CommandRow.unique (c : CommandRow) : String × String := (c.runId, c.idempotencyKey)
def EventRow.key (e : EventRow) : String × Nat := (e.runId, e.sequence)
def EventRow.unique (e : EventRow) : String × String := (e.runId, e.id)
def ProcessRow.key (p : ProcessRow) : String × String := (p.runId, p.id)
def Homeostat.key (h : Homeostat) : String × String := (h.runId, h.id)
def Impulse.key (i : Impulse) : String × String := (i.runId, i.id)
def ImpulseType.key (t : ImpulseType) : String × String := (t.runId, t.id)
def ImpulseRelation.key (r : ImpulseRelation) : String × String := (r.runId, r.id)
def Association.key (a : Association) : String × String := (a.runId, a.id)
def Reaction.key (r : Reaction) : String × String := (r.runId, r.id)
def Projection.key (p : Projection) : String × String := (p.runId, p.name)
def BridgeDelivery.key (d : BridgeDelivery) : String × String := (d.runId, d.id)

structure Database where
  runs : Table RunRecord.id
  commands : Ledger CommandRow.key CommandRow.unique
  events : Ledger EventRow.key EventRow.unique
  processes : Table ProcessRow.key
  homeostats : Table Homeostat.key
  impulses : Table Impulse.key
  impulseTypes : Table ImpulseType.key
  impulseRelations : Table ImpulseRelation.key
  associations : Table Association.key
  reactions : Table Reaction.key
  projections : Table Projection.key
  bridgeOutbox : Table BridgeDelivery.key
  bridgeInbox : Table BridgeDelivery.key
  deriving DecidableEq

namespace Database

/-- A journal after `initialize_native_schema`. -/
def empty : Database where
  runs := .empty
  commands := .empty
  events := .empty
  processes := .empty
  homeostats := .empty
  impulses := .empty
  impulseTypes := .empty
  impulseRelations := .empty
  associations := .empty
  reactions := .empty
  projections := .empty
  bridgeOutbox := .empty
  bridgeInbox := .empty

/-! One table replaced. -/

def setRuns (db : Database) (runs : Table RunRecord.id) : Database := { db with runs }
def setCommands (db : Database) (commands : Ledger CommandRow.key CommandRow.unique) : Database :=
  { db with commands }
def setEvents (db : Database) (events : Ledger EventRow.key EventRow.unique) : Database :=
  { db with events }
def setProcesses (db : Database) (processes : Table ProcessRow.key) : Database :=
  { db with processes }
def setHomeostats (db : Database) (homeostats : Table Homeostat.key) : Database :=
  { db with homeostats }

def commandByKey (db : Database) (runId idempotencyKey : String) : Option CommandRow :=
  db.commands.find? (runId, idempotencyKey)

def commandById (db : Database) (runId id : String) : Option CommandRow :=
  db.commands.rows.find? fun c => c.runId = runId ∧ c.id = id

def eventById (db : Database) (runId id : String) : Option EventRow :=
  db.events.find? (runId, id)

/-- `SELECT COALESCE(MAX(sequence),0)+1 FROM runtime_events WHERE run_id=?` -/
def nextSequence (db : Database) (runId : String) : Nat :=
  Durable.nextSequence EventRow.runId EventRow.sequence db.events.rows runId

end Database

abbrev Sql := Program Database

def uniqueFailed (table : String) : String := "UNIQUE constraint failed: " ++ table
def foreignKeyFailed : String := "FOREIGN KEY constraint failed"

/-- A statement whose only result is the rows it leaves. -/
def execute (f : Database → Except String Database) : Sql Unit :=
  .statement fun db => (f db).map ((), ·)

def insertRun (row : RunRecord) : Sql Unit :=
  execute fun db =>
    match db.runs.insert? row with
    | some runs => .ok (db.setRuns runs)
    | none => .error (uniqueFailed "runs.id")

def insertCommand (row : CommandRow) : Sql Unit :=
  execute fun db =>
    match db.commands.append? row with
    | some commands => .ok (db.setCommands commands)
    | none => .error (uniqueFailed "runtime_commands")

def insertEvent (row : EventRow) : Sql Unit :=
  execute fun db =>
    match db.events.append? row with
    | some events =>
      if row.commandId = "" ∨ (row.runId, row.commandId) ∈ db.commands.rows.map CommandRow.key then
        .ok (db.setEvents events)
      else .error foreignKeyFailed
    | none => .error (uniqueFailed "runtime_events")

def insertProcess (row : ProcessRow) : Sql Unit :=
  execute fun db =>
    match db.processes.insert? row with
    | some processes =>
      if row.impulseId = "" ∨ (db.impulses.find? (row.runId, row.impulseId)).isSome then
        .ok (db.setProcesses processes)
      else .error foreignKeyFailed
    | none => .error (uniqueFailed "processes")

def insertHomeostat (row : Homeostat) : Sql Unit :=
  execute fun db =>
    match db.homeostats.insert? row with
    | some homeostats => .ok (db.setHomeostats homeostats)
    | none => .error (uniqueFailed "homeostats")

/-- An `UPDATE` of one row under its key, with the number of changed rows. -/
def updateWhere (found : Database → Bool) (write : Database → Database) : Sql Nat :=
  .statement fun db => if found db then .ok (1, write db) else .ok (0, db)

def updateRun (id : String) (guard : RunRecord → Bool) (f : RunRecord → RunRecord)
    (keeps : ∀ r, (f r).id = r.id := by intro _; rfl) : Sql Nat :=
  updateWhere (fun db => (db.runs.find? id).any guard)
    fun db => db.setRuns (db.runs.modify id f keeps)

def updateProcess (runId id : String) (guard : ProcessRow → Bool) (f : ProcessRow → ProcessRow)
    (keeps : ∀ p, (f p).key = p.key := by intro _; rfl) : Sql Nat :=
  updateWhere (fun db => (db.processes.find? (runId, id)).any guard)
    fun db => db.setProcesses (db.processes.modify (runId, id) f keeps)

def updateHomeostat (runId id : String) (guard : Homeostat → Bool) (f : Homeostat → Homeostat)
    (keeps : ∀ h, (f h).key = h.key := by intro _; rfl) : Sql Nat :=
  updateWhere (fun db => (db.homeostats.find? (runId, id)).any guard)
    fun db => db.setHomeostats (db.homeostats.modify (runId, id) f keeps)

/-! What each statement did, given that it was not refused. -/

theorem execute_ok {f : Database → Except String Database} {u : Unit} {db db' : Database} :
    (execute f).eval db = (.ok u, db') ↔ f db = .ok db' := by
  simp only [execute, Program.statement_ok]
  cases f db <;> simp [Except.map]

theorem insertRun_ok {row : RunRecord} {u : Unit} {db db' : Database} :
    (insertRun row).eval db = (.ok u, db') ↔
      ∃ runs, db.runs.insert? row = some runs ∧ db' = db.setRuns runs := by
  rw [insertRun, execute_ok]
  cases db.runs.insert? row <;> simp [eq_comm]

theorem insertCommand_ok {row : CommandRow} {u : Unit} {db db' : Database} :
    (insertCommand row).eval db = (.ok u, db') ↔
      ∃ commands, db.commands.append? row = some commands ∧ db' = db.setCommands commands := by
  rw [insertCommand, execute_ok]
  cases db.commands.append? row <;> simp [eq_comm]

theorem insertEvent_ok {row : EventRow} {u : Unit} {db db' : Database} :
    (insertEvent row).eval db = (.ok u, db') ↔
      (row.commandId = "" ∨ (row.runId, row.commandId) ∈ db.commands.rows.map CommandRow.key) ∧
        ∃ events, db.events.append? row = some events ∧ db' = db.setEvents events := by
  rw [insertEvent, execute_ok]
  cases db.events.append? row with
  | none => simp
  | some events =>
    dsimp only
    split <;> rename_i referenced
    · refine ⟨fun same => ⟨referenced, _, rfl, (Except.ok.inj same).symm⟩, ?_⟩
      rintro ⟨_, _, same, rfl⟩
      cases same
      rfl
    · refine ⟨fun same => ?_, fun same => absurd same.1 referenced⟩
      cases same

theorem insertProcess_ok {row : ProcessRow} {u : Unit} {db db' : Database} :
    (insertProcess row).eval db = (.ok u, db') ↔
      (row.impulseId = "" ∨ (db.impulses.find? (row.runId, row.impulseId)).isSome) ∧
        ∃ processes, db.processes.insert? row = some processes ∧ db' = db.setProcesses processes := by
  rw [insertProcess, execute_ok]
  cases db.processes.insert? row with
  | none => simp
  | some processes =>
    dsimp only
    split <;> rename_i referenced
    · refine ⟨fun same => ⟨referenced, _, rfl, (Except.ok.inj same).symm⟩, ?_⟩
      rintro ⟨_, _, same, rfl⟩
      cases same
      rfl
    · refine ⟨fun same => ?_, fun same => absurd same.1 referenced⟩
      cases same

theorem insertHomeostat_ok {row : Homeostat} {u : Unit} {db db' : Database} :
    (insertHomeostat row).eval db = (.ok u, db') ↔
      ∃ homeostats, db.homeostats.insert? row = some homeostats ∧
        db' = db.setHomeostats homeostats := by
  rw [insertHomeostat, execute_ok]
  cases db.homeostats.insert? row <;> simp [eq_comm]

theorem updateWhere_met {found : Database → Bool} {write : Database → Database} {db : Database}
    (met : found db = true) : (updateWhere found write).eval db = (.ok 1, write db) :=
  Program.statement_ok.mpr (if_pos met)

theorem updateWhere_one {found : Database → Bool} {write : Database → Database} {n : Nat}
    {db db' : Database} (h : (updateWhere found write).eval db = (.ok n, db'))
    (changed : n = 1) : found db = true ∧ db' = write db := by
  rw [updateWhere, Program.statement_ok] at h
  split at h
  · cases h
    exact ⟨by assumption, rfl⟩
  · cases h
    cases changed

theorem updateWhere_none {found : Database → Bool} {write : Database → Database} {n : Nat}
    {db db' : Database} (h : (updateWhere found write).eval db = (.ok n, db'))
    (unchanged : n ≠ 1) : db' = db := by
  rw [updateWhere, Program.statement_ok] at h
  split at h
  · cases h
    exact absurd rfl unchanged
  · cases h
    rfl

end Fala
