import Fala.Store.Database
import Fala.Durable.Atomic

namespace Fala
open Durable

/-- A table beside the runs, the log and the processes: writing it leaves those alone. -/
structure SideTable {ρ : Type} (key : ρ → String × String) where
  name : String
  read : Database → Table key
  write : Database → Table key → Database
  references : Database → ρ → Bool
  read_write : ∀ db t, read (write db t) = t
  write_runs : ∀ db t, (write db t).runs = db.runs
  write_commands : ∀ db t, (write db t).commands = db.commands
  write_events : ∀ db t, (write db t).events = db.events
  write_processes : ∀ db t, (write db t).processes = db.processes
  read_setCommands : ∀ db commands, read (db.setCommands commands) = read db
  read_setEvents : ∀ db events, read (db.setEvents events) = read db

variable {ρ : Type} {key : ρ → String × String}

namespace SideTable

def find? (table : SideTable key) (runId id : String) : Sql (Option ρ) :=
  .fetch fun db => (table.read db).find? (runId, id)

def insert (table : SideTable key) (row : ρ) : Sql Unit :=
  execute fun db =>
    match (table.read db).insert? row with
    | some rows =>
      if table.references db row then .ok (table.write db rows) else .error foreignKeyFailed
    | none => .error (uniqueFailed table.name)

def upsert (table : SideTable key) (row : ρ) : Sql Unit :=
  execute fun db =>
    if table.references db row then .ok (table.write db ((table.read db).upsert row))
    else .error foreignKeyFailed

/-- An `UPDATE` of one row under its key, with the number of changed rows. -/
def update (table : SideTable key) (runId id : String) (guard : ρ → Bool) (f : ρ → ρ)
    (keeps : ∀ r, key (f r) = key r := by intro _; rfl) : Sql Nat :=
  updateWhere (fun db => ((table.read db).find? (runId, id)).any guard)
    fun db => table.write db ((table.read db).modify (runId, id) f keeps)

end SideTable

def impulses : SideTable Impulse.key where
  name := "impulses"
  read := Database.impulses
  write db impulses := { db with impulses }
  references _ _ := true
  read_write _ _ := rfl
  write_runs _ _ := rfl
  write_commands _ _ := rfl
  write_events _ _ := rfl
  write_processes _ _ := rfl
  read_setCommands _ _ := rfl
  read_setEvents _ _ := rfl

def impulseTypes : SideTable ImpulseType.key where
  name := "impulse_types"
  read := Database.impulseTypes
  write db impulseTypes := { db with impulseTypes }
  references _ _ := true
  read_write _ _ := rfl
  write_runs _ _ := rfl
  write_commands _ _ := rfl
  write_events _ _ := rfl
  write_processes _ _ := rfl
  read_setCommands _ _ := rfl
  read_setEvents _ _ := rfl

def impulseRelations : SideTable ImpulseRelation.key where
  name := "impulse_relations"
  read := Database.impulseRelations
  write db impulseRelations := { db with impulseRelations }
  references db row :=
    (db.impulses.find? (row.runId, row.sourceImpulseId)).isSome ∧
      (db.impulses.find? (row.runId, row.targetImpulseId)).isSome
  read_write _ _ := rfl
  write_runs _ _ := rfl
  write_commands _ _ := rfl
  write_events _ _ := rfl
  write_processes _ _ := rfl
  read_setCommands _ _ := rfl
  read_setEvents _ _ := rfl

def associations : SideTable Association.key where
  name := "associations"
  read := Database.associations
  write db associations := { db with associations }
  references _ _ := true
  read_write _ _ := rfl
  write_runs _ _ := rfl
  write_commands _ _ := rfl
  write_events _ _ := rfl
  write_processes _ _ := rfl
  read_setCommands _ _ := rfl
  read_setEvents _ _ := rfl

def reactions : SideTable Reaction.key where
  name := "reactions"
  read := Database.reactions
  write db reactions := { db with reactions }
  references db row :=
    row.impulseId = "" ∨ (db.impulses.find? (row.runId, row.impulseId)).isSome
  read_write _ _ := rfl
  write_runs _ _ := rfl
  write_commands _ _ := rfl
  write_events _ _ := rfl
  write_processes _ _ := rfl
  read_setCommands _ _ := rfl
  read_setEvents _ _ := rfl

def homeostats : SideTable Homeostat.key where
  name := "homeostats"
  read := Database.homeostats
  write := Database.setHomeostats
  references _ _ := true
  read_write _ _ := rfl
  write_runs _ _ := rfl
  write_commands _ _ := rfl
  write_events _ _ := rfl
  write_processes _ _ := rfl
  read_setCommands _ _ := rfl
  read_setEvents _ _ := rfl

def projections : SideTable Projection.key where
  name := "projections"
  read := Database.projections
  write db projections := { db with projections }
  references _ _ := true
  read_write _ _ := rfl
  write_runs _ _ := rfl
  write_commands _ _ := rfl
  write_events _ _ := rfl
  write_processes _ _ := rfl
  read_setCommands _ _ := rfl
  read_setEvents _ _ := rfl

/-- `UNIQUE (run_id, idempotency_key)` of a bridge table. -/
def deliveryKeyFree (rows : List BridgeDelivery) (row : BridgeDelivery) : Bool :=
  rows.all fun d => ¬ (d.runId = row.runId ∧ d.idempotencyKey = row.idempotencyKey)

def bridgeOutbox : SideTable BridgeDelivery.key where
  name := "bridge_outbox"
  read := Database.bridgeOutbox
  write db bridgeOutbox := { db with bridgeOutbox }
  references db row := deliveryKeyFree db.bridgeOutbox.rows row
  read_write _ _ := rfl
  write_runs _ _ := rfl
  write_commands _ _ := rfl
  write_events _ _ := rfl
  write_processes _ _ := rfl
  read_setCommands _ _ := rfl
  read_setEvents _ _ := rfl

def bridgeInbox : SideTable BridgeDelivery.key where
  name := "bridge_inbox"
  read := Database.bridgeInbox
  write db bridgeInbox := { db with bridgeInbox }
  references db row := deliveryKeyFree db.bridgeInbox.rows row
  read_write _ _ := rfl
  write_runs _ _ := rfl
  write_commands _ _ := rfl
  write_events _ _ := rfl
  write_processes _ _ := rfl
  read_setCommands _ _ := rfl
  read_setEvents _ _ := rfl

namespace SideTable

theorem insert_ok {table : SideTable key} {row : ρ} {u : Unit} {db db' : Database} :
    (table.insert row).eval db = (.ok u, db') ↔
      ∃ rows, (table.read db).insert? row = some rows ∧ table.references db row = true ∧
        db' = table.write db rows := by
  rw [insert, execute_ok]
  cases (table.read db).insert? row with
  | none => simp
  | some rows =>
    by_cases referenced : table.references db row = true <;> simp [referenced, eq_comm]

theorem upsert_ok {table : SideTable key} {row : ρ} {u : Unit} {db db' : Database} :
    (table.upsert row).eval db = (.ok u, db') ↔
      table.references db row = true ∧ db' = table.write db ((table.read db).upsert row) := by
  rw [upsert, execute_ok]
  by_cases referenced : table.references db row = true <;> simp [referenced, eq_comm]

theorem find?_ok {table : SideTable key} {runId id : String} {found : Option ρ}
    {db db' : Database} :
    (table.find? runId id).eval db = (.ok found, db') ↔
      (table.read db).find? (runId, id) = found ∧ db = db' := Program.fetch_ok

theorem update_one {table : SideTable key} {runId id : String} {guard : ρ → Bool} {f : ρ → ρ}
    {keeps : ∀ r, key (f r) = key r} {n : Nat} {db db' : Database}
    (h : (table.update runId id guard f keeps).eval db = (.ok n, db')) (changed : n = 1) :
    ∃ row, (table.read db).find? (runId, id) = some row ∧ guard row = true ∧
      db' = table.write db ((table.read db).modify (runId, id) f keeps) := by
  obtain ⟨found, rfl⟩ := updateWhere_one h changed
  obtain ⟨row, found, met⟩ := (Option.any_eq_true _ _).mp found
  exact ⟨row, found, met, rfl⟩

end SideTable
end Fala

/-! What the statements leave alone. -/

namespace Fala
open Durable Program

/-- An invariant of the tables beside the log and the processes. -/
structure Alongside (I : Database → Prop) : Prop where
  commands : ∀ db t, I db → I (db.setCommands t)
  events : ∀ db t, I db → I (db.setEvents t)
  processes : ∀ db t, I db → I (db.setProcesses t)

theorem runs_alongside (P : Table RunRecord.id → Prop) : Alongside fun db => P db.runs :=
  ⟨fun _ _ => id, fun _ _ => id, fun _ _ => id⟩

/-- An invariant of the tables beside the runs, the log and the processes. -/
structure Aside (I : Database → Prop) : Prop where
  runs : ∀ db t, I db → I (db.setRuns t)
  commands : ∀ db t, I db → I (db.setCommands t)
  events : ∀ db t, I db → I (db.setEvents t)
  processes : ∀ db t, I db → I (db.setProcesses t)

theorem Aside.alongside {I : Database → Prop} (beside : Aside I) : Alongside I :=
  ⟨beside.commands, beside.events, beside.processes⟩

theorem homeostats_aside (P : Table Homeostat.key → Prop) : Aside fun db => P db.homeostats :=
  ⟨fun _ _ => id, fun _ _ => id, fun _ _ => id, fun _ _ => id⟩

variable {ρ : Type} {I : Database → Prop} {key : ρ → String × String}

theorem execute_keeps {f : Database → Except String Database}
    (kept : ∀ db db', f db = .ok db' → I db → I db') : (execute f).Keeps I := by
  refine .statement fun db u db' h held => ?_
  cases wrote : f db with
  | error message => simp [wrote, Except.map] at h
  | ok middle =>
    rw [wrote] at h
    cases h
    exact kept _ _ wrote held

theorem updateWhere_keeps {found : Database → Bool} {write : Database → Database}
    (kept : ∀ db, found db = true → I db → I (write db)) : (updateWhere found write).Keeps I := by
  refine .statement fun db n db' h held => ?_
  split at h
  · rename_i met
    cases h
    exact kept db met held
  · cases h
    exact held

namespace Alongside

variable (beside : Alongside I)
include beside

theorem insertCommand (row : CommandRow) : (insertCommand row).Keeps I := by
  refine execute_keeps fun db db' h => ?_
  split at h
  · cases h
    exact beside.commands _ _
  · cases h

theorem insertEvent (row : EventRow) : (insertEvent row).Keeps I := by
  refine execute_keeps fun db db' h => ?_
  split at h
  · split at h
    · cases h
      exact beside.events _ _
    · cases h
  · cases h

theorem insertProcess (row : ProcessRow) : (insertProcess row).Keeps I := by
  refine execute_keeps fun db db' h => ?_
  split at h
  · split at h
    · cases h
      exact beside.processes _ _
    · cases h
  · cases h

theorem updateProcess (runId id : String) (guard : ProcessRow → Bool) (f : ProcessRow → ProcessRow)
    (keeps : ∀ p, (f p).key = p.key) : (updateProcess runId id guard f keeps).Keeps I :=
  updateWhere_keeps fun db _ => beside.processes db _

end Alongside

namespace Aside

variable (beside : Aside I)
include beside

theorem insertRun (row : RunRecord) : (insertRun row).Keeps I := by
  refine execute_keeps fun db db' h => ?_
  split at h
  · cases h
    exact beside.runs _ _
  · cases h

theorem updateRun (id : String) (guard : RunRecord → Bool) (f : RunRecord → RunRecord)
    (keeps : ∀ r, (f r).id = r.id) : (updateRun id guard f keeps).Keeps I :=
  updateWhere_keeps fun db _ => beside.runs db _

end Aside

/-- An invariant does not read a side table. -/
def SideTable.Hidden (table : SideTable key) (I : Database → Prop) : Prop :=
  ∀ db t, I db → I (table.write db t)

namespace SideTable

variable {table : SideTable key}

theorem insert_keeps (hidden : table.Hidden I) (row : ρ) : (table.insert row).Keeps I := by
  refine execute_keeps fun db db' h => ?_
  split at h
  · split at h
    · cases h
      exact hidden _ _
    · cases h
  · cases h

theorem upsert_keeps (hidden : table.Hidden I) (row : ρ) : (table.upsert row).Keeps I := by
  refine execute_keeps fun db db' h => ?_
  split at h
  · cases h
    exact hidden _ _
  · cases h

theorem update_keeps (hidden : table.Hidden I) (runId id : String) (guard : ρ → Bool)
    (f : ρ → ρ) (keeps : ∀ r, key (f r) = key r) :
    (table.update runId id guard f keeps).Keeps I :=
  updateWhere_keeps fun db _ => hidden db _

theorem insert_stored {k : String × String} {stored : ρ} (row : ρ) :
    (table.insert row).Keeps fun db => (table.read db).find? k = some stored := by
  refine execute_keeps fun db db' h found => ?_
  cases inserted : (table.read db).insert? row with
  | none => simp [inserted] at h
  | some rows =>
    simp only [inserted] at h
    split at h
    · cases h
      have apart : key row ≠ k := by
        rintro rfl
        rw [(Table.insert?_some.mp inserted).1] at found
        cases found
      rw [table.read_write, Table.find?_insert inserted, if_neg apart]
      exact found
    · cases h

theorem update_stored {k : String × String} {stored : ρ} {runId id : String} (guard : ρ → Bool)
    (f : ρ → ρ) (keeps : ∀ r, key (f r) = key r) (other : k ≠ (runId, id)) :
    (table.update runId id guard f keeps).Keeps
      fun db => (table.read db).find? k = some stored := by
  refine updateWhere_keeps fun db _ found => ?_
  rw [table.read_write, Table.find?_modify, if_neg other]
  exact found

end SideTable
end Fala
