import Fala.Durable.Ledger
import Fala.Store.Database

/-! The run-scoped tables by name, and the journal together with its triggers. -/

namespace Fala
open Durable

inductive TableName where
  | runs | impulses | impulseTypes | impulseRelations | commands | events | associations | reactions | processes
  | homeostats | projections | bridgeOutbox | bridgeInbox
  deriving DecidableEq

def TableName.Row : TableName → Type
  | .runs => RunRecord
  | .impulses => Impulse
  | .impulseTypes => ImpulseType
  | .impulseRelations => ImpulseRelation
  | .commands => CommandRow
  | .events => EventRow
  | .associations => Association
  | .reactions => Reaction
  | .processes => ProcessRow
  | .homeostats => Homeostat
  | .projections => Projection
  | .bridgeOutbox | .bridgeInbox => BridgeDelivery

/-- The run that a row belongs to. -/
def TableName.runOf : (t : TableName) → t.Row → String
  | .runs => RunRecord.id
  | .impulses => Impulse.runId
  | .impulseTypes => ImpulseType.runId
  | .impulseRelations => ImpulseRelation.runId
  | .commands => CommandRow.runId
  | .events => EventRow.runId
  | .associations => Association.runId
  | .reactions => Reaction.runId
  | .processes => ProcessRow.runId
  | .homeostats => Homeostat.runId
  | .projections => Projection.runId
  | .bridgeOutbox | .bridgeInbox => BridgeDelivery.runId

namespace Database

def rowsOf (db : Database) : (t : TableName) → List t.Row
  | .runs => db.runs.rows
  | .impulses => db.impulses.rows
  | .impulseTypes => db.impulseTypes.rows
  | .impulseRelations => db.impulseRelations.rows
  | .commands => db.commands.rows
  | .events => db.events.rows
  | .associations => db.associations.rows
  | .reactions => db.reactions.rows
  | .processes => db.processes.rows
  | .homeostats => db.homeostats.rows
  | .projections => db.projections.rows
  | .bridgeOutbox => db.bridgeOutbox.rows
  | .bridgeInbox => db.bridgeInbox.rows

/-- The rows of one table that belong to a run. -/
def rowsIn (db : Database) (runId : String) (t : TableName) : List t.Row :=
  (db.rowsOf t).filter fun r => t.runOf r = runId

/-- `DELETE` of the rows of one run in one table. -/
def without (db : Database) (runId : String) : TableName → Database
  | .runs => { db with runs := db.runs.filter fun r => r.id ≠ runId }
  | .impulses => { db with impulses := db.impulses.filter fun r => r.runId ≠ runId }
  | .impulseTypes => { db with impulseTypes := db.impulseTypes.filter fun r => r.runId ≠ runId }
  | .impulseRelations => { db with impulseRelations := db.impulseRelations.filter fun r => r.runId ≠ runId }
  | .commands => { db with commands := db.commands.filter fun r => r.runId ≠ runId }
  | .events => { db with events := db.events.filter fun r => r.runId ≠ runId }
  | .associations => { db with associations := db.associations.filter fun r => r.runId ≠ runId }
  | .reactions => { db with reactions := db.reactions.filter fun r => r.runId ≠ runId }
  | .processes => { db with processes := db.processes.filter fun r => r.runId ≠ runId }
  | .homeostats => { db with homeostats := db.homeostats.filter fun r => r.runId ≠ runId }
  | .projections => { db with projections := db.projections.filter fun r => r.runId ≠ runId }
  | .bridgeOutbox => { db with bridgeOutbox := db.bridgeOutbox.filter fun r => r.runId ≠ runId }
  | .bridgeInbox => { db with bridgeInbox := db.bridgeInbox.filter fun r => r.runId ≠ runId }

theorem rowsOf_without_same (db : Database) (runId : String) (t : TableName) :
    (db.without runId t).rowsOf t = (db.rowsOf t).filter fun r => t.runOf r ≠ runId := by
  cases t <;> rfl

theorem rowsOf_without_other (db : Database) (runId : String) {t other : TableName} (apart : t ≠ other) :
    (db.without runId t).rowsOf other = db.rowsOf other := by
  cases t <;> cases other <;> first | rfl | exact absurd rfl apart

end Database

/-! Triggers, as `sqlite_master` lists them. -/

structure Trigger where
  name : String
  sql : String
  deriving DecidableEq

/-- One character of `_normalize_sql`; what is written is held backwards. -/
def normalizeStep (state : List Char × Bool) (c : Char) : List Char × Bool :=
  if c = ' ' ∨ c = '\n' ∨ c = '\r' ∨ c = '\t' then
    if state.2 = false ∧ state.1 ≠ [] then (' ' :: state.1, true) else state
  else (c.toLower :: state.1, false)

/-- `_normalize_sql` -/
def normalizeSql (text : String) : String :=
  let written := (text.toList.foldl normalizeStep ([], false)).1
  String.ofList (match written with | ' ' :: rest => rest.reverse | _ => written.reverse)

namespace Trigger

def eventsNoDelete : Trigger :=
  ⟨"runtime_events_no_delete", "CREATE TRIGGER runtime_events_no_delete\nBEFORE DELETE ON runtime_events\nBEGIN\n    SELECT RAISE(ABORT, 'runtime_events is append-only');\nEND"⟩

def commandsNoDelete : Trigger :=
  ⟨"runtime_commands_no_delete", "CREATE TRIGGER runtime_commands_no_delete\nBEFORE DELETE ON runtime_commands\nBEGIN\n    SELECT RAISE(ABORT, 'runtime_commands is append-only');\nEND"⟩

/-- The same statement, up to its layout: what the schema contract compares. -/
def Matches (t reference : Trigger) : Prop := t.name = reference.name ∧ normalizeSql t.sql = normalizeSql reference.sql

instance (t reference : Trigger) : Decidable (t.Matches reference) := by unfold Matches; infer_instance

end Trigger

/-- The journal of one file: its rows and its triggers. -/
structure Archive where
  db : Database
  triggers : Table Trigger.name
  deriving DecidableEq

namespace Archive

/-- The trigger is in force in a form that the schema contract accepts. -/
def Guarded (a : Archive) (reference : Trigger) : Prop :=
  ∃ t, a.triggers.find? reference.name = some t ∧ normalizeSql t.sql = normalizeSql reference.sql

/-- Any trigger with the reference's statement stops its table's rows from being deleted. -/
def stops (a : Archive) (reference : Trigger) : Bool :=
  a.triggers.rows.any fun t => t.Matches reference

end Archive
end Fala
