import Fala.Bridge.Effects
import Fala.Durable.History
import Fala.Journal.Calls
import Fala.Journal.Consistency
import Fala.Runs.Lifecycle

/-! Every operation that writes the journal, and the histories of their calls. -/

namespace Fala
open Durable Program Journal

/-- The operations of the run lifecycle. -/
inductive LifecycleCall where
  | createResult (c : Runs.LifecycleCreation)
  | transition (t : Runs.LifecycleTransition)
  deriving DecidableEq

namespace LifecycleCall

def program : LifecycleCall → Sql Unit
  | createResult c => (Runs.createResult c).void
  | transition t => (Runs.transition t).void

def Makes : LifecycleCall → Write → Prop
  | createResult c => (· = .record c.runId [c.command] [(c.cid, c.event)])
  | transition t => (· = .record t.runId [t.command] [(t.cid, t.event)])

def Leaves : LifecycleCall → Database → Prop
  | createResult c => fun db => db.runs.find? c.runId = some c.row
  | transition t => fun db => (db.runs.find? t.runId).any fun r => r.status = t.target

theorem settles (call : LifecycleCall) {db : Database} (housed : EventsHoused db) :
    call.program.Settles db (Outcome False call.Makes call.Leaves db) := by
  cases call with
  | createResult c => exact (Runs.createResult_settles c housed).void.imp fun _ =>
      CommitsWith.outcome
  | transition t => exact (Runs.transition_settles t db).void.imp fun _ => CommitsWith.outcome

end LifecycleCall

section
open Domain

/-- The operations of the domain store. -/
inductive StoreCall where
  | registerImpulseType (row : ImpulseType) (c : DomainCall)
  | recordImpulseRelation (row : ImpulseRelation) (c : DomainCall)
  | recordAssociation (row : Association) (c : DomainCall)
  | recordReaction (row : Reaction) (c : DomainCall)
  | saveHomeostat (row : Homeostat) (c : DomainCall)
  | transitionHomeostat (row : Homeostat) (c : DomainCall)
  | saveProjection (row : Projection) (stale : Bool) (c : DomainCall)
  | acceptImpulse (a : ImpulseAcceptance)
  | putImpulse (row : Impulse)
  | putImpulseType (row : ImpulseType)
  | putImpulseRelation (row : ImpulseRelation)
  | putAssociation (row : Association)
  | putReaction (row : Reaction)
  | putHomeostat (row : Homeostat)
  | putProjection (row : Projection)
  deriving DecidableEq

namespace StoreCall

def program : StoreCall → Sql Unit
  | registerImpulseType row c => (Domain.registerImpulseType row c).void
  | recordImpulseRelation row c => (Domain.recordImpulseRelation row c).void
  | recordAssociation row c => (Domain.recordAssociation row c).void
  | recordReaction row c => (Domain.recordReaction row c).void
  | saveHomeostat row c => (Domain.saveHomeostat row c).void
  | transitionHomeostat row c => (Domain.transitionHomeostat row c).void
  | saveProjection row stale c => (Domain.saveProjection row stale c).void
  | acceptImpulse a => (Domain.acceptImpulse a).void
  | putImpulse row => Domain.putImpulse row
  | putImpulseType row => Domain.putImpulseType row
  | putImpulseRelation row => Domain.putImpulseRelation row
  | putAssociation row => Domain.putAssociation row
  | putReaction row => Domain.putReaction row
  | putHomeostat row => Domain.putHomeostat row
  | putProjection row => Domain.putProjection row

def Makes : StoreCall → Write → Prop
  | registerImpulseType row c => Submits (c.append row.runId row.toJson) c.events
  | recordImpulseRelation row c => Submits (c.append row.runId row.toJson) c.events
  | recordAssociation row c => Submits (c.append row.runId row.toJson) c.events
  | recordReaction row c => fun w =>
    ∃ events, Submits (c.append row.runId row.journalPayload) events w
  | saveHomeostat row c => Submits (c.append row.runId row.toJson) c.events
  | transitionHomeostat row c => Submits (c.append row.runId row.toJson) c.events
  | saveProjection row stale c => Submits (c.append row.runId (row.toJson stale)) c.events
  | acceptImpulse a =>
    (· = .record a.impulse.runId [a.command] [(a.idempotencyKey, a.event)])
  | _ => Unrecorded

/-- The row that a call stores. -/
def Leaves : StoreCall → Database → Prop
  | registerImpulseType row _ => Holds impulseTypes row
  | recordImpulseRelation row _ => Holds impulseRelations row
  | recordAssociation row _ => Holds associations row
  | recordReaction row _ => fun db => ∃ metadata, Holds reactions { row with metadata } db
  | saveHomeostat row _ => Holds homeostats row
  | transitionHomeostat row _ => HomeostatIs row.runId row.id row.status
  | saveProjection row _ _ => Holds projections row
  | acceptImpulse a => Holds impulses a.impulse
  | putImpulse row => Holds impulses row
  | putImpulseType row => Holds impulseTypes row
  | putImpulseRelation row => Holds impulseRelations row
  | putAssociation row => Holds associations row
  | putReaction row => fun db => ∃ metadata, Holds reactions { row with metadata } db
  | putHomeostat row => Holds homeostats row
  | putProjection row => Holds projections row

theorem settles (call : StoreCall) (db : Database) :
    call.program.Settles db (Outcome False call.Makes call.Leaves db) := by
  cases call with
  | registerImpulseType row c =>
    exact (registerImpulseType_settles row c db).void.imp fun _ => CommitsWith.outcome
  | recordImpulseRelation row c =>
    exact (recordImpulseRelation_settles row c db).void.imp fun _ => CommitsWith.outcome
  | recordAssociation row c =>
    exact (recordAssociation_settles row c db).void.imp fun _ => CommitsWith.outcome
  | recordReaction row c =>
    exact (recordReaction_settles row c db).void.imp fun _ => CommitsWith.outcome
  | saveHomeostat row c =>
    exact (saveHomeostat_settles row c db).void.imp fun _ => CommitsWith.outcome
  | transitionHomeostat row c =>
    exact (transitionHomeostat_settles row c db).void.imp fun _ => CommitsWith.outcome
  | saveProjection row stale c =>
    exact (saveProjection_settles row stale c db).void.imp fun _ => CommitsWith.outcome
  | acceptImpulse a => exact (acceptImpulse_settles a db).void.imp fun _ => CommitsWith.outcome
  | putImpulse row => exact (putUpsert_settles impulses _ _ _ _ row db).imp fun _ =>
      CommitsWith.outcome
  | putImpulseType row => exact (putUpsert_settles impulseTypes _ _ _ _ row db).imp fun _ =>
      CommitsWith.outcome
  | putImpulseRelation row =>
    exact (putUpsert_settles impulseRelations _ _ _ _ row db).imp fun _ => CommitsWith.outcome
  | putAssociation row => exact (putUpsert_settles associations _ _ _ _ row db).imp fun _ =>
      CommitsWith.outcome
  | putReaction row => exact (putReaction_settles row db).imp fun _ => CommitsWith.outcome
  | putHomeostat row => exact (putHomeostat_settles row db).imp fun _ => CommitsWith.outcome
  | putProjection row => exact (putUpsert_settles projections _ _ _ _ row db).imp fun _ =>
      CommitsWith.outcome

end StoreCall
end

section
open Bridge Domain

/-- The operations of the bridge. -/
inductive BridgeCall where
  | enqueueBridgeDelivery (e : BridgeEnqueue)
  | importInboxDelivery (row : BridgeDelivery)
  | importBridgeDelivery (row : BridgeDelivery) (idempotencyKey : String)
  | transitionBridgeDelivery (c : DeliveryCall) (toStatus : String)
  | claimBridgeDelivery (c : DeliveryCall)
  | deliverBridgeDelivery (c : DeliveryCall)
  | retryBridgeDelivery (c : DeliveryCall)
  | putDelivery (table : BridgeTable) (row : BridgeDelivery)
  deriving DecidableEq

namespace BridgeCall

def program : BridgeCall → Sql Unit
  | enqueueBridgeDelivery e => (Bridge.enqueueBridgeDelivery e).void
  | importInboxDelivery row => (Bridge.importInboxDelivery row).void
  | importBridgeDelivery row idempotencyKey =>
    (Bridge.importBridgeDelivery row idempotencyKey).void
  | transitionBridgeDelivery c toStatus => (Bridge.transitionBridgeDelivery c toStatus).void
  | claimBridgeDelivery c => (Bridge.claimBridgeDelivery c).void
  | deliverBridgeDelivery c => (Bridge.deliverBridgeDelivery c).void
  | retryBridgeDelivery c => (Bridge.retryBridgeDelivery c).void
  | putDelivery table row => (Bridge.putDelivery table row).void

/-- The writes of an operation on a stored delivery. -/
def Recorded (c : DeliveryCall) (operation status : String) (w : Write) : Prop :=
  ∃ attempts impulseId, (c.record operation status attempts impulseId).Stores w

/-- The delivery in its new status, recorded under the key of a call that gives one. -/
def Moved (c : DeliveryCall) (operation status : String) (db : Database) : Prop :=
  DeliveryIs c.table c.runId c.deliveryId status db ∧
    ∃ attempts impulseId, (c.record operation status attempts impulseId).Keyed db

/-- The inbox row of an import, its impulse and its record. -/
def Imported (row : BridgeDelivery) (db : Database) : Prop :=
  DeliveryIs .inbox row.runId row.id "imported" db ∧
    (db.impulses.find? (row.runId, row.impulse.id)).isSome = true ∧
    (importRecord row row.impulse.id).Present db

def Makes : BridgeCall → Write → Prop
  | enqueueBridgeDelivery e => e.Stores
  | importInboxDelivery row => (importRecord row row.impulse.id).Stores
  | importBridgeDelivery row idempotencyKey =>
    (importRecord (importedRow row idempotencyKey) row.impulse.id).Stores
  | transitionBridgeDelivery c toStatus => Recorded c toStatus toStatus
  | claimBridgeDelivery c => Recorded c "pending" "pending"
  | deliverBridgeDelivery c => Recorded c "delivered" "delivered"
  | retryBridgeDelivery c => Recorded c "retry" "pending"
  | putDelivery _ _ => Unrecorded

/-- The delivery that a call stores or moves. -/
def Leaves : BridgeCall → Database → Prop
  | enqueueBridgeDelivery e => fun db =>
    Holds bridgeOutbox e.delivery db ∧ Holds impulses e.delivery.impulse db
  | importInboxDelivery row => Imported row
  | importBridgeDelivery row idempotencyKey => Imported (importedRow row idempotencyKey)
  | transitionBridgeDelivery c toStatus => Moved c toStatus toStatus
  | claimBridgeDelivery c => Moved c "pending" "pending"
  | deliverBridgeDelivery c => Moved c "delivered" "delivered"
  | retryBridgeDelivery c => Moved c "retry" "pending"
  | putDelivery table row => DeliveryIs table row.runId row.id row.status

theorem settles (call : BridgeCall) (db : Database) :
    call.program.Settles db (Outcome False call.Makes call.Leaves db) := by
  cases call with
  | enqueueBridgeDelivery e =>
    exact (enqueueBridgeDelivery_settles e db).void.imp fun _ => CommitsWith.outcome
  | importInboxDelivery row =>
    exact (importInboxDelivery_settles row db).void.imp fun _ => CommitsWith.outcome
  | importBridgeDelivery row idempotencyKey =>
    exact Settles.void (.require fun _ => .require fun _ =>
      (importInboxDelivery_settles _ db).imp fun _ => CommitsWith.outcome)
  | transitionBridgeDelivery c toStatus =>
    exact (transitionBridgeDelivery_settles c toStatus db).void.imp fun _ => CommitsWith.outcome
  | claimBridgeDelivery c =>
    exact (transitionBridgeDelivery_settles c "pending" db).void.imp fun _ => CommitsWith.outcome
  | deliverBridgeDelivery c =>
    exact (deliverBridgeDelivery_settles c db).void.imp fun _ => CommitsWith.outcome
  | retryBridgeDelivery c =>
    exact (retryBridgeDelivery_settles c db).void.imp fun _ => CommitsWith.outcome
  | putDelivery table row =>
    exact (putDelivery_settles table row db).void.imp fun _ => CommitsWith.outcome

end BridgeCall
end

/-- One call of an operation on the journal. -/
inductive Call where
  | process (c : ProcessCall)
  | record (c : RecordCall)
  | lifecycle (c : LifecycleCall)
  | store (c : StoreCall)
  | bridge (c : BridgeCall)
  deriving DecidableEq

namespace Call

def program (digest : Json → String) : Call → Sql Unit
  | process c => c.program digest
  | record c => c.program
  | lifecycle c => c.program
  | store c => c.program
  | bridge c => c.program

/-- The writes that a call may commit. -/
def Makes : Call → Write → Prop
  | process c => c.Makes
  | record c => c.Makes
  | lifecycle c => c.Makes
  | store c => c.Makes
  | bridge c => c.Makes

/-- The row beside the process rows that goes with the writes of a call. -/
def Leaves : Call → Database → Prop
  | process c => c.Leaves
  | record c => c.Leaves
  | lifecycle c => c.Leaves
  | store c => c.Leaves
  | bridge c => c.Leaves

/-- The calls whose transaction may make several writes. -/
def Batch : Call → Prop
  | process c => c.Batch
  | _ => False

theorem Batch.leaves {call : Call} (batch : call.Batch) (db : Database) : call.Leaves db := by
  cases call with
  | process c => cases c <;> first | exact trivial | exact batch.elim
  | _ => exact batch.elim

theorem settles (digest : Json → String) (call : Call) {db : Database} (consistent : Consistent db) :
    (call.program digest).Settles db (Outcome call.Batch call.Makes call.Leaves db) := by
  cases call with
  | process c => exact c.settles digest consistent.housed consistent.manned'
  | record c => exact c.settles db
  | lifecycle c => exact c.settles consistent.housed
  | store c => exact c.settles db
  | bridge c => exact c.settles db

end Call

/-- The rows after a call whose statements fail where the faults say. -/
def step (digest : Json → String) (db : Database) (call : Call × Option Nat) : Database :=
  ((call.1.program digest).run ⟨db, call.2⟩).2.store

/-- The rows after a history of calls on an empty journal. -/
def after (digest : Json → String) (calls : List (Call × Option Nat)) : Database :=
  Durable.execute (step digest) .empty calls

theorem after_append (digest : Json → String) (calls : List (Call × Option Nat))
    (call : Call × Option Nat) :
    after digest (calls ++ [call]) = step digest (after digest calls) call :=
  execute_append (step digest) Database.empty calls [call]

theorem step_outcome (digest : Json → String) {db : Database} (consistent : Consistent db)
    (call : Call × Option Nat) :
    step digest db call = db ∨
      step digest db call = ((call.1.program digest).eval db).2 ∧
        Outcome call.1.Batch call.1.Makes call.1.Leaves db (step digest db call) :=
  call.1.settles digest consistent call.2

theorem step_does (digest : Json → String) {db : Database} (consistent : Consistent db)
    (call : Call × Option Nat) : Does call.1.Makes db (step digest db call) := by
  rcases step_outcome digest consistent call with same | ⟨-, outcome⟩
  · rw [same]
    exact .refl db
  · exact outcome.does

theorem step_consistent (digest : Json → String) {db : Database} (consistent : Consistent db)
    (call : Call × Option Nat) : Consistent (step digest db call) :=
  (step_does digest consistent call).induct consistent fun _ written => written.consistent

theorem after_consistent (digest : Json → String) (calls : List (Call × Option Nat)) :
    Consistent (after digest calls) :=
  execute_induction (I := Consistent) .empty
    (fun _ call consistent => step_consistent digest consistent call) calls

/-- The events of every run are numbered 1, 2, 3, … as they were inserted, each under an id
    of its own. -/
def LogOrdered (db : Database) : Prop :=
  ∀ runId,
    (streamRows EventRow.runId db.events.rows runId).map EventRow.sequence =
      List.range' 1 (streamRows EventRow.runId db.events.rows runId).length ∧
    ((streamRows EventRow.runId db.events.rows runId).map EventRow.id).Nodup

/-- Every stored command and event is kept, unchanged and in its place. -/
structure LogKept (db db' : Database) : Prop where
  commands : db.commands.rows <+: db'.commands.rows
  events : db.events.rows <+: db'.events.rows

/-- Commands, events and row changes are there together. -/
structure Committed (call : Call) (db db' : Database) : Prop where
  written : Does call.Makes db db'
  row : call.Leaves db'

theorem Journal.Consistent.logOrdered {db : Database} (consistent : Consistent db) : LogOrdered db := by
  intro runId
  refine ⟨consistent.numbered runId, List.Nodup.of_map (fun id => (runId, id)) ?_⟩
  have unique := db.events.uniqueDistinct.sublist
    ((List.filter_sublist (p := fun e : EventRow => e.runId = runId)).map EventRow.unique)
  have same : (streamRows EventRow.runId db.events.rows runId).map EventRow.unique =
      ((streamRows EventRow.runId db.events.rows runId).map EventRow.id).map (runId, ·) := by
    rw [List.map_map]
    refine List.map_congr_left fun e member => ?_
    have here : e.runId = runId := by simpa using (List.mem_filter.mp member).2
    simp [EventRow.unique, here]
  exact same ▸ unique

theorem step_logKept (digest : Json → String) {db : Database} (consistent : Consistent db)
    (call : Call × Option Nat) : LogKept db (step digest db call) := by
  obtain ⟨writes, -, done⟩ := step_does digest consistent call
  exact ⟨done.extends.1, done.extends.2⟩

/-- After every history, the log of each run is a gap-free order, and the next call keeps it and
    extends it by all of what it records or by nothing. -/
theorem event_log_atomic (digest : Json → String) (calls : List (Call × Option Nat)) :
    LogOrdered (after digest calls) ∧
      ∀ call, LogKept (after digest calls) (after digest (calls ++ [call])) ∧
        (after digest (calls ++ [call]) = after digest calls ∨
          (after digest (calls ++ [call]) =
              ((call.1.program digest).eval (after digest calls)).2 ∧
            Committed call.1 (after digest calls) (after digest (calls ++ [call])))) := by
  have consistent := after_consistent digest calls
  refine ⟨consistent.logOrdered, fun call => ?_⟩
  rw [after_append]
  refine ⟨step_logKept digest consistent call, ?_⟩
  rcases step_outcome digest consistent call with same | ⟨whole, outcome⟩
  · exact .inl same
  · rcases outcome with (same | ⟨w, makes, written, row⟩) | ⟨batch, writes⟩
    · exact .inl same
    · exact .inr ⟨whole, .one makes written, row⟩
    · exact .inr ⟨whole, writes, batch.leaves _⟩

end Fala
