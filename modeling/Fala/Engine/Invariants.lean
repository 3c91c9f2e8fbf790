import Fala.Engine.Calls
import Fala.Journal.Invariants

/-! What the operations beside the journal's leave alone. -/

namespace Fala
open Durable Program Journal

variable {I : Database → Prop}

namespace Runs

variable (beside : Alongside I)
include beside

theorem transition_keeps (t : LifecycleTransition)
    (moves : (RunStatus.ofValue t.target).isKnown = true →
      ∀ guard, (updateRun t.runId guard t.update).Keeps I) : (transition t).Keeps I := by
  refine .bind (.require _ _) fun _ => .bind (.ofReadOnly (findRun_reads _)) fun _ =>
    .bind (.fetch _) fun found => ?_
  cases found with
  | some prior =>
    exact .bind (.require _ _) fun _ => .bind (.fetch _) fun _ => .bind (.require _ _) fun _ =>
      .pure _
  | none =>
    exact .checked fun known => .bind (.require _ _) fun _ =>
      .bind (.transact (.bind (beside.insertCommand _) fun _ =>
      .bind (moves (of_decide_eq_true known).2 _) fun _ => .bind (.require _ _) fun _ => .bind (.fetch _) fun _ => beside.insertEvent _))
      fun _ => .ofReadOnly (findRun_reads _)

theorem createResult_keeps (c : LifecycleCreation)
    (inserts : c.runId ≠ "" → (RunStatus.ofValue c.status).isKnown = true → (insertRun c.row).Keeps I) :
    (createResult c).Keeps I := by
  refine .checked fun named => .checked fun known =>
    .bind (.transact (.bind (.fetch _) fun found => ?_)) fun _ => .bind (.fetch _) fun read => ?_
  · cases found with
    | some _ => exact .pure _
    | none =>
      exact .bind (.fetch _) fun _ => .bind (.require _ _) fun _ => .bind (inserts (of_decide_eq_true named).1 known)
        fun _ => .bind (beside.insertCommand _) fun _ => .bind (beside.insertEvent _) fun _ =>
        .pure _
  · obtain ⟨run, command⟩ := read
    cases run with
    | none => exact .raise _
    | some stored =>
      refine .bind (.require _ _) fun _ => ?_
      cases command with
      | none => exact .raise _
      | some command => exact .pure _

end Runs

namespace Domain

variable {ρ : Type} {key : ρ → String × String} {table : SideTable key}

theorem requireStoreRun_keeps (runId : String) : (requireStoreRun runId).Keeps I :=
  .bind (.require _ _) fun _ => .bind (.fetch _) fun _ => .require _ _

theorem getRow_keeps (table : SideTable key) (missing runId id : String) :
    (getRow table missing runId id).Keeps I := by
  refine .bind (requireStoreRun_keeps _) fun _ => .bind (.fetch _) fun found => ?_
  cases found with
  | some row => exact .pure _
  | none => exact .raise _

theorem replayRow_keeps (table : SideTable key) (missing conflict : String) (same : ρ → Bool)
    (runId id : String) : (replayRow table missing conflict same runId id).Keeps I :=
  .bind (getRow_keeps _ _ _ _) fun _ => .require _ _

theorem insertNew_keeps {row : ρ} (inserts : (table.insert row).Keeps I)
    (taken runId id : String) : (insertNew table taken runId id row).Keeps I :=
  .bind (.fetch _) fun _ => .bind (.require _ _) fun _ => inserts

theorem putUpsert_keeps (hidden : table.Hidden I) (valid : Bool)
    (invalid failed runId : String) (row : ρ) :
    (putUpsert table valid invalid failed runId row).Keeps I :=
  .bind (.require _ _) fun _ => .bind (requireStoreRun_keeps _) fun _ =>
    .transact (SideTable.upsert_keeps hidden row)

theorem putOnce_keeps [DecidableEq ρ] {row : ρ} (inserts : (table.insert row).Keeps I)
    (conflict failed runId id : String) :
    (putOnce table conflict failed runId id row).Keeps I := by
  refine .bind (.fetch _) fun found => ?_
  cases found with
  | some existing => exact .require _ _
  | none => exact .transact inserts

section
variable (beside : Alongside I)
include beside

theorem appendDomainEvent_keeps (command : CommandRow) (item : EventInput) :
    (appendDomainEvent command item).Keeps I := by
  refine .bind (.require _ _) fun _ => .bind (.fetch _) fun found => ?_
  cases found with
  | some prior => exact .bind (.require _ _) fun _ => .pure _
  | none => exact .bind (.fetch _) fun _ => .bind (beside.insertEvent _) fun _ => .pure _

theorem appendDomainEvents_keeps (command : CommandRow) (items : List EventInput) :
    (appendDomainEvents command items).Keeps I := by
  induction items with
  | nil => exact .pure _
  | cons item rest ih =>
    exact .bind (appendDomainEvent_keeps beside _ _) fun _ => .bind ih fun _ => .pure _

theorem submitDomain_keeps (c : CommandAppend) (events : List EventInput)
    {write replay : Sql Unit} (writes : write.Keeps I) (replays : replay.Keeps I) :
    (submitDomain c events write replay).Keeps I := by
  refine .bind (requireStoreRun_keeps _) fun _ => .bind (.require _ _) fun _ =>
    .bind (.transact (.bind (.fetch _) fun found => ?_)) fun _ =>
    .ite (.bind replays fun _ => .pure _) (.pure _)
  cases found with
  | some prior => exact .bind (.require _ _) fun _ => .pure _
  | none =>
    exact .bind (.fetch _) fun _ => .bind (.require _ _) fun _ => .bind (beside.insertCommand _)
      fun _ => .bind writes fun _ => .bind (appendDomainEvents_keeps beside _ _) fun _ => .pure _

theorem acceptImpulse_keeps (hidden : impulses.Hidden I) (a : ImpulseAcceptance) :
    (acceptImpulse a).Keeps I := by
  refine .bind (.require _ _) fun _ => .bind (requireStoreRun_keeps _) fun _ =>
    .bind (.transact (.bind (.fetch _) fun found => ?_)) fun _ =>
    .ite (.pure _) (.bind (.fetch _) fun event => ?_)
  · cases found with
    | some stored =>
      refine .bind (.require _ _) fun _ => .bind (.fetch _) fun prior => ?_
      cases prior with
      | none => exact .raise _
      | some prior =>
        refine .bind (.require _ _) fun _ => .bind (.fetch _) fun event => ?_
        cases event with
        | none => exact .raise _
        | some event => exact .bind (.require _ _) fun _ => .pure _
    | none =>
      exact .bind (.fetch _) fun _ => .bind (.require _ _) fun _ => .bind (.fetch _) fun _ =>
        .bind (.require _ _) fun _ => .bind (beside.insertCommand _) fun _ =>
        .bind (SideTable.insert_keeps hidden _) fun _ => .bind (.fetch _) fun _ =>
        .bind (beside.insertEvent _) fun _ => .pure _
  · cases event with
    | none => exact .raise _
    | some event => exact .pure _

end
end Domain

namespace Bridge
open Domain

variable {table : BridgeTable}

theorem getBridge_keeps (table : BridgeTable) (runId deliveryId : String) :
    (getBridge table runId deliveryId).Keeps I := getRow_keeps _ _ _ _

theorem upsertBridgeRow_keeps (hidden : table.table.Hidden I) (row : BridgeDelivery) :
    (upsertBridgeRow table row).Keeps I := by
  refine .bind (.ofExcept _) fun _ => .bind (.require _ _) fun _ =>
    .bind (.transact (.bind (.fetch _) fun found => ?_)) fun _ => getBridge_keeps _ _ _
  cases found with
  | some prior =>
    exact .bind (.require _ _) fun _ => .bind (.ofExcept _) fun _ => .bind (.require _ _) fun _ =>
      .bind (.ofExcept _) fun _ => .bind (.require _ _) fun _ => .bind (.require _ _) fun _ =>
      .ite (.bind (SideTable.update_keeps hidden _ _ _ _ _) fun _ => .pure _) (.pure _)
  | none => exact .bind (SideTable.insert_keeps hidden _) fun _ => .pure _

theorem putDelivery_keeps (hidden : table.table.Hidden I) (row : BridgeDelivery) :
    (putDelivery table row).Keeps I :=
  .bind (.require _ _) fun _ => .bind (.ofExcept _) fun _ => .bind (requireStoreRun_keeps _)
    fun _ => upsertBridgeRow_keeps hidden row

section
variable (beside : Alongside I)
include beside

theorem recordBridgeJournal_keeps (r : BridgeRecord) : (recordBridgeJournal r).Keeps I := by
  refine .bind (.require _ _) fun _ => .bind (.bind (.fetch _) fun found => ?_) fun _ =>
    .bind (.fetch _) fun event => ?_
  · cases found with
    | some stored =>
      exact .bind (.require _ _) fun _ => .bind (.ofExcept _) fun _ => .bind (.require _ _)
        fun _ => .pure _
    | none => exact .bind (beside.insertCommand _) fun _ => .pure _
  · cases event with
    | some prior =>
      exact .bind (.require _ _) fun _ => .bind (.ofExcept _) fun _ => .require _ _
    | none => exact .bind (.fetch _) fun _ => beside.insertEvent _

theorem recordKeyed_keeps (r : BridgeRecord) : (recordKeyed r).Keeps I :=
  .ite (recordBridgeJournal_keeps beside r) (.pure _)

omit beside in
theorem insertMissing_keeps (hidden : impulses.Hidden I) (impulse : Impulse) (stored : Bool) :
    (insertMissing impulse stored).Keeps I :=
  .ite (.pure _) (SideTable.insert_keeps hidden impulse)

omit beside in
theorem impulseStored_keeps (impulse : Impulse) (conflict : String) :
    (impulseStored impulse conflict).Keeps I := by
  refine .bind (.fetch _) fun found => ?_
  cases found with
  | some existing => exact .bind (.require _ _) fun _ => .pure _
  | none => exact .pure _

theorem enqueueBridgeDelivery_keeps (hidden : impulses.Hidden I)
    (outbox : bridgeOutbox.Hidden I) (e : BridgeEnqueue) :
    (enqueueBridgeDelivery e).Keeps I := by
  refine .bind (.require _ _) fun _ => .bind (.require _ _) fun _ => .bind (.ofExcept _) fun _ =>
    .bind (requireStoreRun_keeps _) fun _ => .bind (.require _ _) fun _ => .bind (.ofExcept _)
    fun _ => .bind (.ofExcept _) fun _ => .bind (.ofExcept _) fun _ =>
    .bind (.transact (.bind (.fetch _) fun found => ?_)) fun _ =>
    .bind (getBridge_keeps _ _ _) fun _ => .pure _
  cases found with
  | some stored =>
    exact .bind (.ofExcept _) fun _ => .bind (.require _ _) fun _ => .bind (.require _ _) fun _ =>
      .bind (getBridge_keeps _ _ _) fun _ => .pure _
  | none =>
    exact .bind (.fetch _) fun _ => .bind (.require _ _) fun _ => .bind (impulseStored_keeps _ _)
      fun _ => .bind (SideTable.insert_keeps outbox _) fun _ =>
      .bind (insertMissing_keeps hidden _ _) fun _ => .bind (beside.insertCommand _) fun _ =>
      .bind (appendDomainEvent_keeps beside _ _) fun _ => .pure _

theorem importWrites_keeps (hidden : impulses.Hidden I) (inbox : bridgeInbox.Hidden I)
    (row : BridgeDelivery) (impulse : Impulse) (existing : Option BridgeDelivery) :
    (importWrites row impulse existing).Keeps I := by
  refine .bind (.ofExcept _) fun _ => ?_
  cases row.budget.consumeDelivery with
  | none => exact .raise _
  | some budget =>
    refine .bind ?_ fun _ => .bind (.fetch _) fun _ => .bind (insertMissing_keeps hidden _ _)
      fun _ => recordBridgeJournal_keeps beside _
    cases existing with
    | some prior => exact .bind (SideTable.update_keeps inbox _ _ _ _ _) fun _ => .require _ _
    | none => exact SideTable.insert_keeps inbox _

theorem importInboxDelivery_keeps (hidden : impulses.Hidden I)
    (inbox : bridgeInbox.Hidden I) (row : BridgeDelivery) :
    (importInboxDelivery row).Keeps I := by
  refine .bind (.require _ _) fun _ => .bind (.ofExcept _) fun _ => .bind (requireStoreRun_keeps _)
    fun _ => .bind (.ofExcept _) fun _ => .bind (.transact (.bind (impulseStored_keeps _ _)
    fun _ => .bind (.fetch _) fun existing => ?_)) fun _ => getBridge_keeps _ _ _
  cases existing with
  | none => exact importWrites_keeps beside hidden inbox _ _ _
  | some prior =>
    exact .bind (.ofExcept _) fun _ => .bind (.require _ _) fun _ =>
      .ite (.bind (.ofExcept _) fun _ => .require _ _)
        (.bind (.require _ _) fun _ => importWrites_keeps beside hidden inbox _ _ _)

theorem transitionBridgeDelivery_keeps (c : DeliveryCall) (hidden : c.table.table.Hidden I)
    (toStatus : String) : (transitionBridgeDelivery c toStatus).Keeps I :=
  .bind (.require _ _) fun _ => .bind (.require _ _) fun _ => .bind (getBridge_keeps _ _ _)
    fun _ => .bind (.require _ _) fun _ => .ite (.pure _) (.bind (.transact (.bind
      (.ite (.bind (SideTable.update_keeps hidden _ _ _ _ _) fun _ => .require _ _) (.pure _))
      fun _ => recordKeyed_keeps beside _)) fun _ => getBridge_keeps _ _ _)

omit beside in
theorem replayedDelivery_keeps (c : DeliveryCall) (commandType : String) (expected : Text) :
    (replayedDelivery c commandType expected).Keeps I := by
  refine .ite (.bind (.fetch _) fun found => ?_) (.pure _)
  cases found with
  | some prior =>
    exact .bind (.require _ _) fun _ => .bind (.ofExcept _) fun _ => .bind (.require _ _) fun _ =>
      .pure _
  | none => exact .pure _

theorem deliverBridgeDelivery_keeps (c : DeliveryCall) (hidden : c.table.table.Hidden I) :
    (deliverBridgeDelivery c).Keeps I := by
  refine .bind (.require _ _) fun _ => .bind (getBridge_keeps _ _ _) fun current =>
    .bind (.require _ _) fun _ => .bind (replayedDelivery_keeps _ _ _) fun _ =>
    .ite (.pure _) (.bind (.ofExcept _) fun _ => ?_)
  cases current.budget.consumeDelivery with
  | none => exact .raise _
  | some budget =>
    exact .bind (.transact (.bind (SideTable.update_keeps hidden _ _ _ _ _) fun _ =>
      .bind (.require _ _) fun _ => recordKeyed_keeps beside _)) fun _ => getBridge_keeps _ _ _

theorem retryBridgeDelivery_keeps (c : DeliveryCall) (hidden : c.table.table.Hidden I) :
    (retryBridgeDelivery c).Keeps I :=
  .bind (.require _ _) fun _ => .bind (getBridge_keeps _ _ _) fun _ => .bind (.require _ _)
    fun _ => .bind (replayedDelivery_keeps _ _ _) fun _ => .ite (.pure _) (.bind (.ofExcept _)
      fun _ => .bind (.transact (.bind (SideTable.update_keeps hidden _ _ _ _ _) fun _ =>
        .bind (.require _ _) fun _ => recordKeyed_keeps beside _)) fun _ => getBridge_keeps _ _ _)

end
end Bridge

section
variable (beside : Alongside I)
include beside

theorem LifecycleCall.program_keeps
    (inserts : ∀ c : Runs.LifecycleCreation, c.runId ≠ "" → (RunStatus.ofValue c.status).isKnown = true →
      (insertRun c.row).Keeps I)
    (moves : ∀ t : Runs.LifecycleTransition, (RunStatus.ofValue t.target).isKnown = true →
      ∀ guard, (updateRun t.runId guard t.update).Keeps I)
    (call : LifecycleCall) : call.program.Keeps I := by
  cases call with
  | createResult c => exact (Runs.createResult_keeps beside c (inserts c)).void
  | transition t => exact (Runs.transition_keeps beside t (moves t)).void

theorem BridgeCall.program_keeps (hidden : impulses.Hidden I) (outbox : bridgeOutbox.Hidden I)
    (inbox : bridgeInbox.Hidden I) (call : BridgeCall) : call.program.Keeps I := by
  have side (table : Bridge.BridgeTable) : table.table.Hidden I := by
    cases table with
    | outbox => exact outbox
    | inbox => exact inbox
  cases call with
  | enqueueBridgeDelivery e =>
    exact (Bridge.enqueueBridgeDelivery_keeps beside hidden outbox e).void
  | importInboxDelivery row => exact (Bridge.importInboxDelivery_keeps beside hidden inbox row).void
  | importBridgeDelivery row idempotencyKey =>
    exact Keeps.void (.bind (.require _ _) fun _ => .bind (.require _ _) fun _ =>
      Bridge.importInboxDelivery_keeps beside hidden inbox _)
  | transitionBridgeDelivery c toStatus =>
    exact (Bridge.transitionBridgeDelivery_keeps beside c (side _) toStatus).void
  | claimBridgeDelivery c =>
    exact (Bridge.transitionBridgeDelivery_keeps beside c (side _) "pending").void
  | deliverBridgeDelivery c => exact (Bridge.deliverBridgeDelivery_keeps beside c (side _)).void
  | retryBridgeDelivery c => exact (Bridge.retryBridgeDelivery_keeps beside c (side _)).void
  | putDelivery table row => exact (Bridge.putDelivery_keeps (side _) row).void

end
/-- An invariant does not read the tables of the domain store but the homeostats. -/
structure Domain.Unread (I : Database → Prop) : Prop where
  impulses : impulses.Hidden I
  impulseTypes : impulseTypes.Hidden I
  impulseRelations : impulseRelations.Hidden I
  associations : associations.Hidden I
  reactions : reactions.Hidden I
  projections : projections.Hidden I

section
open Domain

theorem StoreCall.program_keeps (beside : Alongside I) (unread : Unread I)
    (inserts : ∀ row, (homeostats.insert row).Keeps I) (call : StoreCall)
    (closes : ∀ row c createdAt, call = .transitionHomeostat row c → (closeStatements row createdAt).Keeps I) :
    call.program.Keeps I := by
  cases call with
  | registerImpulseType row c =>
    exact Keeps.void (.bind (.require _ _) fun _ => .bind (.require _ _) fun _ =>
      submitDomain_keeps beside _ _ (SideTable.insert_keeps unread.impulseTypes row)
        (replayRow_keeps _ _ _ _ _ _))
  | recordImpulseRelation row c =>
    exact Keeps.void (.bind (.require _ _) fun _ => .bind (.require _ _) fun _ =>
      submitDomain_keeps beside _ _
        (insertNew_keeps (SideTable.insert_keeps unread.impulseRelations row) _ _ _)
        (replayRow_keeps _ _ _ _ _ _))
  | recordAssociation row c =>
    exact Keeps.void (.bind (.require _ _) fun _ => .bind (.require _ _) fun _ =>
      submitDomain_keeps beside _ _
        (insertNew_keeps (SideTable.insert_keeps unread.associations row) _ _ _)
        (replayRow_keeps _ _ _ _ _ _))
  | recordReaction row c =>
    exact Keeps.void (.bind (.require _ _) fun _ => .bind (.require _ _) fun _ =>
      .bind (.ofExcept _) fun _ => .bind (.ofExcept _) fun _ => submitDomain_keeps beside _ _
        (insertNew_keeps (SideTable.insert_keeps unread.reactions _) _ _ _)
        (replayRow_keeps _ _ _ _ _ _))
  | saveHomeostat row c =>
    exact Keeps.void (.bind (.require _ _) fun _ => .bind (.require _ _) fun _ =>
      submitDomain_keeps beside _ _ (insertNew_keeps (inserts row) _ _ _)
        (replayRow_keeps _ _ _ _ _ _))
  | transitionHomeostat row c =>
    exact Keeps.void (.bind (.require _ _) fun _ => .bind (.require _ _) fun _ =>
      .bind (.require _ _) fun _ => .bind (submitDomain_keeps beside _ _
        (closes row c _ rfl) (.pure _)) fun _ =>
      .bind (getRow_keeps _ _ _ _) fun _ => .pure _)
  | saveProjection row stale c =>
    exact Keeps.void (.bind (.require _ _) fun _ => .bind (.require _ _) fun _ =>
      submitDomain_keeps beside _ _ (SideTable.upsert_keeps unread.projections row)
        (replayRow_keeps _ _ _ _ _ _))
  | acceptImpulse a => exact (acceptImpulse_keeps beside unread.impulses a).void
  | putReaction row =>
    exact .bind (.require _ _) fun _ => .bind (.ofExcept _) fun _ =>
      .bind (requireStoreRun_keeps _) fun _ => .bind (.ofExcept _) fun _ =>
      putOnce_keeps (SideTable.insert_keeps unread.reactions _) _ _ _ _
  | putHomeostat row =>
    exact .bind (.require _ _) fun _ => .bind (requireStoreRun_keeps _) fun _ =>
      putOnce_keeps (inserts row) _ _ _ _
  | putImpulse row => exact putUpsert_keeps unread.impulses _ _ _ _ row
  | putImpulseType row => exact putUpsert_keeps unread.impulseTypes _ _ _ _ row
  | putImpulseRelation row => exact putUpsert_keeps unread.impulseRelations _ _ _ _ row
  | putAssociation row => exact putUpsert_keeps unread.associations _ _ _ _ row
  | putProjection row => exact putUpsert_keeps unread.projections _ _ _ _ row

end

end Fala
