import Fala.Journal.Calls
import Fala.Store.SideTable

/-! The operations of the journal leave the tables alone that they do not write. -/

namespace Fala.Journal
open Durable Program

variable {I : Database → Prop}

section
variable (beside : Alongside I)
include beside

theorem appendEventInTx_keeps (runId commandId : String) (event : EventInput) :
    (appendEventInTx runId commandId event).Keeps I := by
  refine .bind (.require _ _) fun _ => .bind (.require _ _) fun _ => .bind (.fetch _) fun found => ?_
  cases found with
  | some existing => exact .bind (.require _ _) fun _ => .pure _
  | none => exact .bind (.fetch _) fun _ => .bind (beside.insertEvent _) fun _ => .query _

theorem appendEvents_keeps (runId : String) (command : CommandRow) (events : List EventInput) :
    (appendEvents runId command events).Keeps I := by
  induction events with
  | nil => exact .pure _
  | cons event rest ih =>
    exact .bind (appendEventInTx_keeps beside _ _ _) fun _ => .bind ih fun _ => .pure _

theorem createRun_keeps (r : RunCreation) (inserts : r.runId ≠ "" → (insertRun r.row).Keeps I) :
    (createRun r).Keeps I := by
  refine .checked fun named => .bind (.require _ _) fun _ =>
    .bind (.transact (.bind (.fetch _) fun found => ?_)) fun _ => .query _
  cases found with
  | some existing =>
    exact .bind (.require _ _) fun _ => .bind (.fetch _) fun _ => .bind (.require _ _) fun _ =>
      .bind (.fetch _) fun _ => .require _ _
  | none =>
    exact .bind (inserts (of_decide_eq_true named).1) fun _ => .bind (beside.insertCommand _) fun _ =>
      beside.insertEvent _

theorem scheduleProcess_keeps (s : ProcessSchedule) : (scheduleProcess s).Keeps I := by
  refine .bind (.ofReadOnly (requireRun_reads _)) fun _ => .bind (.require _ _) fun _ =>
    .bind (.transact (.bind (.fetch _) fun found => ?_)) fun _ => .ofReadOnly (getProcess_reads _ _)
  cases found with
  | some prior => exact .bind (.require _ _) fun _ => .pure _
  | none =>
    refine .bind (.ofExcept _) fun _ => .bind (.ofExcept _) fun _ => .bind (.ofExcept _) fun _ =>
      .bind (.fetch _) fun existing => ?_
    cases existing with
    | some existing => exact .bind (.require _ _) fun _ => .raise _
    | none =>
      exact .bind (beside.insertProcess _) fun _ => .bind (beside.insertCommand _) fun _ =>
        .bind (appendEventInTx_keeps beside _ _ _) fun _ => .pure _

theorem scheduleProcessWithCommand_keeps (process : ProcessRow) (command : CommandRow)
    (events : List EventInput) : (scheduleProcessWithCommand process command events).Keeps I := by
  refine .bind (.require _ _) fun _ => .bind (.require _ _) fun _ => .bind (.require _ _) fun _ =>
    .transact (.bind (.fetch _) fun found => ?_)
  cases found with
  | some stored => exact .pure _
  | none =>
    exact .bind (.ofReadOnly (requireRun_reads _)) fun _ => .bind (.require _ _) fun _ =>
      .bind (.require _ _) fun _ => .bind (.ofExcept _) fun _ => .bind (.ofExcept _) fun _ =>
      .bind (.ofExcept _) fun _ => .bind (.fetch _) fun _ => .bind (.require _ _) fun _ =>
      .bind (beside.insertProcess _) fun _ => .bind (beside.insertCommand _) fun _ =>
      .bind (appendEvents_keeps beside _ _ _) fun _ => .pure _

theorem claimRow_keeps (runId processId : String) (c : ClaimRequest) :
    (claimRow runId processId c).Keeps I :=
  .bind (beside.updateProcess _ _ _ _ _) fun _ => .bind (.require _ _) fun _ =>
    .bind (.ofReadOnly (getProcess_reads _ _)) fun _ => .bind (beside.insertCommand _) fun _ =>
    .bind (appendEventInTx_keeps beside _ _ _) fun _ => .pure _

omit beside in
theorem priorClaim_keeps (runId key : String) : (priorClaim runId key).Keeps I :=
  .ite (.fetch _) (.pure _)

theorem claimProcess_keeps (runId processId : String) (c : ClaimRequest) :
    (claimProcess runId processId c).Keeps I := by
  refine .bind (.require _ _) fun _ => .bind (.require _ _) fun _ => .bind (.require _ _) fun _ =>
    .bind (.require _ _) fun _ => .bind (.require _ _) fun _ =>
    .transact (.bind (priorClaim_keeps _ _) fun found => ?_)
  cases found with
  | some prior =>
    exact .bind (.require _ _) fun _ => .bind (.require _ _) fun _ =>
      .ofReadOnly (getProcess_reads _ _)
  | none => exact claimRow_keeps beside _ _ _

theorem expireRows_keeps (workerId now : String) (rows : List ProcessRow) :
    (expireRows workerId now rows).Keeps I := by
  induction rows with
  | nil => exact .pure _
  | cons row rest ih =>
    refine .bind (.bind (.require _ _) fun _ => .bind (beside.updateProcess _ _ _ _ _) fun _ =>
      .ite (.bind (beside.insertCommand _) fun _ => ?_) (.pure _)) fun _ => ih
    exact .bind (appendEventInTx_keeps beside _ _ _) fun _ => .pure _

theorem claimNextReady_keeps (runId : String) (allRuns : Bool) (c : ClaimRequest) :
    (claimNextReady runId allRuns c).Keeps I := by
  refine .bind (.require _ _) fun _ => .bind (.ite (.ofReadOnly (requireRun_reads _)) (.pure _))
    fun _ => .bind (.require _ _) fun _ => .bind (.require _ _) fun _ =>
    .transact (.bind (priorClaim_keeps _ _) fun found => ?_)
  cases found with
  | some prior =>
    exact .bind (.require _ _) fun _ => .bind (.require _ _) fun _ =>
      .bind (.ofReadOnly (getProcess_reads _ _)) fun _ => .pure _
  | none =>
    refine .bind (.fetch _) fun _ => .bind (expireRows_keeps beside _ _ _) fun _ =>
      .bind (.fetch _) fun next => ?_
    cases next with
    | none => exact .pure _
    | some selected => exact .bind (claimRow_keeps beside _ _ _) fun _ => .pure _

theorem transitionProcess_keeps (t : ProcessTransition) : (transitionProcess t).Keeps I := by
  refine .bind (.require _ _) fun _ => .bind (.require _ _) fun _ =>
    .bind (.ofReadOnly (requireRun_reads _)) fun _ => .bind (.ofReadOnly (getProcess_reads _ _))
    fun _ => .bind (.require _ _) fun _ => .bind (.ofExcept _) fun _ => .bind (.ofExcept _) fun _ =>
    .bind (.fetch _) fun found => ?_
  cases found with
  | some prior =>
    exact .bind (.ofExcept _) fun _ => .bind (.require _ _) fun _ =>
      .ofReadOnly (getProcess_reads _ _)
  | none =>
    exact .bind (.require _ _) fun _ => .bind (.require _ _) fun _ => .bind (.require _ _) fun _ =>
      .bind (.require _ _) fun _ => .bind (.transact (.bind (.ofReadOnly (getProcess_reads _ _))
      fun _ => .bind (.require _ _) fun _ => .bind (beside.updateProcess _ _ _ _ _) fun _ =>
      .bind (.require _ _) fun _ => .bind (beside.insertCommand _) fun _ =>
      .bind (appendEventInTx_keeps beside _ _ _) fun _ => .pure _)) fun _ =>
      .ofReadOnly (getProcess_reads _ _)

theorem TransitionCall.program_keeps (digest : Json → String) (call : TransitionCall) :
    (call.program digest).Keeps I := by
  cases call with
  | completeProcess =>
    exact .bind (.ofReadOnly (requireRun_reads _)) fun _ =>
      .bind (.ofReadOnly (getProcess_reads _ _)) fun _ => .bind (.ofExcept _) fun _ =>
      transitionProcess_keeps beside _
  | _ => exact transitionProcess_keeps beside _

theorem transitionProcessWithCommand_keeps (t : CommandTransition) :
    (transitionProcessWithCommand t).Keeps I := by
  refine .bind (.require _ _) fun _ => .bind (.require _ _) fun _ => .bind (.require _ _) fun _ =>
    .bind (.transact (.bind (.fetch _) fun found => ?_)) fun _ =>
    .bind (.ofReadOnly (getProcess_reads _ _)) fun _ => .pure _
  cases found with
  | some stored =>
    exact .bind (.ofExcept _) fun _ => .bind (.ofExcept _) fun _ => .bind (.require _ _) fun _ =>
      .bind (.ofReadOnly (getProcess_reads _ _)) fun _ => .pure _
  | none =>
    exact .bind (.ofReadOnly (requireRun_reads _)) fun _ =>
      .bind (.ofReadOnly (getProcess_reads _ _)) fun _ => .bind (.require _ _) fun _ =>
      .bind (.require _ _) fun _ => .bind (.ofExcept _) fun _ => .bind (.ofExcept _) fun _ =>
      .bind (.ofExcept _) fun _ => .bind (.ofExcept _) fun _ => .bind (beside.insertCommand _)
      fun _ => .bind (beside.updateProcess _ _ _ _ _) fun _ => .bind (.require _ _) fun _ =>
      .bind (appendEvents_keeps beside _ _ _) fun _ => .pure _

theorem advanceCorrelationReady_keeps (runId processId : String) (inputJson : Text) :
    (advanceCorrelationReady runId processId inputJson).Keeps I :=
  .bind (.ofReadOnly (getProcess_reads _ _)) fun _ =>
    .bind (transitionProcessWithCommand_keeps beside _) fun _ => .ofReadOnly (getProcess_reads _ _)

theorem applyChild_keeps (c : ChildrenCall) (child : CorrelationChildTransition) :
    (applyChild c child).Keeps I := by
  refine .bind (.require _ _) fun _ => .bind (.require _ _) fun _ =>
    .bind (.ofReadOnly (getProcess_reads _ _)) fun _ => .bind (.fetch _) fun found => ?_
  cases found with
  | some existing => exact .bind (.require _ _) fun _ => .pure _
  | none =>
    exact .bind (.require _ _) fun _ => .bind (beside.updateProcess _ _ _ _ _) fun _ =>
      .bind (.require _ _) fun _ => .bind (beside.insertCommand _) fun _ =>
      .bind (appendEventInTx_keeps beside _ _ _) fun _ => .ofReadOnly (getProcess_reads _ _)

theorem applyChildren_keeps (c : ChildrenCall) (children : List CorrelationChildTransition) :
    (applyChildren c children).Keeps I := by
  induction children with
  | nil => exact .pure _
  | cons child rest ih =>
    exact .bind (applyChild_keeps beside _ _) fun _ => .bind ih fun _ => .pure _

theorem applyCorrelationChildren_keeps (c : ChildrenCall)
    (children : List CorrelationChildTransition) :
    (applyCorrelationChildren c children).Keeps I :=
  .bind (.ofReadOnly (requireRun_reads _)) fun _ => .bind (.require _ _) fun _ =>
    .transact (applyChildren_keeps beside _ _)

theorem appendCommand_keeps (c : CommandAppend) : (appendCommand c).Keeps I := by
  refine .bind (.ofReadOnly (requireRun_reads _)) fun _ => .bind (.require _ _) fun _ =>
    .transact (.bind (.fetch _) fun found => ?_)
  cases found with
  | some stored => exact .bind (.require _ _) fun _ => .pure _
  | none => exact .bind (beside.insertCommand _) fun _ => .pure _

theorem submitCommand_keeps (c : CommandAppend) (events : List EventInput) :
    (submitCommand c events).Keeps I := by
  refine .transact (.bind (.fetch _) fun found => ?_)
  cases found with
  | some stored => exact .pure _
  | none =>
    exact .bind (.require _ _) fun _ => .bind (.ofReadOnly (requireRun_reads _)) fun _ =>
      .bind (.require _ _) fun _ => .bind (.fetch _) fun _ => .bind (.require _ _) fun _ =>
      .bind (beside.insertCommand _) fun _ => .bind (appendEvents_keeps beside _ _ _) fun _ =>
      .pure _

theorem transitionRunStatus_keeps (t : RunTransition)
    (moves : ∀ source, canTransitionRun source (.ofValue t.target) = true →
      ∀ guard, (updateRun t.runId guard t.update).Keeps I) : (transitionRunStatus t).Keeps I := by
  refine .bind (.ofReadOnly (requireRun_reads _)) fun _ => .bind (.require _ _) fun _ =>
    .bind (.query _) fun _ => .bind (.fetch _) fun found => ?_
  cases found with
  | some prior => exact .bind (.require _ _) fun _ => .pure _
  | none =>
    exact .checked fun legal => .bind (.transact (.bind (beside.insertCommand _) fun _ =>
      .bind (moves _ legal _) fun _ => .bind (.require _ _) fun _ => .bind (.fetch _)
      fun _ => beside.insertEvent _)) fun _ => .bind (.query _) fun _ => .pure _

theorem RecordCall.program_keeps (moves : ∀ t : RunTransition, ∀ source,
      canTransitionRun source (.ofValue t.target) = true →
        ∀ guard, (updateRun t.runId guard t.update).Keeps I)
    (call : RecordCall) : call.program.Keeps I := by
  cases call with
  | appendCommand c => exact (appendCommand_keeps beside c).void
  | submitCommand c events => exact (submitCommand_keeps beside c events).void
  | recordViolation v =>
    exact Keeps.void (.bind (.require _ _) fun _ => submitCommand_keeps beside _ _)
  | appendEvent runId commandId event =>
    exact Keeps.void (.bind (.ofReadOnly (requireRun_reads _)) fun _ =>
      .transact (appendEventInTx_keeps beside _ _ _))
  | transitionRunStatus t => exact (transitionRunStatus_keeps beside t (moves t)).void
  | scheduleProcessWithCommand process command events =>
    exact (scheduleProcessWithCommand_keeps beside process command events).void
  | transitionProcessWithCommand t => exact (transitionProcessWithCommand_keeps beside t).void

end

end Fala.Journal
