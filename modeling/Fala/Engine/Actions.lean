import Fala.Engine.Calls
import Fala.Journal.Consistency
import Fala.Journal.RowInvariant

/-! Which calls move a process row, and by which action. -/

namespace Fala
open Durable Program Journal Bridge Domain

/-- The action of a call. -/
inductive ActsAs : Call → RowAction → Prop
  | claimProcess {runId processId : String} {c : ClaimRequest} :
      ActsAs (.process (.claimProcess runId processId c)) (.claim c)
  | claimNextReady {runId : String} {allRuns : Bool} {c : ClaimRequest} :
      ActsAs (.process (.claimNextReady runId allRuns c)) (.claim c)
  | expire {runId : String} {allRuns : Bool} {c : ClaimRequest} :
      ActsAs (.process (.claimNextReady runId allRuns c)) (.expire c.workerId c.now)
  | transition {t : TransitionCall} {output error : Text}
      (printed : t.transition.outputJson.canonical = some output) :
      ActsAs (.process (.transitionProcess t)) (.transition t.transition output error)
  | ready {runId processId : String} {inputJson output error : Text} {t : CommandTransition}
      (target : t.target = .ready) (silent : t.events = []) :
      ActsAs (.process (.advanceCorrelationReady runId processId inputJson))
        (.command t output error)
  | command {t : CommandTransition} {output error : Text}
      (printed : t.outputJson.canonical = some output) :
      ActsAs (.record (.transitionProcessWithCommand t)) (.command t output error)
  | park {p : HomeostatPark} {output metadata : Text} :
      ActsAs (.process (.parkHomeostatProcess p)) (.park p output metadata)
  | resolve {t : HomeostatTransition} {output error : Text} :
      ActsAs (.process (.transitionHomeostatProcess t)) (.resolve t output error)
  | reopen {r : HomeostatReopen} {homeostat : Homeostat} :
      ActsAs (.process (.reopenHomeostatProcess r)) (.reopen r homeostat)
  | promote {c : ChildrenCall} {children : List CorrelationChildTransition}
      {child : CorrelationChildTransition} :
      ActsAs (.process (.applyCorrelationChildren c children)) (.promote c child)

namespace Journal

theorem ProcessCall.makes_act {call : ProcessCall} {runId processId : String} {action : RowAction}
    (makes : call.Makes (.act runId processId action)) : ActsAs (.process call) action := by
  cases call with
  | createRun r => cases makes
  | scheduleProcess s => obtain ⟨-, _, _, _, -, same⟩ := makes; cases same
  | claimProcess => cases makes; exact .claimProcess
  | claimNextReady =>
    obtain ⟨_, _, -, same⟩ | ⟨_, _, -, same⟩ := makes <;> cases same
    · exact .expire
    · exact .claimNextReady
  | transitionProcess => obtain ⟨_, _, printed, -, same⟩ := makes; cases same; exact .transition printed
  | advanceCorrelationReady => obtain ⟨_, _, _, -, -, same⟩ := makes; cases same; exact .ready rfl rfl
  | applyCorrelationChildren => obtain ⟨_, -, same⟩ := makes; cases same; exact .promote
  | parkHomeostatProcess => obtain ⟨_, _, same⟩ := makes; cases same; exact .park
  | transitionHomeostatProcess => obtain ⟨_, _, -, same⟩ := makes; cases same; exact .resolve
  | reopenHomeostatProcess => obtain ⟨_, same⟩ := makes; cases same; exact .reopen

theorem RecordCall.makes_act {call : RecordCall} {runId processId : String} {action : RowAction}
    (makes : call.Makes (.act runId processId action)) : ActsAs (.record call) action := by
  cases call with
  | transitionProcessWithCommand t =>
    obtain ⟨output, error, printed, -, same⟩ := makes
    cases same
    exact .command printed
  | scheduleProcessWithCommand process command events =>
    obtain ⟨-, -, _, _, _, same⟩ := makes
    cases same
  | _ => cases makes

end Journal

theorem StoreCall.makes_record {call : StoreCall} {w : Write} (makes : call.Makes w) :
    ∃ runId commands events, w = .record runId commands events := by
  cases call with
  | recordReaction row c =>
    obtain ⟨events, same⟩ := makes
    exact ⟨_, _, _, same⟩
  | registerImpulseType | recordImpulseRelation | recordAssociation | saveHomeostat
  | transitionHomeostat | saveProjection | acceptImpulse => exact ⟨_, _, _, makes⟩
  | _ =>
    obtain ⟨runId, same⟩ := makes
    exact ⟨_, _, _, same⟩

theorem Bridge.BridgeRecord.Stores.record {r : BridgeRecord} {w : Write} (stores : r.Stores w) :
    ∃ runId commands events, w = .record runId commands events := by
  obtain ⟨commands, events, same, -⟩ := stores
  exact ⟨_, _, _, same⟩

theorem BridgeCall.makes_record {call : BridgeCall} {w : Write} (makes : call.Makes w) :
    ∃ runId commands events, w = .record runId commands events := by
  cases call with
  | enqueueBridgeDelivery e =>
    obtain ⟨_, _, same⟩ := makes
    exact ⟨_, _, _, same⟩
  | importInboxDelivery | importBridgeDelivery => exact BridgeRecord.Stores.record makes
  | putDelivery table row =>
    obtain ⟨runId, same⟩ := makes
    exact ⟨_, _, _, same⟩
  | _ =>
    obtain ⟨_, _, stores⟩ := makes
    exact stores.record

theorem Call.makes_act {call : Call} {runId processId : String} {action : RowAction}
    (makes : call.Makes (.act runId processId action)) : ActsAs call action := by
  cases call with
  | process c => exact c.makes_act makes
  | record c => exact c.makes_act makes
  | lifecycle c => cases c <;> cases makes
  | store c => obtain ⟨_, _, _, same⟩ := c.makes_record makes; cases same
  | bridge c => obtain ⟨_, _, _, same⟩ := c.makes_record makes; cases same

theorem step_row (digest : Json → String) {db : Database} (consistent : Consistent db)
    (call : Call × Option Nat) (single : ¬ call.1.Batch) {k : String × String} {old : ProcessRow}
    (found : db.processes.find? k = some old) :
    (step digest db call).processes.find? k = some old ∨
      ∃ action, ActsAs call.1 action ∧ action.Enabled old ∧
        (step digest db call).processes.find? k = some (action.apply old) := by
  rcases step_outcome digest consistent call with
    same | ⟨-, (same | ⟨w, makes, written, -⟩) | ⟨batch, -⟩⟩
  · exact .inl (by rw [same, found])
  · exact .inl (by rw [same, found])
  · rcases written.row found with kept | ⟨action, rfl, enabled, moved⟩
    · exact .inl kept
    · exact .inr ⟨action, Call.makes_act makes, enabled, moved⟩
  · exact absurd batch single

end Fala

/-! The process rows over every history of the operations that move them. -/

namespace Fala
open Durable Program Journal

/-- The rows after a call that schedules, claims or moves processes. -/
def processStep (digest : Json → String) (db : Database) (call : ProcessCall × Option Nat) :
    Database := step digest db (.process call.1, call.2)

/-- The rows after a history of such calls. -/
def afterProcesses (digest : Json → String) (calls : List (ProcessCall × Option Nat)) : Database :=
  Durable.execute (processStep digest) .empty calls

theorem afterProcesses_append (digest : Json → String) (calls : List (ProcessCall × Option Nat))
    (call : ProcessCall × Option Nat) :
    afterProcesses digest (calls ++ [call]) = processStep digest (afterProcesses digest calls) call :=
  execute_append (processStep digest) Database.empty calls [call]

theorem Journal.ProcessCall.ordinary {call : ProcessCall} {w : Write} (makes : call.Makes w) :
    w.Ordinary := by
  cases call with
  | createRun r =>
    obtain rfl := makes
    simp [Write.Ordinary, Unclaimed, RunCreation.event]
  | scheduleProcess s =>
    obtain ⟨attempts, input, metadata, schema, -, rfl⟩ := makes
    refine ⟨.idle (by simp [ProcessSchedule.row]) rfl rfl ?_ ?_, rfl, ?_⟩
    · simp [ProcessSchedule.row, ProcessStatus.isTerminal]
    · simp only [ProcessSchedule.row]
      omega
    · simp [Unclaimed, ProcessSchedule.event]
  | claimProcess runId processId c =>
    obtain rfl := makes
    trivial
  | claimNextReady runId allRuns c =>
    obtain ⟨run, process, -, rfl⟩ | ⟨run, process, -, rfl⟩ := makes <;> trivial
  | transitionProcess t =>
    obtain ⟨output, error, -, -, rfl⟩ := makes
    exact t.toStatus
  | advanceCorrelationReady runId processId inputJson =>
    obtain ⟨createdAt, output, error, -, -, rfl⟩ := makes
    simp [Write.Ordinary, RowAction.Ordinary]
  | applyCorrelationChildren c children =>
    obtain ⟨child, -, rfl⟩ := makes
    trivial
  | parkHomeostatProcess p =>
    obtain ⟨output, metadata, rfl⟩ := makes
    trivial
  | transitionHomeostatProcess t =>
    obtain ⟨output, error, -, rfl⟩ := makes
    trivial
  | reopenHomeostatProcess r =>
    obtain ⟨homeostat, rfl⟩ := makes
    trivial

theorem step_tallied (digest : Json → String) {db : Database} (tallied : Tallied db)
    (call : ProcessCall × Option Nat) :
    Tallied (processStep digest db call) :=
  (step_does digest tallied.consistent _).induct tallied
    fun makes written => written.tallied (ProcessCall.ordinary makes)

theorem afterProcesses_tallied (digest : Json → String) (calls : List (ProcessCall × Option Nat)) :
    Tallied (afterProcesses digest calls) :=
  execute_induction (I := Tallied) .empty (fun _ call tallied => step_tallied digest tallied call)
    calls

/-- The ways out of a terminal status. -/
inductive Revival : ProcessCall → ProcessRow → ProcessRow → Prop
  | retried {t : TransitionCall} {old new : ProcessRow} (failed : old.status = .failed)
      (left : old.attempt < old.maxAttempts) (retry : new.status = .retryWait) :
      Revival (.transitionProcess t) old new
  | reopened {r : HomeostatReopen} {old new : ProcessRow}
      (closed : old.status = .succeeded ∨ old.status = .cancelled ∨ old.status = .timedOut)
      (waits : new.status = .waiting) : Revival (.reopenHomeostatProcess r) old new

theorem batch_open {call : Call} {action : RowAction} {row : ProcessRow} (batch : call.Batch)
    (acts : ActsAs call action) (enabled : action.Enabled row) : row.status.isTerminal = false := by
  cases h : row.status.isTerminal with
  | false => rfl
  | true =>
    have revives := RowAction.enabled_terminal enabled h
    cases acts <;> first | exact revives.elim | exact batch.elim

theorem step_terminal (digest : Json → String) {db : Database} (consistent : Consistent db)
    (call : ProcessCall × Option Nat) {k : String × String} {old : ProcessRow}
    (found : db.processes.find? k = some old) (terminal : old.status.isTerminal = true) :
    ∃ new, (processStep digest db call).processes.find? k = some new ∧
      (new = old ∨ Revival call.1 old new) := by
  by_cases batch : (Call.process call.1).Batch
  · obtain ⟨new, found', rfl⟩ := (step_does digest consistent (.process call.1, call.2)).row
      (Q := (· = old)) found rfl fun row action makes enabled same => by
        have acting := batch_open batch (Call.makes_act makes) enabled
        rw [same, terminal] at acting
        cases acting
    exact ⟨new, found', .inl rfl⟩
  · rcases step_row digest consistent (.process call.1, call.2) batch found with
      kept | ⟨action, acts, enabled, moved⟩
    · exact ⟨old, kept, .inl rfl⟩
    · refine ⟨_, moved, .inr ?_⟩
      have revives := RowAction.enabled_terminal enabled terminal
      obtain ⟨call, faults⟩ := call
      cases acts with
      | transition printed => exact .retried revives.2.1 revives.2.2 revives.1
      | ready target silent => simp [RowAction.Revives, target] at revives
      | reopen => exact .reopened revives rfl
      | _ => exact revives.elim

/-- Every row of every history keeps its lease and its finish time in step with its status, has
    been claimed once for each attempt, and leaves a terminal status only by a retry of a failure
    with attempts left or by the reopening of its homeostat. -/
theorem process_rows_invariant (digest : Json → String) (calls : List (ProcessCall × Option Nat)) :
    (∀ row ∈ (afterProcesses digest calls).processes.rows,
      RowFit row ∧ row.attempt = claimsOf (afterProcesses digest calls) row.key) ∧
    ∀ call, ∀ row ∈ (afterProcesses digest calls).processes.rows, row.status.isTerminal = true →
      ∃ new ∈ (afterProcesses digest (calls ++ [call])).processes.rows, new.key = row.key ∧
        (new.status = row.status ∨ Revival call.1 row new) := by
  have tallied := afterProcesses_tallied digest calls
  have stored : ∀ row ∈ (afterProcesses digest calls).processes.rows,
      (afterProcesses digest calls).processes.find? row.key = some row :=
    fun row member => Table.find?_some.mpr ⟨member, rfl⟩
  refine ⟨fun row member => ⟨tallied.fit _ _ (stored row member), ?_⟩, ?_⟩
  · simpa [stored row member] using tallied.counted row.key
  · intro call row member terminal
    rw [afterProcesses_append]
    obtain ⟨new, found, kept⟩ := step_terminal digest tallied.consistent call (stored row member) terminal
    obtain ⟨member', key⟩ := Table.find?_some.mp found
    exact ⟨new, member', key, kept.imp_left (congrArg ProcessRow.status)⟩

end Fala
