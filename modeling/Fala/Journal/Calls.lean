import Fala.Journal.Actions

/-! The public operations of the journal as calls, and what each may commit. -/

namespace Fala.Journal
open Durable Program

/-- What a call leaves: the rows it began with, one permitted write together with the change that
    it records, or, for a call that makes several, permitted writes. -/
def Outcome (batch : Prop) (P : Write → Prop) (R : Database → Prop) (db db' : Database) : Prop :=
  CommitsWith P R db db' ∨ (batch ∧ Does P db db')

theorem Commits.outcome {batch : Prop} {P : Write → Prop} {db db' : Database}
    (commits : Commits P db db') : Outcome batch P (fun _ => True) db db' := by
  rcases commits with same | ⟨w, permitted, written⟩
  · exact .inl (.inl same)
  · exact .inl (.inr ⟨w, permitted, written, trivial⟩)

theorem CommitsWith.outcome {batch : Prop} {P : Write → Prop} {R : Database → Prop}
    {db db' : Database} (commits : CommitsWith P R db db') : Outcome batch P R db db' := .inl commits

theorem Does.outcome {P : Write → Prop} {R : Database → Prop} {db db' : Database}
    (does : Does P db db') : Outcome True P R db db' := .inr ⟨trivial, does⟩

theorem Outcome.does {batch : Prop} {P : Write → Prop} {R : Database → Prop} {db db' : Database}
    (outcome : Outcome batch P R db db') : Does P db db' := by
  rcases outcome with (rfl | ⟨w, permitted, written, -⟩) | ⟨-, does⟩
  · exact .refl _
  · exact .one permitted written
  · exact does

/-- The methods that share `_transition_process`. -/
inductive TransitionCall where
  | waitProcess (runId processId actor at_ : String) (outputJson : Text) (idempotencyKey : String)
  | requestCancelProcess (runId processId actor at_ : String) (errorJson : Text)
      (idempotencyKey : String)
  | completeProcess (runId processId workerId completedAt : String) (outputJson errorJson : Text)
  | failProcess (runId processId actor at_ : String) (errorJson : Text)
  | retryProcess (runId processId actor at_ availableAt : String) (errorJson : Text)
  | skipProcess (runId processId actor at_ : String) (outputJson : Text) (idempotencyKey : String)
  | cancelProcess (runId processId actor at_ : String) (errorJson : Text)
  | timeoutProcess (runId processId actor at_ : String) (errorJson : Text)
  deriving DecidableEq

namespace TransitionCall

/-- The arguments that the method hands to `_transition_process`. -/
def transition : TransitionCall → ProcessTransition
  | waitProcess runId processId actor at_ outputJson idempotencyKey =>
    { runId, processId, toStatus := .waiting, actor, at_, outputJson, idempotencyKey }
  | requestCancelProcess runId processId actor at_ errorJson idempotencyKey =>
    { runId, processId, toStatus := .cancelRequested, actor, at_, errorJson, idempotencyKey }
  | completeProcess runId processId workerId completedAt outputJson errorJson =>
    { runId, processId, toStatus := .succeeded, actor := workerId, at_ := completedAt, outputJson,
      errorJson }
  | failProcess runId processId actor at_ errorJson =>
    { runId, processId, toStatus := .failed, actor, at_, errorJson }
  | retryProcess runId processId actor at_ availableAt errorJson =>
    { runId, processId, toStatus := .retryWait, actor, at_, errorJson, availableAt }
  | skipProcess runId processId actor at_ outputJson idempotencyKey =>
    { runId, processId, toStatus := .skipped, actor, at_, outputJson, idempotencyKey }
  | cancelProcess runId processId actor at_ errorJson =>
    { runId, processId, toStatus := .cancelled, actor, at_, errorJson }
  | timeoutProcess runId processId actor at_ errorJson =>
    { runId, processId, toStatus := .timedOut, actor, at_, errorJson }

def program (digest : Json → String) : TransitionCall → Sql ProcessRow
  | waitProcess runId processId actor at_ outputJson idempotencyKey =>
    Journal.waitProcess runId processId actor at_ outputJson idempotencyKey
  | requestCancelProcess runId processId actor at_ errorJson idempotencyKey =>
    Journal.requestCancelProcess runId processId actor at_ errorJson idempotencyKey
  | completeProcess runId processId workerId completedAt outputJson errorJson =>
    Journal.completeProcess digest runId processId workerId completedAt outputJson errorJson
  | failProcess runId processId actor at_ errorJson =>
    Journal.failProcess runId processId actor at_ errorJson
  | retryProcess runId processId actor at_ availableAt errorJson =>
    Journal.retryProcess runId processId actor at_ availableAt errorJson
  | skipProcess runId processId actor at_ outputJson idempotencyKey =>
    Journal.skipProcess runId processId actor at_ outputJson idempotencyKey
  | cancelProcess runId processId actor at_ errorJson =>
    Journal.cancelProcess runId processId actor at_ errorJson
  | timeoutProcess runId processId actor at_ errorJson =>
    Journal.timeoutProcess runId processId actor at_ errorJson

theorem settles (digest : Json → String) (call : TransitionCall) (db : Database) :
    (call.program digest).Settles db (Commits call.transition.Makes db) := by
  cases call with
  | completeProcess => exact completeProcess_settles digest _ _ _ _ _ _ db
  | _ => exact transitionProcess_settles _ db

theorem toStatus (call : TransitionCall) :
    call.transition.toStatus ≠ .pending ∧ call.transition.toStatus ≠ .ready ∧
      call.transition.toStatus ≠ .running := by
  cases call <;> simp [transition]

end TransitionCall

/-- The operations that schedule processes, claim them and move their rows. -/
inductive ProcessCall where
  | createRun (r : RunCreation)
  | scheduleProcess (s : ProcessSchedule)
  | claimProcess (runId processId : String) (c : ClaimRequest)
  | claimNextReady (runId : String) (allRuns : Bool) (c : ClaimRequest)
  | transitionProcess (t : TransitionCall)
  | advanceCorrelationReady (runId processId : String) (inputJson : Text)
  | applyCorrelationChildren (c : ChildrenCall) (children : List CorrelationChildTransition)
  | parkHomeostatProcess (p : HomeostatPark)
  | transitionHomeostatProcess (t : HomeostatTransition)
  | reopenHomeostatProcess (r : HomeostatReopen)
  deriving DecidableEq

namespace ProcessCall

def program (digest : Json → String) : ProcessCall → Sql Unit
  | createRun r => (Journal.createRun r).void
  | scheduleProcess s => (Journal.scheduleProcess s).void
  | claimProcess runId processId c => (Journal.claimProcess runId processId c).void
  | claimNextReady runId allRuns c => (Journal.claimNextReady runId allRuns c).void
  | transitionProcess t => (t.program digest).void
  | advanceCorrelationReady runId processId inputJson =>
    (Journal.advanceCorrelationReady runId processId inputJson).void
  | applyCorrelationChildren c children => (Journal.applyCorrelationChildren c children).void
  | parkHomeostatProcess p => (Journal.parkHomeostatProcess p).void
  | transitionHomeostatProcess t => (Journal.transitionHomeostatProcess t).void
  | reopenHomeostatProcess r => (Journal.reopenHomeostatProcess r).void

/-- The writes that a call may commit. -/
def Makes : ProcessCall → Write → Prop
  | createRun r => (· = .record r.runId [r.command] [(r.commandId, r.event)])
  | scheduleProcess s => fun w => 1 ≤ s.maxAttempts ∧ s.Inserts w
  | claimProcess runId processId c => (· = .act runId processId (.claim c))
  | claimNextReady runId _ c => c.Serves runId
  | transitionProcess t => t.transition.Makes
  | advanceCorrelationReady runId processId inputJson => fun w =>
    ∃ createdAt, CommandTransition.Makes
      { runId, processId, target := .ready, inputJson,
        command := readyCommand runId processId createdAt } w
  | applyCorrelationChildren c children => c.Makes children
  | parkHomeostatProcess p => p.Makes
  | transitionHomeostatProcess t => t.Makes
  | reopenHomeostatProcess r => r.Makes

/-- The row that goes with the writes of a call, where it is not a process row. -/
def Leaves : ProcessCall → Database → Prop
  | createRun r => fun db => db.runs.find? r.runId = some r.row
  | parkHomeostatProcess p => fun db =>
    (db.homeostats.find? (p.runId, p.homeostatId)).any fun h => h.status = "open"
  | transitionHomeostatProcess t => fun db =>
    (db.homeostats.find? (t.runId, t.homeostatId)).any fun h => h.status = t.homeostatStatus
  | reopenHomeostatProcess r => fun db =>
    (db.homeostats.find? (r.runId, r.homeostatId)).any fun h => h.status = "open"
  | _ => fun _ => True

/-- The calls whose transaction may make several writes. -/
def Batch : ProcessCall → Prop
  | claimNextReady .. | applyCorrelationChildren .. => True
  | _ => False

theorem settles (digest : Json → String) (call : ProcessCall) {db : Database}
    (housed : EventsHoused db)
    (manned : ∀ r ∈ db.processes.rows, (db.runs.find? r.runId).isSome = true) :
    (call.program digest).Settles db (Outcome call.Batch call.Makes call.Leaves db) := by
  cases call with
  | createRun r => exact (createRun_settles r housed).void.imp fun _ => CommitsWith.outcome
  | scheduleProcess s => exact (scheduleProcess_settles s db).void.imp fun _ => Commits.outcome
  | claimProcess runId processId c =>
    exact (claimProcess_settles runId processId c db).void.imp fun _ commits =>
      (commits.imp fun _ permitted => permitted.2).outcome
  | claimNextReady runId allRuns c =>
    exact (claimNextReady_settles runId allRuns c manned).void.imp fun _ does =>
      (does.imp fun _ => ClaimRequest.Selects.serves).outcome
  | transitionProcess t => exact (t.settles digest db).void.imp fun _ => Commits.outcome
  | advanceCorrelationReady runId processId inputJson =>
    exact (advanceCorrelationReady_settles runId processId inputJson db).void.imp
      fun _ => Commits.outcome
  | applyCorrelationChildren c children =>
    exact (applyCorrelationChildren_settles c children db).void.imp fun _ => Does.outcome
  | parkHomeostatProcess p =>
    exact (parkHomeostatProcess_settles p db).void.imp fun _ => CommitsWith.outcome
  | transitionHomeostatProcess t =>
    exact (transitionHomeostatProcess_settles t db).void.imp fun _ => CommitsWith.outcome
  | reopenHomeostatProcess r =>
    exact (reopenHomeostatProcess_settles r db).void.imp fun _ => CommitsWith.outcome

end ProcessCall

/-- The other operations of the journal: they record what the caller gives them. -/
inductive RecordCall where
  | appendCommand (c : CommandAppend)
  | submitCommand (c : CommandAppend) (events : List EventInput)
  | recordViolation (v : Violation)
  | appendEvent (runId commandId : String) (event : EventInput)
  | transitionRunStatus (t : RunTransition)
  | scheduleProcessWithCommand (process : ProcessRow) (command : CommandRow)
      (events : List EventInput)
  | transitionProcessWithCommand (t : CommandTransition)
  deriving DecidableEq

namespace RecordCall

def program : RecordCall → Sql Unit
  | appendCommand c => (Journal.appendCommand c).void
  | submitCommand c events => (Journal.submitCommand c events).void
  | recordViolation v => (Journal.recordViolation v).void
  | appendEvent runId commandId event => (Journal.appendEvent runId commandId event).void
  | transitionRunStatus t => (Journal.transitionRunStatus t).void
  | scheduleProcessWithCommand process command events =>
    (Journal.scheduleProcessWithCommand process command events).void
  | transitionProcessWithCommand t => (Journal.transitionProcessWithCommand t).void

/-- The write of a submitted command. -/
def submitted (c : CommandAppend) (events : List EventInput) : Write :=
  .record c.runId [c.row] (events.map fun event => (c.commandId, event.inherit c.row))

/-- The writes that a call may commit. -/
def Makes : RecordCall → Write → Prop
  | appendCommand c => (· = .record c.runId [c.row] [])
  | submitCommand c events => (· = submitted c events)
  | recordViolation v => (· = submitted v.command [v.event])
  | appendEvent runId commandId event => (· = .record runId [] [(commandId, event)])
  | transitionRunStatus t => (· = .record t.runId [t.command] [(t.idempotencyKey, t.event)])
  | scheduleProcessWithCommand process command events => fun w => 1 ≤ process.maxAttempts ∧
    (process.status = .pending ∨ process.status = .ready) ∧ SuppliedBy process command events w
  | transitionProcessWithCommand t => t.Makes

/-- The row that goes with the writes of a call, where it is not a process row. -/
def Leaves : RecordCall → Database → Prop
  | transitionRunStatus t => fun db => (db.runs.find? t.runId).any fun r => r.status = t.target
  | _ => fun _ => True

theorem settles (call : RecordCall) (db : Database) :
    call.program.Settles db (Outcome False call.Makes call.Leaves db) := by
  cases call with
  | appendCommand c => exact (appendCommand_settles c db).void.imp fun _ => Commits.outcome
  | submitCommand c events =>
    exact (submitCommand_settles c events db).void.imp fun _ => Commits.outcome
  | recordViolation v =>
    exact Settles.void (.require fun _ => (submitCommand_settles v.command [v.event] db).imp
      fun _ => Commits.outcome)
  | appendEvent runId commandId event =>
    exact (appendEvent_settles runId commandId event db).void.imp fun _ => Commits.outcome
  | transitionRunStatus t =>
    exact (transitionRunStatus_settles t db).void.imp fun _ => CommitsWith.outcome
  | scheduleProcessWithCommand process command events =>
    exact (scheduleProcessWithCommand_settles process command events db).void.imp
      fun _ => Commits.outcome
  | transitionProcessWithCommand t =>
    exact (transitionProcessWithCommand_settles t db).void.imp fun _ => Commits.outcome

end RecordCall
end Fala.Journal
