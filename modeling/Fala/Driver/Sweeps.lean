import Fala.Driver.Loops
import Fala.Driver.Claims
import Fala.Durable.Table
import Fala.Journal.Telling

/-! The driver of supplied rows under realtime timestamps. -/

namespace Fala.Driver
open Durable Journal

/-- What one pass reads as the time. -/
structure Readings where
  tick : String
  claimed : String
  signalled : String
  escalated : String
  cancelled : String
  settled : String
  deriving DecidableEq

/-- Without realtime timestamps every reading is the supplied instant. -/
def Readings.steady (now : String) : Readings := ⟨now, now, now, now, now, now⟩

/-- A worker at a reading of the time. -/
def Worker.reading (w : Worker) (now : String) : Worker := { w with now }

namespace Timed

section
variable (digest : Json → String) (outside : Outside) (worker : Worker) (t : Readings)

/-- `wait_durable_subprocess` -/
def waitDurableSubprocess (claimed : ProcessRow) (request : CancelRequest) : Session Database Bool := do
  Session.handle
    (.program (requestCancelProcess claimed.runId claimed.id request.actor request.at_
      request.errorJson request.idempotencyKey).void)
    fun _ => pure ()
  let polled ← .program (getProcess claimed.runId claimed.id)
  if polled.status ≠ .cancelRequested then return false
  else
    .program (appendEvent claimed.runId ""
      (signalEvent "signal" "SIGTERM" t.signalled worker.id claimed.id)).void
    if request.killed then
      .program (appendEvent claimed.runId ""
        (signalEvent "escalation" "SIGKILL" t.escalated worker.id claimed.id)).void
    let current ← .program (getProcess claimed.runId claimed.id)
    if current.status = .cancelled then return true
    else
      .program (cancelProcess claimed.runId claimed.id worker.id t.cancelled
        (.printed (.obj [("code", .str "operator_cancelled")]))).void
      return true

/-- The execution of a claimed row. -/
def executeClaimed (claimed : ProcessRow) (adapter : AdapterSpec) : Session Database DriverResult :=
  let finish := settleResult digest outside (worker.reading t.settled) claimed adapter (outside.execute claimed adapter)
  if adapter.kind ≠ .subprocess then finish
  else
    match outside.cancels claimed adapter with
    | none => finish
    | some request => do
      if ← waitDurableSubprocess worker t claimed request then
        return { cancelled := true, ticks := 1, processId := claimed.id }
      else finish

/-- What follows the claim of a row. -/
def settleClaimed (claimed : ProcessRow) (adapter : AdapterSpec) : Session Database DriverResult :=
  let preflight := adapter.preflight outside.processHost
  if ¬ preflight.isOk then .program (failClaimed (worker.reading t.claimed) claimed preflight)
  else executeClaimed digest outside worker t claimed adapter

/-- `drive_once` -/
def driveOnce (process : ProcessRow) (adapter : AdapterSpec) : Session Database DriverResult := do
  .require (worker.id ≠ "") "driver: worker_id must not be empty"
  let claimed ← .program (claimProcess process.runId process.id
    { workerId := worker.id, now := t.claimed, leaseExpiresAt := worker.leaseExpiresAt })
  settleClaimed digest outside worker t claimed adapter

end

section
variable (digest : Json → String) (outside : Outside) (s : Supply)

/-- The supplied rows as a pass sees them. -/
def reading (now : String) : Supply := { s with worker := s.worker.reading now }

/-- The execution of a candidate. -/
def executeCandidate (t : Readings) (candidate : ProcessRow) (adapter : AdapterSpec) (aggregate : DriverResult) :
    Session Database Pass := do
  let one ← driveOnce digest outside s.worker t candidate adapter
  if one.ticks = 0 ∧ ¬ one.error.isOk then
    return .raised { aggregate with failed := true, idle := false, processId := candidate.id, error := one.error }
  else return .claimed (aggregateOnce aggregate one)

/-- The lease of a running candidate is resolved before it is claimed again. -/
def resolveCandidate (t : Readings) (candidate : ProcessRow) (adapter : AdapterSpec) (aggregate : DriverResult) :
    Session Database Pass := do
  let maintained ← .program (maintainProcess candidate
    { workerId := candidate.leaseOwner, now := t.tick, retryAvailableAt := t.tick,
      errorJson := leaseError "process lease expired" })
  if maintained.status = .failed then
    return .claimed { aggregate with failed := true, ticks := aggregate.ticks + 1, processId := candidate.id }
  else
    let current ← .program (getProcess candidate.runId candidate.id)
    executeCandidate digest outside s t current adapter aggregate

/-- One pass of the inner loop. -/
def drivePass (t : Readings) (aggregate : DriverResult) : Session Database Pass := do
  let rows ← s.durable
  match (reading s t.tick).best rows none with
  | none => return .idle
  | some (candidate, adapter) =>
    if candidate.status = .running ∧ candidate.leaseOwner ≠ "" ∧ candidate.leaseExpiresAt ≤ t.tick then
      resolveCandidate digest outside s t candidate adapter aggregate
    else executeCandidate digest outside s t candidate adapter aggregate

variable (clock : Nat → Readings)

/-- Both loops from a pass on, for as many passes as the fuel allows. -/
def drivePasses : Nat → Nat → Int → DriverResult → Session Database (Option DriverResult)
  | 0, _, _, _ => return none
  | fuel + 1, pass, claimed, aggregate =>
    if s.maxTicks ≤ aggregate.ticks then return some aggregate
    else do
      match ← drivePass digest outside s (clock pass) aggregate with
      | .idle => if claimed = 0 then return some aggregate else drivePasses fuel (pass + 1) 0 aggregate
      | .claimed aggregate =>
        drivePasses fuel (pass + 1) (if claimed + 1 < s.claimsPerRound then claimed + 1 else 0) aggregate
      | .raised aggregate => return some aggregate

/-- `drive_until_idle`, with the readings of its passes and the fuel of its loops. -/
def driveUntilIdle (fuel : Nat) : Session Database (Option DriverResult) := do
  .require (1 ≤ s.maxTicks) "driver: max_ticks must be greater than zero"
  .require (1 ≤ s.claimsPerRound) "driver: claims_per_round must be greater than zero"
  .of s.check
  let aggregate ← drivePasses digest outside s clock fuel 0 0 { idle := true }
  return aggregate.map (concludePasses s)

end

/-! At the supplied instant it is the driver without realtime timestamps. -/

section
variable (digest : Json → String) (outside : Outside) (worker : Worker) (s : Supply)

theorem drivePasses_steady (fuel pass : Nat) (claimed : Int) (aggregate : DriverResult) :
    drivePasses digest outside s (fun _ => .steady s.worker.now) fuel pass claimed aggregate =
      Driver.drivePasses digest outside s fuel claimed aggregate := by
  induction fuel generalizing pass claimed aggregate with
  | zero => rfl
  | succ fuel ih =>
    unfold drivePasses Driver.drivePasses
    by_cases spent : s.maxTicks ≤ aggregate.ticks
    · exact (if_pos spent).trans (if_pos spent).symm
    · refine (if_neg spent).trans (Eq.trans ?_ (if_neg spent).symm)
      refine congrArg (Driver.drivePass digest outside s aggregate >>= ·) (funext fun ended => ?_)
      cases ended with
      | idle =>
        exact congrArg (fun later : Session Database (Option DriverResult) =>
          if claimed = 0 then pure (some aggregate) else later) (ih _ _ _)
      | claimed aggregate' => exact ih _ _ _
      | raised aggregate' => rfl

theorem driveUntilIdle_steady (fuel : Nat) :
    driveUntilIdle digest outside s (fun _ => .steady s.worker.now) fuel = Driver.driveUntilIdle digest outside s fuel := by
  unfold driveUntilIdle Driver.driveUntilIdle
  rw [drivePasses_steady]

end

end Timed
end Fala.Driver

/-! What a drive does to the process rows beside its claims. -/

namespace Fala.Driver
open Durable Program Journal

/-- A row that nothing but a claim would move on: its attempts stand, and it did not start to run. -/
structure RowCalm (row row' : ProcessRow) : Prop where
  attempt : row'.attempt = row.attempt
  maxAttempts : row'.maxAttempts = row.maxAttempts
  running : row'.status = .running → row.status = .running

structure Calm (db db' : Database) : Prop where
  keys : db.processes.SameKeys db'.processes
  row : ∀ k row row', db.processes.find? k = some row → db'.processes.find? k = some row' →
    RowCalm row row'

instance : Std.Refl Calm where
  refl db := ⟨fun _ => rfl, fun k row row' found found' => by
    rw [found] at found'
    cases found'
    exact ⟨rfl, rfl, id⟩⟩

instance : IsTrans Database Calm where
  trans db middle db' first later := by
    refine ⟨fun k => (later.keys k).trans (first.keys k), fun k row row' found found' => ?_⟩
    have held : (middle.processes.find? k).isSome = true := by rw [first.keys, found]; rfl
    obtain ⟨between, here⟩ := Option.isSome_iff_exists.mp held
    have before := first.row k row between found here
    have after := later.row k between row' here found'
    exact ⟨after.attempt.trans before.attempt, after.maxAttempts.trans before.maxAttempts,
      fun running => before.running (after.running running)⟩

/-- The writes of a driver that are not claims. -/
def Quiet : Write → Prop
  | .record .. => True
  | .act _ _ (.transition t _ _) => t.toStatus ≠ .running
  | .act _ _ (.park ..) => True
  | _ => False

theorem Quiet.row {runId processId : String} {action : RowAction}
    (quiet : Quiet (.act runId processId action)) (row : ProcessRow) :
    RowCalm row (action.apply row) := by
  cases action with
  | transition t output error => exact ⟨rfl, rfl, fun running => absurd running quiet⟩
  | park p output metadata => exact ⟨rfl, rfl, fun running => by cases running⟩
  | _ => cases quiet

theorem SameKeys.act {db db' : Database} {runId processId : String} {action : RowAction}
    (written : Written db (.act runId processId action) db') :
    db.processes.SameKeys db'.processes := by
  intro k
  cases written with
  | act found enabled processes logged =>
    rw [processes]
    split
    · rename_i same
      rw [same, found]
      rfl
    · rfl

theorem Calm.written {db db' : Database} {w : Write} (written : Written db w db') (quiet : Quiet w) :
    Calm db db' := by
  cases w with
  | schedule => cases quiet
  | record =>
    cases written with
    | record processes logged =>
      have same : Calm db db := refl_of Calm db
      exact ⟨fun k => by rw [processes], fun k row row' found found' =>
        same.row k row row' found (processes ▸ found')⟩
  | act runId processId action =>
    refine ⟨SameKeys.act written, fun k row row' found found' => ?_⟩
    rcases written.row found with kept | ⟨other, same, -, moved⟩
    · rw [kept] at found'
      cases found'
      exact ⟨rfl, rfl, id⟩
    · cases same
      rw [moved] at found'
      cases found'
      exact quiet.row row

theorem Calm.does {P : Write → Prop} {db db' : Database} (does : Does P db db')
    (quiet : ∀ w, P w → Quiet w) : Calm db db' := by
  obtain ⟨writes, allowed, done⟩ := does
  induction done with
  | nil => exact refl_of Calm _
  | cons written _ ih =>
    obtain ⟨here, later⟩ := List.forall_mem_cons.mp allowed
    exact trans_of Calm (.written written (quiet _ here)) (ih later)

instance (P : Write → Prop) : Std.Refl (Does P) := ⟨Does.refl⟩

instance (P : Write → Prop) : IsTrans Database (Does P) := ⟨fun _ _ _ => Does.trans⟩

theorem does_of_commits {P Q : Write → Prop} {db db' : Database} (commits : Commits P db db')
    (moves : ∀ w, P w → Q w) : Does Q db db' := by
  rcases commits with rfl | ⟨w, makes, written⟩
  · exact .refl _
  · exact .one (moves w makes) written

/-- The writes of an execution beside its claim. -/
def Moves (runId : String) : Write → Prop
  | .record _ _ events => Untold events
  | .act run id (.transition t _ _) =>
    run = runId ∧ (t.runId, t.processId) = (run, id) ∧ t.toStatus ≠ .pending ∧ t.toStatus ≠ .ready ∧
      t.toStatus ≠ .running
  | .act run id (.park p _ _) => run = runId ∧ (p.runId, p.processId) = (run, id)
  | _ => False

theorem Moves.quiet {runId : String} {w : Write} (moves : Moves runId w) : Quiet w := by
  cases w with
  | record => trivial
  | schedule => cases moves
  | act run process action =>
    cases action with
    | transition t => exact moves.2.2.2.2
    | park => trivial
    | _ => cases moves

theorem Moves.tells {runId : String} {w : Write} (moves : Moves runId w) : w.Tells := by
  cases w with
  | record => exact moves
  | schedule => cases moves
  | act run process action =>
    cases action with
    | transition t =>
      obtain ⟨-, place, pending, -, running⟩ := moves
      exact ⟨place, pending, running⟩
    | park => exact moves.2
    | _ => cases moves

theorem Moves.ordinary {runId : String} {w : Write} (moves : Moves runId w) : w.Ordinary := by
  cases w with
  | record => exact Untold.unclaimed moves
  | schedule => cases moves
  | act run process action =>
    cases action with
    | transition t => exact moves.2.2
    | park => trivial
    | _ => cases moves

/-- The writes of an execution of one row beside its claim. -/
def MovesRow (k : String × String) (w : Write) : Prop :=
  Moves k.1 w ∧ ∀ run id action, w = .act run id action → (run, id) = k

theorem MovesRow.record {k : String × String} {runId : String} {commands : List CommandRow}
    {events : List (String × EventInput)} (untold : Untold events) : MovesRow k (.record runId commands events) :=
  ⟨untold, fun _ _ _ same => nomatch same⟩

/-- What the caller of a program needs of it. -/
def Soft (runId : String) {α : Type} (p : Sql α) : Prop := ∀ db, p.Settles db (Does (Moves runId) db)

/-- The same of a program that is about one row. -/
def Mild (k : String × String) {α : Type} (p : Sql α) : Prop := ∀ db, p.Settles db (Does (MovesRow k) db)

namespace Mild

variable {α β : Type} {k : String × String}

theorem reads {p : Sql α} (reads : ReadOnly p) : Mild k p := fun _ => .ofReadOnly reads

theorem soft {p : Sql α} (mild : Mild k p) : Soft k.1 p := fun db =>
  (mild db).imp fun _ does => does.imp fun _ moves => moves.1

theorem commits {P : Write → Prop} {p : Sql α} (settles : ∀ db, p.Settles db (Commits P db))
    (moves : ∀ w, P w → MovesRow k w) : Mild k p := fun db =>
  (settles db).imp fun _ commits => does_of_commits commits moves

theorem within {p : Sql α} (mild : Mild k p) : (Session.program p).Within (Does (MovesRow k)) := .program mild

theorem void {p : Sql α} (mild : Mild k p) : Mild k p.void := fun db => (mild db).void

theorem thenPure {p : Sql α} (mild : Mild k p) (f : α → β) : Mild k (p >>= fun a => pure (f a)) :=
  fun db => (mild db).thenRead fun _ => .pure _

theorem transition {t : ProcessTransition} (pending : t.toStatus ≠ .pending) (ready : t.toStatus ≠ .ready)
    (idle : t.toStatus ≠ .running) : Mild (t.runId, t.processId) (transitionProcess t) :=
  commits (transitionProcess_settles t) fun w makes => by
    obtain ⟨output, error, -, -, rfl⟩ := makes
    refine ⟨⟨rfl, rfl, pending, ready, idle⟩, ?_⟩
    rintro run id action ⟨⟩
    rfl

theorem park (p : HomeostatPark) : Mild (p.runId, p.processId) (parkHomeostatProcess p) := fun db =>
  (parkHomeostatProcess_settles p db).imp fun db' commits => by
    rcases commits with rfl | ⟨w, ⟨output, metadata, rfl⟩, written, -⟩
    · exact .refl _
    · have moves : MovesRow (p.runId, p.processId) (.act p.runId p.processId (.park p output metadata)) := by
        refine ⟨⟨rfl, rfl⟩, ?_⟩
        rintro run id action ⟨⟩
        rfl
      exact .one moves written

theorem complete (digest : Json → String) (runId processId workerId at_ : String)
    (output error : Text) : Mild (runId, processId) (completeProcess digest runId processId workerId at_ output error) :=
  commits (completeProcess_settles digest runId processId workerId at_ output error) fun w makes => by
    obtain ⟨output, error, -, -, rfl⟩ := makes
    refine ⟨⟨rfl, rfl, ProcessStatus.noConfusion, ProcessStatus.noConfusion, ProcessStatus.noConfusion⟩, ?_⟩
    rintro run id action ⟨⟩
    rfl

theorem violation (process : ProcessRow) (actor at_ : String) (error : AdapterError)
    (blame : Blame) : Mild k (recordContractViolation process actor at_ error blame) := by
  unfold recordContractViolation
  split
  · refine void fun db => .require fun _ => (submitCommand_settles _ _ db).imp fun _ commits => ?_
    refine does_of_commits commits fun w same => ?_
    subst same
    apply MovesRow.record
    intro entry member
    obtain rfl := List.mem_singleton.mp member
    rfl
  · exact reads (.pure _)

theorem event {run commandId : String} {event : EventInput} (other : statusTold event.eventType = none) :
    Mild k (appendEvent run commandId event) :=
  commits (appendEvent_settles run commandId event) fun w same => by
    subst same
    apply MovesRow.record
    intro entry member
    obtain rfl := List.mem_singleton.mp member
    exact other

theorem maintain (process : ProcessRow) (m : Maintenance) : Mild process.key (maintainProcess process m) := fun db =>
  (maintainProcess_settles process m db).imp fun _ commits => does_of_commits commits fun w makes => by
    obtain ⟨t, output, error, place, rfl, target | ⟨target, -⟩⟩ := makes
    · refine ⟨⟨rfl, place, target ▸ nofun, target ▸ nofun, target ▸ nofun⟩, ?_⟩
      rintro run id action ⟨⟩
      rfl
    · refine ⟨⟨rfl, place, target ▸ nofun, target ▸ nofun, target ▸ nofun⟩, ?_⟩
      rintro run id action ⟨⟩
      rfl

end Mild

namespace Soft

variable {α : Type} {runId : String}

theorem reads {p : Sql α} (reads : ReadOnly p) : Soft runId p := fun _ => .ofReadOnly reads

theorem within {p : Sql α} (soft : Soft runId p) : (Session.program p).Within (Does (Moves runId)) := .program soft

theorem maintain (process : ProcessRow) (m : Maintenance) : Soft process.runId (maintainProcess process m) :=
  (Mild.maintain process m).soft

end Soft

section Execution

variable (digest : Json → String) (outside : Outside) (worker : Worker) (t : Readings) (claimed : ProcessRow)

theorem failClaimed_rows (error : AdapterError) :
    (Session.program (failClaimed worker claimed error)).Within (Does (MovesRow claimed.key)) := by
  have fails : Mild claimed.key (failProcess claimed.runId claimed.id worker.id worker.now (adapterErrorJson error)) :=
    .transition ProcessStatus.noConfusion ProcessStatus.noConfusion ProcessStatus.noConfusion
  exact (fails.thenPure _).within

theorem failViolating_rows (error : AdapterError) :
    (failViolating worker claimed error).Within (Does (MovesRow claimed.key)) :=
  .bind (Mild.violation _ _ _ _ _).within fun _ => failClaimed_rows worker claimed error

theorem completeClaimed_rows (result : EffectorResult) :
    (completeClaimed digest worker claimed result).Within (Does (MovesRow claimed.key)) := by
  unfold completeClaimed
  split
  · exact failViolating_rows worker claimed _
  · refine .handle (.bind (Mild.complete _ _ _ _ _ _ _).within fun _ => .pure _) fun detail => ?_
    split
    · exact failViolating_rows worker claimed _
    · exact .of _

theorem settleFailure_rows (adapter : AdapterSpec) (result : EffectorResult) :
    (settleFailure outside worker claimed adapter result).Within (Does (MovesRow claimed.key)) := by
  refine .bind (Mild.violation _ _ _ _ _).within fun _ => .bind (.of _) fun due => .bind ?_ fun _ => .pure _
  have moves {t : ProcessTransition} (here : (t.runId, t.processId) = claimed.key) (pending : t.toStatus ≠ .pending)
      (ready : t.toStatus ≠ .ready) (idle : t.toStatus ≠ .running) : Mild claimed.key (transitionProcess t) :=
    here ▸ Mild.transition pending ready idle
  refine Mild.within ?_
  split
  · exact moves rfl ProcessStatus.noConfusion ProcessStatus.noConfusion ProcessStatus.noConfusion
  · split
    · exact moves rfl ProcessStatus.noConfusion ProcessStatus.noConfusion ProcessStatus.noConfusion
    · exact moves rfl ProcessStatus.noConfusion ProcessStatus.noConfusion ProcessStatus.noConfusion

theorem settleResult_rows (adapter : AdapterSpec) (result : EffectorResult) :
    (settleResult digest outside worker claimed adapter result).Within (Does (MovesRow claimed.key)) := by
  unfold settleResult
  split
  · have parks : Mild claimed.key (parkHomeostatProcess
        { runId := claimed.runId, homeostatId := result.homeostatId, processId := claimed.id, actor := worker.id,
          at_ := worker.now, outputJson := result.outputJson, metadataJson := result.metadataJson,
          idempotencyKey := "homeostat.open:" ++ result.homeostatId }) := Mild.park _
    exact (parks.thenPure _).within
  · split
    · exact completeClaimed_rows digest worker claimed result
    · exact settleFailure_rows outside worker claimed adapter result

theorem waitDurableSubprocess_rows (request : CancelRequest) :
    (Timed.waitDurableSubprocess worker t claimed request).Within (Does (MovesRow claimed.key)) := by
  have reads : (Session.program (getProcess claimed.runId claimed.id)).Within (Does (MovesRow claimed.key)) :=
    (Mild.reads (getProcess_reads _ _)).within
  have requests : Mild claimed.key (requestCancelProcess claimed.runId claimed.id request.actor request.at_
      request.errorJson request.idempotencyKey) :=
    .transition ProcessStatus.noConfusion ProcessStatus.noConfusion ProcessStatus.noConfusion
  have ends : Mild claimed.key (cancelProcess claimed.runId claimed.id worker.id t.cancelled
      (.printed (.obj [("code", .str "operator_cancelled")]))) :=
    .transition ProcessStatus.noConfusion ProcessStatus.noConfusion ProcessStatus.noConfusion
  have cancels : (do
      let current ← Session.program (getProcess claimed.runId claimed.id)
      if current.status = ProcessStatus.cancelled then return true
      else
        .program (cancelProcess claimed.runId claimed.id worker.id t.cancelled
          (.printed (.obj [("code", .str "operator_cancelled")]))).void
        return true).Within (Does (MovesRow claimed.key)) :=
    .bind reads fun current => .ite (.pure _) (.bind ends.void.within fun _ => .pure _)
  have signals (kind signal at_ : String) (other : statusTold ("process.cancel." ++ kind) = none) :
      (Session.program (appendEvent claimed.runId ""
        (signalEvent kind signal at_ worker.id claimed.id)).void).Within (Does (MovesRow claimed.key)) :=
    (Mild.event other).void.within
  refine .bind (.handle requests.void.within fun _ => .pure _) fun _ => .bind reads fun polled =>
    .ite (.pure _) (.bind (signals _ _ _ (by decide)) fun _ => ?_)
  split
  · exact .bind (signals _ _ _ (by decide)) fun _ => cancels
  · exact cancels

theorem executeClaimed_rows (adapter : AdapterSpec) :
    (Timed.executeClaimed digest outside worker t claimed adapter).Within (Does (MovesRow claimed.key)) := by
  have finishes := settleResult_rows digest outside (worker.reading t.settled) claimed adapter
    (outside.execute claimed adapter)
  unfold Timed.executeClaimed
  split
  · exact finishes
  · split
    · exact finishes
    · refine .bind (waitDurableSubprocess_rows worker t claimed _) fun ended => ?_
      split
      · exact .pure _
      · exact finishes

theorem settleClaimed_rows (adapter : AdapterSpec) :
    (Timed.settleClaimed digest outside worker t claimed adapter).Within (Does (MovesRow claimed.key)) :=
  .ite (failClaimed_rows (worker.reading t.claimed) claimed _) (executeClaimed_rows digest outside worker t claimed adapter)

end Execution
end Fala.Driver
