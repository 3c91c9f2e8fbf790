import Fala.Driver.AllRuns

/-! The driver of the rows that a caller supplies, until nothing is left to claim. -/

namespace Fala.Driver
open Durable Journal

/-- The arguments of `drive_until_idle`. -/
structure Supply where
  processes : List ProcessRow
  adapters : List AdapterSpec
  worker : Worker
  maxTicks : Int
  claimsPerRound : Int := 1
  deriving DecidableEq

namespace Supply

def runId (s : Supply) : String :=
  match s.processes with
  | [] => ""
  | process :: _ => process.runId

/-- The loop of `_validate_supplied_processes`. -/
def checkRest (runId : String) : List String → List ProcessRow → Except String Unit
  | _, [] => .ok ()
  | seen, process :: rest =>
    if process.runId ≠ runId then .error "driver: all processes must target one run"
    else if process.id ∈ seen then .error "driver: duplicate process id"
    else checkRest runId (process.id :: seen) rest

/-- `_validate_supplied_processes` -/
def checkProcesses (s : Supply) : Except String Unit :=
  match s.processes with
  | [] => .ok ()
  | process :: rest => checkRest process.runId [process.id] rest

/-- `_supplied_process_index`, with the adapter under it. -/
def adapter? (s : Supply) (id : String) : Option AdapterSpec :=
  ((s.processes.zip s.adapters).find? fun p => p.1.runId = s.runId ∧ p.1.id = id).map Prod.snd

/-- The checks of the arguments that `run_until_idle` makes too. -/
def check (s : Supply) : Except String Unit := do
  if s.worker.id = "" then .error "driver: worker_id must not be empty"
  else if s.worker.now = "" then .error "driver: now must not be empty"
  else if s.worker.leaseExpiresAt = "" ∨ s.worker.leaseExpiresAt ≤ s.worker.now then
    .error "driver: lease must expire after now"
  else if s.maxTicks < 1 then .error "driver: max_ticks must be greater than zero"
  else if s.processes.length ≠ s.adapters.length then .error "driver: process and adapter lists differ in length"
  else s.checkProcesses

/-- The claimable row that comes first, with its adapter. -/
def best (s : Supply) : List ProcessRow → Option (ProcessRow × AdapterSpec) → Option (ProcessRow × AdapterSpec)
  | [], held => held
  | row :: rest, held =>
    match s.adapter? row.id with
    | none => s.best rest held
    | some adapter =>
      if rowClaimable row s.worker.now then
        match held with
        | none => s.best rest (some (row, adapter))
        | some (first, _) => s.best rest (if rowBefore row first then some (row, adapter) else held)
      else s.best rest held

/-- `list_processes`, when there is a run at all. -/
def durable (s : Supply) : Session Database (List ProcessRow) :=
  if s.runId = "" then return [] else .program (listProcesses s.runId)

end Supply

/-- How one pass of the inner loop ends. -/
inductive Pass where
  | idle
  | claimed (aggregate : DriverResult)
  | raised (aggregate : DriverResult)
  deriving DecidableEq

section
variable (digest : Json → String) (outside : Outside) (s : Supply)

/-- The aggregate after one more execution. -/
def aggregateOnce (aggregate one : DriverResult) : DriverResult :=
  { aggregate with
    ticks := aggregate.ticks + one.ticks
    failureRows := aggregate.failureRows ++ one.failureRows
    completed := aggregate.completed || one.completed
    waiting := aggregate.waiting || one.waiting
    failed := aggregate.failed || one.failed
    timedOut := aggregate.timedOut || one.timedOut
    cancelled := aggregate.cancelled || one.cancelled
    processId := one.processId
    error := if one.error.isOk then aggregate.error else one.error }

/-- The execution of a candidate. -/
def executeCandidate (candidate : ProcessRow) (adapter : AdapterSpec) (aggregate : DriverResult) :
    Session Database Pass := do
  let one ← driveOnce digest outside s.worker candidate adapter
  if one.ticks = 0 ∧ ¬ one.error.isOk then
    return .raised { aggregate with failed := true, idle := false, processId := candidate.id, error := one.error }
  else return .claimed (aggregateOnce aggregate one)

/-- The lease of a running candidate is resolved before it is claimed again. -/
def resolveCandidate (candidate : ProcessRow) (adapter : AdapterSpec) (aggregate : DriverResult) :
    Session Database Pass := do
  let maintained ← .program (maintainProcess candidate
    { workerId := candidate.leaseOwner, now := s.worker.now, retryAvailableAt := s.worker.now,
      errorJson := leaseError "process lease expired" })
  if maintained.status = .failed then
    return .claimed { aggregate with failed := true, ticks := aggregate.ticks + 1, processId := candidate.id }
  else
    let current ← .program (getProcess candidate.runId candidate.id)
    executeCandidate digest outside s current adapter aggregate

/-- One pass of the inner loop. -/
def drivePass (aggregate : DriverResult) : Session Database Pass := do
  let rows ← s.durable
  match s.best rows none with
  | none => return .idle
  | some (candidate, adapter) =>
    if candidate.status = .running ∧ candidate.leaseOwner ≠ "" ∧ candidate.leaseExpiresAt ≤ s.worker.now then
      resolveCandidate digest outside s candidate adapter aggregate
    else executeCandidate digest outside s candidate adapter aggregate

/-- Both loops, for as many passes as the fuel allows; a round that claimed something is followed by another. -/
def drivePasses : Nat → Int → DriverResult → Session Database (Option DriverResult)
  | 0, _, _ => return none
  | fuel + 1, claimed, aggregate =>
    if s.maxTicks ≤ aggregate.ticks then return some aggregate
    else do
      match ← drivePass digest outside s aggregate with
      | .idle => if claimed = 0 then return some aggregate else drivePasses fuel 0 aggregate
      | .claimed aggregate =>
        drivePasses fuel (if claimed + 1 < s.claimsPerRound then claimed + 1 else 0) aggregate
      | .raised aggregate => return some aggregate

/-- A drive that did something is idle when ticks are left. -/
def concludePasses (aggregate : DriverResult) : DriverResult :=
  if aggregate.ticks ≠ 0 then { aggregate with idle := aggregate.ticks < s.maxTicks } else aggregate

/-- `drive_until_idle`, with the fuel of its loops. -/
def driveUntilIdle (fuel : Nat) : Session Database (Option DriverResult) := do
  .require (1 ≤ s.maxTicks) "driver: max_ticks must be greater than zero"
  .require (1 ≤ s.claimsPerRound) "driver: claims_per_round must be greater than zero"
  .of s.check
  let aggregate ← drivePasses digest outside s fuel 0 { idle := true }
  return aggregate.map (concludePasses s)

end

/-- The arguments of `drive_bound_queue`; without bindings it reads those that were persisted. -/
structure BoundQueue where
  bindings : List AdapterBinding
  worker : Worker
  maxTicks : Int
  runId : String := ""
  deriving DecidableEq

namespace BoundQueue

def check (q : BoundQueue) : Except String Unit :=
  if q.maxTicks < 1 then .error "driver: max_ticks must be greater than zero"
  else if q.worker.id = "" then .error "driver: worker_id must not be empty"
  else if q.worker.now = "" then .error "driver: now must not be empty"
  else if q.worker.leaseExpiresAt = "" ∨ q.worker.leaseExpiresAt ≤ q.worker.now then
    .error "driver: lease must expire after now"
  else .ok ()

/-- The run of the queue, or of its first binding. -/
def effectiveRun (q : BoundQueue) (bindings : List AdapterBinding) : String :=
  if q.runId ≠ "" then q.runId
  else
    match bindings with
    | [] => ""
    | binding :: _ => binding.runId

/-- The rows that the bindings name. -/
def boundRows (run : String) : List AdapterBinding → Session Database (List (ProcessRow × AdapterSpec))
  | [] => return []
  | binding :: rest => do
    .require (binding.runId = "" ∨ binding.runId = run) "driver: all adapter bindings must target one run"
    let row ← .program (getProcess run binding.processId)
    let rows ← boundRows run rest
    return (row, binding.adapter) :: rows

end BoundQueue

section
variable (digest : Json → String) (outside : Outside)

/-- The drive over bindings, of which there are some. -/
def driveBindings (q : BoundQueue) (bindings : List AdapterBinding) (fuel : Nat) :
    Session Database (Option DriverResult) := do
  .require (q.effectiveRun bindings ≠ "") "driver: run_id must not be empty"
  let rows ← BoundQueue.boundRows (q.effectiveRun bindings) bindings
  driveUntilIdle digest outside
    { processes := rows.map Prod.fst, adapters := rows.map Prod.snd, worker := q.worker, maxTicks := q.maxTicks } fuel

/-- `drive_bound_queue`; `load` reads the persisted bindings of a run. -/
def driveBoundQueue (load : String → Database → Except String (List AdapterBinding)) (q : BoundQueue) (fuel : Nat) :
    Session Database (Option DriverResult) := do
  .of q.check
  if q.bindings ≠ [] then driveBindings digest outside q q.bindings fuel
  else if q.runId = "" then return some { idle := true }
  else
    let bindings ← .program (.query (load q.runId))
    if bindings = [] then return some { idle := true }
    else driveBindings digest outside q bindings fuel

structure RunUntilIdleResult where
  ok : Bool
  ticks : Nat
  stoppedReason : String
  completed : List ProcessRow := []
  failed : List ProcessRow := []
  waiting : List ProcessRow := []
  deadlocked : Bool := false
  deriving DecidableEq

/-- `_has_process_status` -/
def hasProcessStatus (rows : List ProcessRow) (candidate : ProcessRow) : Bool :=
  rows.any fun row => row.id = candidate.id ∧ row.status = candidate.status ∧ row.attempt = candidate.attempt

/-- The rows with those that are not among them yet. -/
def addFailed (failed : List ProcessRow) (rows : List ProcessRow) : List ProcessRow :=
  rows.foldl (fun failed row => if hasProcessStatus failed row then failed else failed ++ [row]) failed

/-- The report of `run_until_idle` on the rows that are left. -/
def reportRun (aggregate : DriverResult) (reason : String) (rows : List ProcessRow) (deadlocked : Bool) :
    RunUntilIdleResult :=
  let completed := rows.filter fun row => row.status = .succeeded ∨ row.status = .skipped
  let failed := addFailed (addFailed [] aggregate.failureRows)
    (rows.filter fun row => row.status = .failed ∨ row.status = .cancelled ∨ row.status = .timedOut ∨
      row.status = .retryWait)
  let waiting := rows.filter fun row => row.status = .waiting
  let allTerminal : Bool := rows ≠ [] ∧ rows.all fun row => row.status.isTerminal
  let reason := if allTerminal then "idle"
    else if aggregate.ticks = 0 ∧ ¬ aggregate.error.isOk then "failed" else reason
  let reason := if rows ≠ [] ∧ completed.length = rows.length then "idle" else reason
  let reason := if deadlocked ∧ reason = "idle" then "stopped" else reason
  { ok := ¬ deadlocked ∧ (reason = "idle" ∨ reason = "already_terminal" ∨ reason = "stopped")
    ticks := aggregate.ticks, stoppedReason := reason, completed, failed, waiting, deadlocked }

/-- Whether the run of the supplied rows is over. -/
def Supply.finished (s : Supply) : Session Database Bool :=
  if s.runId = "" then pure false
  else do
    let run ← .program (getRunRecord s.runId)
    return (RunStatus.ofValue run.status).isTerminal

/-- The wait diagnosis of the run, which only reads. -/
def Supply.diagnosed (s : Supply) (deadlocked : String → Database → Except String Bool) : Session Database Bool :=
  if s.runId = "" then pure false else .program (.query (deadlocked s.runId))

/-- The drive of a run that is not over. -/
def driveUnfinished (s : Supply) (stop : Bool) (fuel : Nat) : Session Database (Option DriverResult) :=
  if stop then pure (some { idle := true }) else driveUntilIdle digest outside s fuel

def stopReason (s : Supply) (stop : Bool) (aggregate : DriverResult) : String :=
  if stop then "stopped"
  else if s.maxTicks ≤ aggregate.ticks then "max_ticks"
  else if ¬ aggregate.error.isOk then "failed"
  else "idle"

/-- `run_until_idle` -/
def runUntilIdle (deadlocked : String → Database → Except String Bool) (s : Supply) (stop : Bool) (fuel : Nat) :
    Session Database (Option RunUntilIdleResult) := do
  .of s.check
  let finished ← s.finished
  if finished then return some { ok := true, ticks := 0, stoppedReason := "already_terminal" }
  else
    match ← driveUnfinished digest outside s stop fuel with
    | none => return none
    | some aggregate =>
      let rows ← s.durable
      let deadlocked ← s.diagnosed deadlocked
      return some (reportRun aggregate (stopReason s stop aggregate) rows deadlocked)

end
end Fala.Driver
