import Fala.Driver.Kept

/-! The driver of the processes of a correlation plan: each tick reconciles the rows with the plan and executes one
    of them, and at the end the status of the run is recorded. -/

namespace Fala.Driver
open Durable Journal
open Correlation (Reconciliation advanceCorrelation)

/-- The arguments of `drive_correlation_until_idle`. -/
structure CorrelationDrive where
  processes : List ProcessRow
  adapters : List AdapterSpec
  worker : Worker
  maxTicks : Int
  plan : Reconciliation

/-- `advance_after_terminal`, of which no process is named. -/
def advanceAfterTerminal (r : Reconciliation) : Session Database (List ProcessRow) := do
  .require (r.runId ≠ "") "driver: correlation plan run_id must not be empty"
  advanceCorrelation r

/-- The error of an advancement, as the driver raises it. -/
def advancing (advance : Session Database (List ProcessRow)) : Session Database (List ProcessRow) :=
  advance.handle fun error => .raise ("driver: correlation advancement failed: " ++ error)

namespace CorrelationDrive

def check (d : CorrelationDrive) : Except String Unit :=
  if d.maxTicks < 1 then .error "driver: max_ticks must be greater than zero"
  else if d.processes.length ≠ d.adapters.length then .error "driver: process and adapter lists differ in length"
  else .ok ()

/-- `_supplied_process_index`, with the adapter under it. -/
def adapter? (d : CorrelationDrive) (id : String) : Option AdapterSpec :=
  ((d.processes.zip d.adapters).find? fun p => p.1.runId = d.plan.runId ∧ p.1.id = id).map Prod.snd

/-- Every durable row needs an adapter. -/
def currentAdapters (d : CorrelationDrive) : List ProcessRow → Except String (List AdapterSpec)
  | [] => .ok []
  | row :: rest =>
    match d.adapter? row.id with
    | none => .error ("driver: correlation adapter mapping missing for " ++ row.id)
    | some adapter => (d.currentAdapters rest).map (adapter :: ·)

/-- The durable rows as the supply of a drive of one tick. -/
def current (d : CorrelationDrive) (rows : List ProcessRow) (adapters : List AdapterSpec) : Supply where
  processes := rows
  adapters := adapters
  worker := d.worker
  maxTicks := 1

/-- What the caller supplied, for the report at the end. -/
def supply (d : CorrelationDrive) : Supply := d.current d.processes d.adapters

/-- Some process failed, or was cancelled or timed out. -/
def hasFailure (rows : List ProcessRow) : Bool :=
  rows.any fun r => r.status = .failed ∨ r.status = .cancelled ∨ r.status = .timedOut

def allSucceeded (rows : List ProcessRow) : Bool :=
  rows ≠ [] ∧ rows.all fun r => r.status = .succeeded ∨ r.status = .skipped

/-- The final report, with the reason that the rows and the ticks call for. -/
def conclude (d : CorrelationDrive) (ticks : Nat) (last : DriverResult) (rows : List ProcessRow)
    (report : RunUntilIdleResult) : RunUntilIdleResult :=
  let final := { report with ticks }
  if hasFailure rows then { final with ok := false, stoppedReason := "failed" }
  else if allSucceeded rows then { final with ok := true, stoppedReason := "idle" }
  else if final.deadlocked then { final with ok := false, stoppedReason := "stopped" }
  else if final.stoppedReason = "already_terminal" then { final with ok := true }
  else if d.maxTicks ≤ ticks then { final with ok := false, stoppedReason := "max_ticks" }
  else if last.ticks = 0 ∧ final.stoppedReason = "idle" then { final with ok := true, stoppedReason := "idle" }
  else final

def finalization (d : CorrelationDrive) (report : RunUntilIdleResult) : RunFinalization where
  runId := d.plan.runId
  stoppedReason := report.stoppedReason
  maxTicks := d.maxTicks
  now := d.worker.now

end CorrelationDrive

section
variable (digest : Json → String) (outside : Outside) (deadlocked : String → Database → Except String Bool)
  (d : CorrelationDrive) (fuel : Nat)

/-- One pass of the loop. -/
def driveTick : Session Database (Option DriverResult) := do
  let _ ← advancing (advanceCorrelation d.plan)
  let before ← .program (listProcesses d.plan.runId)
  let adapters ← .of (d.currentAdapters before)
  driveUntilIdle digest outside (d.current before adapters) fuel

/-- The loop; a pass that goes on makes at least one tick, so there are no more passes than ticks. -/
def driveTicks : Nat → Nat → DriverResult → Session Database (Option (Nat × DriverResult))
  | 0, ticks, last => return some (ticks, last)
  | passes + 1, ticks, last =>
    if d.maxTicks ≤ ticks then return some (ticks, last)
    else do
      match ← driveTick digest outside d fuel with
      | none => return none
      | some result =>
        if result.ticks = 0 then return some (ticks, result)
        else driveTicks passes (ticks + result.ticks) result

/-- The report on the rows that the loop leaves, which are reconciled once more. -/
def reportDrive (ticks : Nat) (last : DriverResult) : Session Database (Option RunUntilIdleResult) := do
  let _ ← advancing (advanceAfterTerminal d.plan)
  match ← runUntilIdle digest outside deadlocked d.supply true fuel with
  | none => return none
  | some report =>
    let rows ← .program (listProcesses d.plan.runId)
    return some (d.conclude ticks last rows report)

/-- `drive_correlation_until_idle` up to the call of `finalize_run`. -/
def driveCorrelation : Session Database (Option RunUntilIdleResult) := do
  .of d.check
  match ← driveTicks digest outside d fuel d.maxTicks.toNat 0 { idle := true } with
  | none => return none
  | some (ticks, last) => reportDrive digest outside deadlocked d fuel ticks last

end
end Fala.Driver
