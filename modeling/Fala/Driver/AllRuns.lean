import Fala.Driver.Execution
import Fala.Driver.Finalization

/-! The driver of all runs that explicit bindings name. -/

namespace Fala.Driver
open Durable Journal

structure AdapterBinding where
  processId : String
  adapter : AdapterSpec
  runId : String := ""
  deriving DecidableEq

def AdapterBinding.key (b : AdapterBinding) : String × String := (b.runId, b.processId)

structure AllRunDriverResult where
  idle : Bool := true
  stopped : Bool := false
  bounded : Bool := false
  completed : Bool := false
  waiting : Bool := false
  failed : Bool := false
  timedOut : Bool := false
  cancelled : Bool := false
  ticks : Nat := 0
  runsScanned : Nat := 0
  rowsScanned : Nat := 0
  expiredLeases : Nat := 0
  missingMappings : Nat := 0
  unsupportedMappings : Nat := 0
  processId : String := ""
  error : AdapterError := {}
  deriving DecidableEq

/-- The arguments of `drive_all_runs`. -/
structure Drive where
  bindings : List AdapterBinding
  worker : Worker
  maxTicks : Int := 0
  stop : Bool := false
  deriving DecidableEq

namespace Drive

/-- `_binding_index`: the first binding of a process counts. -/
def binding? (d : Drive) (k : String × String) : Option AdapterBinding :=
  d.bindings.find? fun b => b.key = k

/-- The runs of the bindings, each at its first binding (`_binding_run_seen`). -/
def runs (d : Drive) : List String := (d.bindings.map AdapterBinding.runId).eraseDups

/-- The tick budget is used up. -/
def spent (d : Drive) (report : AllRunDriverResult) : Bool :=
  0 < d.maxTicks ∧ d.maxTicks ≤ report.ticks

/-- Bindings of one process must print the same adapter. -/
def checkAgreement (left right : AdapterBinding) : Except String Unit :=
  if right.key ≠ left.key then .ok ()
  else
    match left.adapter.json, right.adapter.json with
    | .ok leftJson, .ok rightJson =>
      if leftJson = rightJson then .ok ()
      else .error "driver: conflicting adapter bindings for process"
    | _, _ => .error "driver: invalid adapter binding"

def checkDuplicates : List AdapterBinding → Except String Unit
  | [] => .ok ()
  | binding :: rest => do
    rest.forM (checkAgreement binding)
    checkDuplicates rest

end Drive

/-- What the closing of expired leases has come to. -/
structure Sweep where
  report : AllRunDriverResult
  closureFailed : Bool := false
  deriving DecidableEq

namespace Sweep

def entered (s : Sweep) : Sweep :=
  { s with report.runsScanned := s.report.runsScanned + 1 }

def scanned (s : Sweep) : Sweep :=
  { s with report.rowsScanned := s.report.rowsScanned + 1 }

/-- A lease that was closed for good counts as a tick. -/
def closed (s : Sweep) (row maintained : ProcessRow) : Sweep :=
  let report := { s.report with expiredLeases := s.report.expiredLeases + 1 }
  if maintained.status = .failed ∨ maintained.status = .timedOut then
    ⟨{ report with
        failed := report.failed || maintained.status = .failed
        timedOut := report.timedOut || maintained.status = .timedOut
        ticks := report.ticks + 1
        processId := row.id
        idle := false }, true⟩
  else { s with report }

end Sweep

/-- What the search for the next row has come to: the best one, with its binding. -/
structure Scan where
  report : AllRunDriverResult
  best : Option (AdapterBinding × String × String) := none
  deriving DecidableEq

section
variable (digest : Json → String) (outside : Outside) (d : Drive)

def leaseMaintenance (row : ProcessRow) : Maintenance where
  workerId := row.leaseOwner
  now := d.worker.now
  retryAvailableAt := d.worker.now
  errorJson := leaseError "process lease expired"

def closeRow (row : ProcessRow) (s : Sweep) : Session Database Sweep :=
  if row.status = .running ∧ row.leaseOwner ≠ "" ∧ leaseExpired row d.worker.now then do
    let maintained ← .program (maintainProcess row (leaseMaintenance d row))
    return s.closed row maintained
  else return s

/-- The loop over the rows of one run, which a closure stops at the end of the tick budget. -/
def closeRows : List ProcessRow → Sweep → Session Database Sweep
  | [], s => return s
  | row :: rest, s => do
    let s' ← closeRow d row s.scanned
    if s'.report.ticks ≠ s.report.ticks ∧ d.spent s'.report then return s' else closeRows rest s'

def closeRuns : List String → Sweep → Session Database Sweep
  | [], s => return s
  | run :: rest, s => do
    let rows ← .program (listProcesses run)
    let s ← closeRows d rows s.entered
    if d.spent s.report then return s else closeRuns rest s

/-- A claimable row whose adapter is refused is reported, and is a candidate all the same. -/
def reportPreflight (report : AllRunDriverResult) (preflight : AdapterError) : AllRunDriverResult :=
  if preflight.isOk then report
  else { report with
          unsupportedMappings := report.unsupportedMappings + 1
          error := if report.error.isOk then preflight else report.error }

/-- A claimable row against the best row found so far, which is read again. -/
def rankRow (candidate : ProcessRow) (binding : AdapterBinding) (s : Scan) : Session Database Scan :=
  let report := reportPreflight s.report (binding.adapter.preflight outside.processHost)
  match s.best with
  | none => return ⟨report, some (binding, candidate.key)⟩
  | some (held, best) => do
    let currentBest ← .program (getProcess best.1 best.2)
    return ⟨report,
      some (if rowBefore candidate currentBest then (binding, candidate.key) else (held, best))⟩

def considerRow (candidate : ProcessRow) (s : Scan) : Session Database Scan :=
  match d.binding? candidate.key with
  | none => return { s with report.missingMappings := s.report.missingMappings + 1 }
  | some binding =>
    if rowClaimable candidate d.worker.now then rankRow outside candidate binding s else return s

def scanRows : List ProcessRow → Scan → Session Database Scan
  | [], s => return s
  | candidate :: rest, s => do
    let s ← considerRow outside d candidate s
    scanRows rest s

def scanRuns : List String → Scan → Session Database Scan
  | [], s => return s
  | run :: rest, s => do
    let rows ← .program (listProcesses run)
    let s ← scanRows outside d rows s
    scanRuns rest s

/-- The report after one more execution. -/
def reportOnce (report : AllRunDriverResult) (one : DriverResult) : AllRunDriverResult :=
  { report with
    ticks := report.ticks + one.ticks
    idle := false
    completed := report.completed || one.completed
    waiting := report.waiting || one.waiting
    failed := report.failed || one.failed
    timedOut := report.timedOut || one.timedOut
    cancelled := report.cancelled || one.cancelled
    processId := one.processId
    error := if one.error.isOk then report.error else one.error }

/-- How a turn of the loop ends: with another turn, or with a break. -/
inductive Turn where
  | again (report : AllRunDriverResult)
  | done (report : AllRunDriverResult)
  deriving DecidableEq

/-- The execution of the row that the search came to. -/
def driveBest (s : Scan) : Session Database Turn :=
  match s.best with
  | none => return .done s.report
  | some (binding, runId, processId) => do
    let selected ← .program (getProcess runId processId)
    let one ← driveOnce digest outside d.worker selected binding.adapter
    if one.ticks = 0 ∧ ¬ one.error.isOk then
      return .done { s.report with
        failed := true, idle := false, processId := one.processId, error := one.error }
    else return .again (reportOnce s.report one)

/-- The body of the loop. -/
def driveTurn (report : AllRunDriverResult) : Session Database Turn :=
  if d.stop then return .done { report with stopped := true }
  else if d.spent report then return .done { report with bounded := true }
  else do
    let sweep ← closeRuns d d.runs ⟨report, false⟩
    if d.spent sweep.report then return .done sweep.report
    else if sweep.closureFailed then return .again sweep.report
    else
      let scan ← scanRuns outside d d.runs ⟨sweep.report, none⟩
      driveBest digest outside d scan

/-- The loop, for as many turns as the fuel allows. -/
def driveTurns : Nat → AllRunDriverResult → Session Database (Option AllRunDriverResult)
  | 0, _ => return none
  | fuel + 1, report => do
    match ← driveTurn digest outside d report with
    | .done report => return some report
    | .again report => driveTurns fuel report

/-- An unsupported row that was found claimable makes a drive without ticks a failed one. -/
def concludeDrive (report : AllRunDriverResult) : AllRunDriverResult :=
  if report.ticks = 0 ∧ ¬ report.stopped then
    if 0 < report.unsupportedMappings then { report with failed := true, idle := false }
    else { report with idle := true }
  else report

def Drive.opening : AllRunDriverResult := { stopped := d.stop, bounded := 0 < d.maxTicks }

/-- The checks of the arguments, before the loop. -/
def Drive.check : Except String Unit :=
  if d.worker.id = "" then .error "driver: worker_id must not be empty"
  else if d.worker.now = "" then .error "driver: now must not be empty"
  else if d.maxTicks < 0 then .error "driver: max_ticks must be non-negative"
  else .ok ()

def Drive.checkBindings : Except String Unit :=
  if d.bindings.any fun b => b.runId = "" then
    .error "driver: all-run bindings require an explicit run_id"
  else Drive.checkDuplicates d.bindings

/-- `drive_all_runs`, with the fuel of its loop. -/
def driveAllRuns (fuel : Nat) : Session Database (Option AllRunDriverResult) := do
  .of d.check
  if d.stop ∨ d.bindings = [] then return some d.opening
  else
    .of d.checkBindings
    let report ← driveTurns digest outside d fuel d.opening
    return report.map concludeDrive

end
end Fala.Driver
