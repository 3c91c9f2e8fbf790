import Fala.Bridge.Operations
import Fala.Correlation.Advancement
import Fala.Driver.Finalization
import Fala.Durable.Session

/-! The reconciliation of durable rows with a correlation plan. What a round computes from the rows that it
    read is a function; what it writes then, and in which order, is here. -/

namespace Fala.Correlation
open Durable Journal
open Driver (listProcesses)

/-- What a round makes of a row that became ready. -/
inductive Decision where
  | promote (child : CorrelationChildTransition)
  | skip (processId at_ : String) (outputJson : Text)
  deriving DecidableEq

/-- The result of a round, decision after decision. -/
structure Round where
  decisions : List (Except String (Option Decision))
  diagnostic : CorrelationWaitDiagnostic

/-- A plan with the functions that are computed from it. -/
structure Reconciliation where
  runId : String
  processes : Nat
  validate : Except String Unit
  check : List ProcessRow → Except String Unit
  round : List ProcessRow → Except String Round

def markerName : String := "__correlation_wait_diagnostic"

/-- `_wait_marker_json` -/
def waitMarkerJson (d : CorrelationWaitDiagnostic) : Json :=
  (Json.obj [("blocked_process_ids", .arr (d.blockedProcessIds.map .str)), ("deadlocked", .bool d.deadlocked),
    ("reason", .str d.reason), ("code", .str d.code)]).canonical

/-- The row that holds the marker. -/
def markerHolder (d : CorrelationWaitDiagnostic) : Option String :=
  if d.code ≠ "" then d.blockedProcessIds.head? else none

def rewriteMetadata (runId id : String) (members : List (String × Json)) : Sql Unit := do
  let _ ← updateProcess runId id (fun _ => true)
    (fun r => { r with metadata := .printed (Json.obj members).canonical, updatedAt := "correlation.advance" })
  return ()

/-- The marker of one row, written or cleared. -/
def markRow (runId : String) (d : CorrelationWaitDiagnostic) (row : ProcessRow) : Sql Unit :=
  match row.metadata.parse with
  | some (.obj members) =>
    if markerHolder d = some row.id ∧ row.status = .pending then
      if (Json.lookup markerName members).map Json.canonical = some (waitMarkerJson d).canonical then pure ()
      else rewriteMetadata runId row.id (Bridge.setMember markerName (waitMarkerJson d) members)
    else if (Json.lookup markerName members).isSome then
      rewriteMetadata runId row.id (members.filter fun m => m.1 ≠ markerName)
    else pure ()
  | _ => .raise "correlation.advance.invalid_metadata: expected JSON object"

def markRows (runId : String) (d : CorrelationWaitDiagnostic) : List ProcessRow → Sql Unit
  | [] => return ()
  | row :: rest => do
    markRow runId d row
    markRows runId d rest

/-- `_persist_wait_diagnostic` -/
def persistWaitDiagnostic (runId : String) (d : CorrelationWaitDiagnostic) : Sql Unit := do
  let rows ← listProcesses runId
  .transact (fun _ => "correlation advance: wait diagnostic transaction failed") (markRows runId d rows)

/-- The loop over the readied rows: a skip is written at once, the promotions are collected. -/
def applyDecisions (runId : String) : List (Except String (Option Decision)) → List CorrelationChildTransition → Bool →
    Session Database (List CorrelationChildTransition × Bool)
  | [], children, changed => return (children, changed)
  | decision :: rest, children, changed => do
    match ← Session.of decision with
    | none => applyDecisions runId rest children changed
    | some (.promote child) => applyDecisions runId rest (children ++ [child]) changed
    | some (.skip processId at_ outputJson) =>
      .program (skipProcess runId processId "correlation" at_ outputJson ("process.skip:" ++ processId)).void
      applyDecisions runId rest children true

def promoteChildren (runId : String) (children : List CorrelationChildTransition) : Sql Unit :=
  if children = [] then pure () else (applyCorrelationChildren { runId } children).void

/-- One round of the fixed-point iteration. -/
def advanceRound (r : Reconciliation) : Session Database Bool := do
  let rows ← .program (listProcesses r.runId)
  let round ← .of (r.round rows)
  let (children, changed) ← applyDecisions r.runId round.decisions [] false
  .program (promoteChildren r.runId children)
  .program (persistWaitDiagnostic r.runId round.diagnostic)
  return changed || children ≠ []

def advanceRounds (r : Reconciliation) : Nat → Session Database Bool
  | 0 => return true
  | rounds + 1 => do
    let changed ← advanceRound r
    if changed then advanceRounds r rounds else return false

/-- `advance_correlation`, with the rows that it leaves. -/
def advanceCorrelation (r : Reconciliation) : Session Database (List ProcessRow) := do
  .of r.validate
  let initial ← .program (listProcesses r.runId)
  .of (r.check initial)
  let changed ← advanceRounds r (r.processes + 1)
  .require (!changed)
    "correlation.advance.nonconvergent at /processes: fixed-point iteration exceeded process count"
  .program (listProcesses r.runId)

end Fala.Correlation

/-! The durable rows of a correlation plan. What is computed from the plan is a function of it; what is written,
    and in which order, is here. -/

namespace Fala.Correlation
open Durable Journal
open Driver (listProcesses)

/-- What is scheduled of a planned process. -/
structure InitialRow where
  inputJson : Text
  metadata : Text
  outputSchemaJson : Text
  deriving DecidableEq

/-- A process of a plan, with what is computed of it. -/
structure PlannedProcess where
  id : String
  /-- It has direct upstreams. -/
  dependent : Bool
  initial : Except String InitialRow
  sameRow : ProcessRow → Except String Bool
  priority : Int := 0
  maxAttempts : Int := 1

/-- A plan with the functions that are computed from it. -/
structure Persistence where
  runId : String
  processes : List PlannedProcess
  validate : Except String Unit
  /-- The pending rows whose upstreams are all over, with their merged inputs. -/
  candidates : List ProcessRow → Except String (List (String × Text))
  readiness : List ProcessRow → Except String Unit

/-- `_find_row` -/
def findRow (rows : List ProcessRow) (processId : String) : Option ProcessRow := rows.find? fun r => r.id = processId

/-- The planned processes that have no row yet. -/
def Persistence.created (existing : List ProcessRow) : List PlannedProcess → Except String (List PlannedProcess)
  | [] => .ok []
  | item :: rest =>
    match findRow existing item.id with
    | none => (Persistence.created existing rest).map (item :: ·)
    | some row => do
      if ← item.sameRow row then Persistence.created existing rest
      else .error ("correlation.persistence.duplicate_conflict at /processes/" ++ item.id ++
        ": existing durable row conflicts with plan")

def PlannedProcess.schedule (item : PlannedProcess) (runId createdAt : String) (row : InitialRow) : ProcessSchedule where
  runId := runId
  processId := item.id
  processType := "correlation.effector"
  createdAt := createdAt
  inputJson := row.inputJson
  metadata := row.metadata
  priority := item.priority
  maxAttempts := item.maxAttempts
  outputSchemaJson := row.outputSchemaJson

def scheduleCreated (runId createdAt : String) : List PlannedProcess → Session Database Unit
  | [] => return ()
  | item :: rest => do
    let row ← .of item.initial
    .program (scheduleProcess (item.schedule runId createdAt row)).void
    scheduleCreated runId createdAt rest

def markPending (runId id : String) : Sql Unit := do
  let _ ← updateProcess runId id (fun r => r.status = .ready) (fun r => { r with status := .pending })
  return ()

def markReady (runId id : String) (inputJson : Text) : Sql Unit := do
  let _ ← updateProcess runId id (fun r => r.status = .pending) (fun r => { r with status := .ready, inputJson })
  return ()

/-- The dependents of a plan wait for their upstreams. -/
def initializeDependents (runId : String) : List PlannedProcess → Sql Unit
  | [] => return ()
  | item :: rest => do
    if item.dependent then markPending runId item.id
    initializeDependents runId rest

/-- `_persist_new_rows`: each row is scheduled on its own, then the dependents are set back together. -/
def persistNewRows (runId createdAt : String) (created : List PlannedProcess) : Session Database Unit := do
  scheduleCreated runId createdAt created
  .program (.transact (fun _ => "correlation persistence: pending initialization failed")
    (initializeDependents runId created))

def readyCandidates (runId : String) : List (String × Text) → Sql Unit
  | [] => return ()
  | (id, inputJson) :: rest => do
    markReady runId id inputJson
    readyCandidates runId rest

/-- `refresh_correlation_readiness`, with the rows that it leaves. -/
def refreshCorrelationReadiness (p : Persistence) : Session Database (List ProcessRow) := do
  .of p.validate
  let rows ← .program (listProcesses p.runId)
  let candidates ← .of (p.candidates rows)
  .program (.transact (fun _ => "correlation persistence: readiness reconciliation failed")
    (readyCandidates p.runId candidates))
  let rows ← .program (listProcesses p.runId)
  .of (p.readiness rows)
  return rows

/-- `persist_correlation_plan` -/
def persistCorrelationPlan (p : Persistence) (createdAt : String) : Session Database (List ProcessRow) := do
  .of p.validate
  let existing ← .program (listProcesses p.runId)
  let created ← .of (Persistence.created existing p.processes)
  if created ≠ [] then persistNewRows p.runId createdAt created
  refreshCorrelationReadiness p

end Fala.Correlation
