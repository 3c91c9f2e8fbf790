import Fala.Bridge.Operations

/-! The lifecycle writes of the host, which go past the operations of the journal. A stored process
    status is one of the known ones here, as it is in every process row. -/

namespace Fala.Host
open Durable

def quoteIdent (value : String) : String := "'" ++ value ++ "'"

def runIdBlank : String := "fala journal: run_id must not be blank"
def processIdBlank : String := "fala journal: process_id must not be blank"
def invalidStatus (status : String) : String := "fala journal: invalid status " ++ quoteIdent status
def runNotFound (runId : String) : String := "fala journal: run " ++ quoteIdent runId ++ " not found"

/-- `ProcessStatus(value)`, for a text that `is_known` accepts. -/
def processStatus (value : String) : Option ProcessStatus :=
  [ProcessStatus.pending, .ready, .running, .waiting, .retryWait, .succeeded, .failed, .skipped,
    .cancelRequested, .cancelled, .timedOut].find? fun status => status.value = value

def terminalRun (value : String) : Bool := (RunStatus.ofValue value).isTerminal

/-- `_require_transition_run` -/
def requireTransitionRun (current target : String) : Sql Unit :=
  .require (current = target ∨ canTransitionRun (.ofValue current) (.ofValue target))
    ("fala journal: unsafe run transition " ++ quoteIdent current ++ " -> " ++ quoteIdent target)

/-- `_require_transition_process` -/
def requireTransitionProcess (current target : ProcessStatus) : Sql Unit :=
  .require (current = target ∨ canTransitionProcess current target)
    ("fala journal: unsafe process transition " ++ quoteIdent current.value ++ " -> " ++
      quoteIdent target.value)

/-- The finish time of a row that a host write leaves. -/
def finishedAt (terminal : Bool) (now : String) : String := if terminal then now else ""

/-- The arguments of `upsert_run_metadata`; an absent title is `none`. -/
structure RunUpsert where
  runId : String
  status : String
  metadata : String
  now : String
  title : Option String
  deriving DecidableEq

namespace RunUpsert

def inserted (u : RunUpsert) : RunRecord where
  id := u.runId
  status := u.status
  title := if u.title.any (· ≠ "") then u.title.getD "" else u.runId
  identity := {}
  schemaVersion := 6
  metadata := u.metadata
  createdAt := u.now
  updatedAt := u.now
  startedAt := ""
  finishedAt := Host.finishedAt (terminalRun u.status) u.now

def updated (u : RunUpsert) (run : RunRecord) : RunRecord :=
  { run with
    status := u.status
    title := u.title.getD run.title
    metadata := u.metadata
    updatedAt := u.now
    finishedAt := Host.finishedAt (terminalRun u.status) u.now }

end RunUpsert

def upsertRunBody (u : RunUpsert) : Sql Unit := do
  match ← .fetch fun db => db.runs.find? u.runId with
  | none => insertRun u.inserted
  | some run =>
    if terminalRun run.status then
      .require (u.status = run.status ∧ u.title.getD run.title = run.title ∧ u.metadata = run.metadata)
        ("fala journal: terminal run " ++ quoteIdent u.runId ++ " cannot be overwritten or reopened")
    else do
      requireTransitionRun run.status u.status
      let _ ← updateRun u.runId (fun _ => true) u.updated
      return ()

/-- `upsert_run_metadata` -/
def upsertRunMetadata (u : RunUpsert) : Sql Unit := do
  .require (u.runId ≠ "") runIdBlank
  .require (RunStatus.ofValue u.status).isKnown (invalidStatus u.status)
  .transact id (upsertRunBody u)

/-- The JSON library, as far as the host uses it. -/
structure HostJson where
  parse : String → Option Json
  print : Json → String

/-- `_merge_metadata` -/
def mergeMetadata (json : HostJson) (stored updates : String) : Except String String :=
  let held := match json.parse stored with
    | some (.obj members) => members
    | _ => []
  match json.parse updates with
  | none => .error "invalid JSON"
  | some (.obj members) =>
    .ok (json.print (.obj (members.foldl (fun merged m => Bridge.setMember m.1 m.2 merged) held)))
  | some _ => .ok (json.print (.obj held))

/-- The arguments of `transition_run`. -/
structure RunMove where
  runId : String
  status : String
  updates : String
  now : String
  deriving DecidableEq

def RunMove.updated (m : RunMove) (metadata : String) (run : RunRecord) : RunRecord :=
  { run with
    status := m.status
    metadata
    updatedAt := m.now
    finishedAt := finishedAt (terminalRun m.status) m.now }

def transitionRunBody (json : HostJson) (m : RunMove) : Sql Unit := do
  match ← .fetch fun db => db.runs.find? m.runId with
  | none => .raise (runNotFound m.runId)
  | some run =>
    requireTransitionRun run.status m.status
    let encoded ← .ofExcept (mergeMetadata json run.metadata m.updates)
    if run.status = m.status ∧ encoded = run.metadata then return ()
    else do
      .require (¬ terminalRun run.status)
        ("fala journal: terminal run " ++ quoteIdent m.runId ++ " cannot be overwritten")
      let _ ← updateRun m.runId (fun _ => true) (m.updated encoded)
      return ()

/-- `transition_run` -/
def transitionRun (json : HostJson) (m : RunMove) : Sql Unit := do
  .require (m.runId ≠ "") runIdBlank
  .require (RunStatus.ofValue m.status).isKnown (invalidStatus m.status)
  .transact id (transitionRunBody json m)

/-- The arguments of `upsert_process`. -/
structure ProcessUpsert where
  runId : String
  processId : String
  status : String
  processType : String
  attempt : Int
  inputJson : Text
  outputJson : Text
  errorJson : Text
  metadata : Text
  now : String
  deriving DecidableEq

namespace ProcessUpsert

def inserted (u : ProcessUpsert) (status : ProcessStatus) : ProcessRow where
  runId := u.runId
  id := u.processId
  processType := u.processType
  impulseId := ""
  status
  priority := 0
  attempt := u.attempt
  maxAttempts := 1
  availableAt := u.now
  leaseOwner := ""
  leaseExpiresAt := ""
  inputJson := u.inputJson
  outputJson := u.outputJson
  errorJson := u.errorJson
  metadata := u.metadata
  createdAt := u.now
  updatedAt := u.now
  startedAt := u.now
  finishedAt := Host.finishedAt status.isTerminal u.now
  outputSchemaJson := .braces

def updated (u : ProcessUpsert) (status : ProcessStatus) (row : ProcessRow) : ProcessRow :=
  { row with
    processType := u.processType
    status
    attempt := u.attempt
    inputJson := u.inputJson
    outputJson := u.outputJson
    errorJson := u.errorJson
    metadata := u.metadata
    leaseOwner := ""
    leaseExpiresAt := ""
    updatedAt := u.now
    finishedAt := Host.finishedAt status.isTerminal u.now }

/-- The stored row is what the call asks for. -/
def same (u : ProcessUpsert) (status : ProcessStatus) (row : ProcessRow) : Bool :=
  status = row.status ∧ u.processType = row.processType ∧ u.attempt = row.attempt ∧
    u.inputJson = row.inputJson ∧ u.outputJson = row.outputJson ∧ u.errorJson = row.errorJson ∧
      u.metadata = row.metadata

end ProcessUpsert

/-- The row without its lease. -/
def unleased (row : ProcessRow) : ProcessRow := { row with leaseOwner := "", leaseExpiresAt := "" }

def leased (row : ProcessRow) : Bool := row.leaseOwner ≠ "" ∨ row.leaseExpiresAt ≠ ""

/-- The lease of a row that a replay finds is cleared. -/
def clearLease (runId processId : String) (row : ProcessRow) : Sql Unit :=
  if leased row then do
    let _ ← updateProcess runId processId (fun _ => true) unleased
    return ()
  else return ()

def upsertProcessBody (u : ProcessUpsert) (status : ProcessStatus) : Sql Unit := do
  let known ← .fetch fun db => (db.runs.find? u.runId).isSome
  .require known (runNotFound u.runId)
  match ← .fetch fun db => db.processes.find? (u.runId, u.processId) with
  | none => insertProcess (u.inserted status)
  | some row =>
    if row.status.isTerminal then do
      .require (u.same status row) ("fala journal: terminal process " ++ quoteIdent u.processId ++
        " cannot be overwritten or reopened")
      clearLease u.runId u.processId row
    else do
      requireTransitionProcess row.status status
      .require (¬ (status = .waiting ∧ leased row))
        ("fala journal: leased process " ++ quoteIdent u.processId ++ " cannot be upserted as waiting")
      let _ ← updateProcess u.runId u.processId (fun _ => true) (u.updated status)
      return ()

/-- `upsert_process` -/
def upsertProcess (u : ProcessUpsert) : Sql Unit := do
  .require (u.runId ≠ "") runIdBlank
  .require (u.processId ≠ "") processIdBlank
  .require (u.processType ≠ "") "fala journal: process_type must not be blank"
  .require (1 ≤ u.attempt) "fala journal: attempt must be a positive integer"
  match processStatus u.status with
  | none => .raise (invalidStatus u.status)
  | some status => .transact id (upsertProcessBody u status)

/-- The arguments of `complete_waiting_process`; `blockerId` is `none` without a blocker. -/
structure Completion where
  runId : String
  processId : String
  processStatus : String
  runStatus : String
  blockerId : Option String
  blockerStatus : String
  outputJson : Text
  now : String
  deriving DecidableEq

namespace Completion

def expectedProcess (c : Completion) : String :=
  if c.blockerStatus = "cancelled" then "cancelled"
  else if c.blockerStatus = "expired" then "timed_out"
  else "succeeded"

def expectedRun (c : Completion) : String :=
  if c.processStatus = "cancelled" then "cancelled"
  else if c.processStatus = "timed_out" then "timed_out"
  else if c.processStatus ≠ "succeeded" then "failed"
  else "completed"

def updated (c : Completion) (status : ProcessStatus) (row : ProcessRow) : ProcessRow :=
  { row with
    status
    outputJson := c.outputJson
    leaseOwner := ""
    leaseExpiresAt := ""
    updatedAt := c.now
    finishedAt := c.now }

def resolved (c : Completion) (h : Homeostat) : Homeostat :=
  { h with status := c.blockerStatus, values := c.outputJson, updatedAt := c.now }

def finished (c : Completion) (run : RunRecord) : RunRecord :=
  { run with status := c.runStatus, updatedAt := c.now, finishedAt := c.now }

/-- The blocker stands as the completion is to leave it. -/
def blocked (c : Completion) (h : Homeostat) : Bool :=
  h.status = c.blockerStatus ∧ h.values = c.outputJson

/-- The stored rows are what the completion asks for. -/
def exact (c : Completion) (status : ProcessStatus) (row : ProcessRow) (run : RunRecord)
    (blocker : Option Homeostat) : Bool :=
  row.status = status ∧ row.outputJson = c.outputJson ∧ run.status = c.runStatus ∧
    blocker.all c.blocked

/-- `_lifecycle_json` -/
def lifecycleJson (c : Completion) (changed : Bool) : Text :=
  .template [("run_id", .quote c.runId), ("process_id", .quote c.processId),
    ("changed", .printed (.bool changed)), ("process_status", .quote c.processStatus),
    ("run_status", .quote c.runStatus)]

end Completion

/-- The blocker of a completion that names one. -/
def blockerOf (c : Completion) : Sql (Option Homeostat) :=
  match c.blockerId with
  | none => return none
  | some id => do
    match ← .fetch fun db => db.homeostats.find? (c.runId, id) with
    | none => .raise ("fala journal: blocker " ++ quoteIdent id ++ " not found")
    | some blocker => return some blocker

/-- An open blocker is closed with the completion. -/
def closeBlocker (c : Completion) : Option Homeostat → Sql Unit
  | none => return ()
  | some blocker =>
    if blocker.status = "open" then do
      let changes ← updateHomeostat c.runId blocker.id (fun h => h.status = "open") c.resolved
      .require (changes = 1) "fala journal: blocker completion lost compare-and-set"
    else return ()

/-- The writes of a completion, once nothing conflicts with it. -/
def completeRows (c : Completion) (status : ProcessStatus) (run : RunRecord)
    (blocker : Option Homeostat) : Sql Unit := do
  let changes ← updateProcess c.runId c.processId
    (fun row => row.status = .waiting ∧ row.leaseOwner = "" ∧ row.leaseExpiresAt = "")
    (c.updated status)
  .require (changes = 1) "fala journal: process completion lost compare-and-set"
  closeBlocker c blocker
  let changes ← updateRun c.runId (fun run => ¬ terminalRun run.status) c.finished
  .require (changes = 1 ∨ run.status = c.runStatus)
    "fala journal: run completion lost compare-and-set"

def completeWaitingBody (c : Completion) (status : ProcessStatus) : Sql Text := do
  match ← .fetch fun db => db.processes.find? (c.runId, c.processId) with
  | none => .raise ("fala journal: process " ++ quoteIdent c.processId ++ " not found")
  | some row =>
    match ← .fetch fun db => db.runs.find? c.runId with
    | none => .raise (runNotFound c.runId)
    | some run =>
      let blocker ← blockerOf c
      if row.status ≠ .waiting then do
        .require (c.exact status row run blocker)
          "fala journal: completion conflicts with durable lifecycle state"
        clearLease c.runId c.processId row
        return c.lifecycleJson (leased row)
      else do
        .require (¬ leased row)
          "fala journal: waiting process must be wholly unleased before completion"
        .require (¬ (terminalRun run.status ∧ run.status ≠ c.runStatus))
          "fala journal: completion conflicts with terminal run"
        .require (blocker.all fun h => h.status = "open" || c.blocked h)
          "fala journal: completion conflicts with terminal blocker"
        completeRows c status run blocker
        return c.lifecycleJson true

/-- `complete_waiting_process` -/
def completeWaitingProcess (c : Completion) : Sql Text := do
  .require (c.runId ≠ "") runIdBlank
  .require (c.processId ≠ "") processIdBlank
  match (processStatus c.processStatus).filter ProcessStatus.isTerminal with
  | none => .raise ("fala journal: invalid process_status " ++ quoteIdent c.processStatus)
  | some status =>
    .require (terminalRun c.runStatus)
      ("fala journal: invalid run_status " ++ quoteIdent c.runStatus)
    .require (c.blockerStatus = "completed" ∨ c.blockerStatus = "cancelled" ∨
      c.blockerStatus = "expired")
      ("fala journal: invalid blocker_status " ++ quoteIdent c.blockerStatus)
    .require (c.expectedProcess = c.processStatus)
      ("fala journal: blocker/process terminal pairing " ++ quoteIdent c.blockerStatus ++ "/" ++
        quoteIdent c.processStatus ++ " is invalid")
    .require (c.expectedRun = c.runStatus)
      ("fala journal: process/run terminal pairing " ++ quoteIdent c.processStatus ++ "/" ++
        quoteIdent c.runStatus ++ " is invalid")
    .transact id (completeWaitingBody c status)

/-- The arguments of `record_process_start`. -/
structure ProcessStart where
  runId : String
  processId : String
  processType : String
  inputJson : Text
  metadata : Text
  now : String
  deriving DecidableEq

def ProcessStart.row (s : ProcessStart) : ProcessRow where
  runId := s.runId
  id := s.processId
  processType := s.processType
  impulseId := ""
  status := .running
  priority := 0
  attempt := 1
  maxAttempts := 1
  availableAt := s.now
  leaseOwner := ""
  leaseExpiresAt := ""
  inputJson := s.inputJson
  outputJson := .braces
  errorJson := .braces
  metadata := s.metadata
  createdAt := s.now
  updatedAt := s.now
  startedAt := s.now
  finishedAt := ""
  outputSchemaJson := .braces

def recordStartBody (s : ProcessStart) : Sql Unit := do
  let known ← .fetch fun db => (db.runs.find? s.runId).isSome
  .require known ("fala.record_in_process: unknown run: " ++ s.runId)
  insertProcess s.row

/-- `record_process_start` -/
def recordProcessStart (s : ProcessStart) : Sql Unit := do
  .require (s.runId ≠ "" ∧ s.processId ≠ "" ∧ s.processType ≠ "")
    "fala.record_in_process: run_id, process_id, and process_type must not be blank"
  .transact id (recordStartBody s)

/-- The arguments of `record_process_finish`. -/
structure ProcessFinish where
  runId : String
  processId : String
  status : String
  outputJson : Text
  errorJson : Text
  now : String
  deriving DecidableEq

def ProcessFinish.updated (f : ProcessFinish) (status : ProcessStatus) (row : ProcessRow) :
    ProcessRow :=
  { row with
    status
    outputJson := f.outputJson
    errorJson := f.errorJson
    updatedAt := f.now
    finishedAt := f.now }

def recordFinishBody (f : ProcessFinish) (status : ProcessStatus) : Sql Unit := do
  let changes ← updateProcess f.runId f.processId (fun row => row.status = .running) (f.updated status)
  .require (changes = 1) "fala.record_in_process: active process row disappeared"

/-- `record_process_finish`. The source stores the status as it is given, known or not; no row here
    has a status that is not known. -/
def recordProcessFinish (f : ProcessFinish) : Sql Unit :=
  match processStatus f.status with
  | none => .raise "no row has this status"
  | some status => .transact id (recordFinishBody f status)

end Fala.Host
