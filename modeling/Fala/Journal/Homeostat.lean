import Fala.Journal.Complete

namespace Fala.Journal
open Durable

def plainCommand (runId key commandType actor : String) (payload : Text) (at_ : String) :
    CommandRow where
  runId
  id := key
  commandType
  idempotencyKey := key
  actor
  correlationId := ""
  causationId := ""
  payload
  createdAt := at_

/-- The arguments of `park_homeostat_process`. -/
structure HomeostatPark where
  runId : String
  homeostatId : String
  processId : String
  actor : String
  at_ : String
  outputJson : Text := .braces
  metadataJson : Text := .braces
  idempotencyKey : String := ""
  deriving DecidableEq

namespace HomeostatPark

def key (p : HomeostatPark) : String :=
  if p.idempotencyKey ≠ "" then p.idempotencyKey else "homeostat.open:" ++ p.homeostatId

def payload (p : HomeostatPark) (output metadata : Text) : Text :=
  .template [("homeostat_id", .quote p.homeostatId), ("process_id", .quote p.processId),
    ("output", output), ("metadata", metadata)]

def homeostat (p : HomeostatPark) (output metadata : Text) (process : ProcessRow) : Homeostat where
  id := p.homeostatId
  runId := p.runId
  kind := "manual_homeostat"
  impulseId := process.impulseId
  status := "open"
  values := output
  metadata
  attempt := process.attempt
  maxAttempts := process.maxAttempts
  createdAt := p.at_
  updatedAt := p.at_

/-- The assigned columns of the parked row. -/
def update (p : HomeostatPark) (output : Text) (row : ProcessRow) : ProcessRow :=
  { row with
    status := .waiting
    outputJson := output
    errorJson := .braces
    leaseOwner := ""
    leaseExpiresAt := ""
    finishedAt := ""
    updatedAt := p.at_ }

def event (p : HomeostatPark) (key eventType : String) (payload : Text) (process : ProcessRow) :
    EventInput where
  id := key ++ ":event"
  eventType
  payload
  createdAt := p.at_
  impulseId := process.impulseId
  processId := p.processId
  actor := p.actor

end HomeostatPark

/-- The transaction of `park_homeostat_process`. -/
def parkBody (p : HomeostatPark) (output metadata : Text) : Sql Unit := do
  let payload := p.payload output metadata
  match ← commandByKey p.runId p.key with
  | some existing =>
    .require (existing.commandType = "homeostat.open" ∧ existing.payload = payload ∧
      existing.createdAt = p.at_) "journal: homeostat open idempotency conflict"
    let _ ← getProcess p.runId p.processId
    return ()
  | none =>
    let process ← readProcess p.runId p.processId
    .require (process.status = .running ∧ process.leaseOwner = p.actor)
      "journal: homeostat park requires an owned running process"
    let taken ← .fetch fun db => (db.homeostats.find? (p.runId, p.homeostatId)).isSome
    .require (!taken) "journal: homeostat already exists"
    insertHomeostat (p.homeostat output metadata process)
    let changes ← updateProcess p.runId p.processId
      (fun r => r.status = .running ∧ r.leaseOwner = p.actor) (p.update output)
    .require (changes = 1) "journal: homeostat park lost process ownership"
    insertCommand (plainCommand p.runId p.key "homeostat.open" p.actor payload p.at_)
    let _ ← appendEventInTx p.runId p.key (p.event p.key "homeostat.opened" payload process)
    let waitKey := p.key ++ ":process"
    insertCommand (plainCommand p.runId waitKey "process.wait" p.actor payload p.at_)
    let _ ← appendEventInTx p.runId waitKey (p.event waitKey "process.waiting" payload process)

/-- `park_homeostat_process` -/
def parkHomeostatProcess (p : HomeostatPark) : Sql ProcessRow := do
  requireRun p.runId
  .require (p.homeostatId ≠ "" ∧ p.processId ≠ "" ∧ p.actor ≠ "" ∧ p.at_ ≠ "")
    "journal: homeostat park requires ids, actor, and timestamp"
  let output ← .ofExcept (canonicalJsonField p.outputJson "homeostat output")
  let metadata ← .ofExcept (canonicalJsonField p.metadataJson "homeostat metadata")
  .transact (reraise ["homeostat open idempotency conflict", "homeostat open contents conflict"]
      ("journal: park homeostat process failed: " ++ ·)) (parkBody p output metadata)
  getProcess p.runId p.processId

/-- The arguments of `transition_homeostat_process`; the statuses are texts. -/
structure HomeostatTransition where
  runId : String
  homeostatId : String
  processId : String
  homeostatStatus : String
  processStatus : ProcessStatus
  actor : String
  at_ : String
  outputJson : Text := .braces
  errorJson : Text := .braces
  idempotencyKey : String := ""
  deriving DecidableEq

namespace HomeostatTransition

def commandType (t : HomeostatTransition) : String :=
  if t.homeostatStatus = "completed" then "homeostat.complete"
  else if t.homeostatStatus = "cancelled" then "homeostat.cancel"
  else "homeostat.expire"

def key (t : HomeostatTransition) : String :=
  if t.idempotencyKey ≠ "" then t.idempotencyKey else t.commandType ++ ":" ++ t.homeostatId

def payload (t : HomeostatTransition) (output error : Text) : Text :=
  .template [("homeostat_id", .quote t.homeostatId), ("process_id", .quote t.processId),
    ("status", .quote t.homeostatStatus), ("output", output), ("error", error)]

def statusesAgree (t : HomeostatTransition) : Bool :=
  (t.homeostatStatus = "completed" → t.processStatus = .succeeded) ∧
    (t.homeostatStatus = "cancelled" → t.processStatus = .cancelled) ∧
    (t.homeostatStatus = "expired" → t.processStatus = .timedOut)

/-- The assigned columns of the homeostat. -/
def updateHomeostat (t : HomeostatTransition) (output error : Text) (h : Homeostat) : Homeostat :=
  { h with
    status := t.homeostatStatus
    values := if t.processStatus = .succeeded then output else error
    updatedAt := t.at_ }

/-- The assigned columns of its process. -/
def update (t : HomeostatTransition) (output error : Text) (row : ProcessRow) : ProcessRow :=
  { row with
    status := t.processStatus
    outputJson := if t.processStatus = .succeeded then output else .braces
    errorJson := if t.processStatus ≠ .succeeded then error else .braces
    finishedAt := t.at_
    updatedAt := t.at_ }

def event (t : HomeostatTransition) (id eventType : String) (payload : Text)
    (process : ProcessRow) : EventInput where
  id
  eventType
  payload
  createdAt := t.at_
  impulseId := process.impulseId
  processId := t.processId
  actor := t.actor

end HomeostatTransition

/-- The transaction of `transition_homeostat_process`. -/
def transitionHomeostatBody (t : HomeostatTransition) (output error : Text) : Sql Unit := do
  let payload := t.payload output error
  match ← commandByKey t.runId t.key with
  | some existing =>
    .require (existing.commandType = t.commandType ∧ existing.payload = payload ∧
      existing.createdAt = t.at_) "journal: homeostat transition idempotency conflict"
    let _ ← getProcess t.runId t.processId
    return ()
  | none =>
    match ← .fetch fun db => db.homeostats.find? (t.runId, t.homeostatId) with
    | none => .raise "journal: homeostat not found"
    | some homeostat =>
      .require (homeostat.status = "open") "journal: homeostat is not open"
      let process ← readProcess t.runId t.processId
      .require (process.status = .waiting ∧ process.leaseOwner = "" ∧ process.leaseExpiresAt = "")
        "journal: homeostat transition requires an unleased waiting process"
      let changes ← updateHomeostat t.runId t.homeostatId (fun h => h.status = "open")
        (t.updateHomeostat output error)
      .require (changes = 1) "journal: homeostat transition lost ownership"
      let changes ← updateProcess t.runId t.processId
        (fun r => r.status = .waiting ∧ r.leaseOwner = "") (t.update output error)
      .require (changes = 1) "journal: homeostat process transition lost ownership"
      insertCommand (plainCommand t.runId t.key t.commandType t.actor payload t.at_)
      let _ ← appendEventInTx t.runId t.key
        (t.event (t.key ++ ":event") ("homeostat." ++ t.homeostatStatus) payload process)
      let _ ← appendEventInTx t.runId t.key
        (t.event (t.key ++ ":process-event") ("process." ++ t.processStatus.value) payload process)

/-- `transition_homeostat_process` -/
def transitionHomeostatProcess (t : HomeostatTransition) : Sql ProcessRow := do
  requireRun t.runId
  .require (t.homeostatStatus = "completed" ∨ t.homeostatStatus = "cancelled" ∨
    t.homeostatStatus = "expired") "journal: invalid homeostat terminal status"
  .require (t.processStatus = .succeeded ∨ t.processStatus = .cancelled ∨
    t.processStatus = .timedOut) "journal: invalid homeostat process status"
  .require t.statusesAgree "journal: homeostat and process terminal statuses must agree"
  .require (t.homeostatId ≠ "" ∧ t.processId ≠ "" ∧ t.actor ≠ "" ∧ t.at_ ≠ "")
    "journal: homeostat transition requires ids, actor, and timestamp"
  let output ← .ofExcept (canonicalJsonField t.outputJson "homeostat output")
  let error ← .ofExcept (canonicalJsonField t.errorJson "homeostat error")
  .transact (reraise ["homeostat transition idempotency conflict"]
      ("journal: transition homeostat process failed: " ++ ·))
    (transitionHomeostatBody t output error)
  getProcess t.runId t.processId

/-- The arguments of `reopen_homeostat_process`. -/
structure HomeostatReopen where
  runId : String
  homeostatId : String
  processId : String
  actor : String
  at_ : String
  idempotencyKey : String := ""
  requireWaitingRun : Bool := false
  deriving DecidableEq

namespace HomeostatReopen

def key (r : HomeostatReopen) (homeostat : Homeostat) : String :=
  if r.idempotencyKey ≠ "" then r.idempotencyKey
  else "homeostat.reopen:" ++ r.homeostatId ++ ":" ++
    toString (if homeostat.status ≠ "open" then homeostat.attempt + 1 else homeostat.attempt)

def payload (r : HomeostatReopen) : Text :=
  .template [("homeostat_id", .quote r.homeostatId), ("process_id", .quote r.processId)]

def updateHomeostat (r : HomeostatReopen) (h : Homeostat) : Homeostat :=
  { h with status := "open", attempt := h.attempt + 1, updatedAt := r.at_ }

/-- The assigned columns of the reopened row. -/
def update (r : HomeostatReopen) (row : ProcessRow) : ProcessRow :=
  { row with
    status := .waiting
    outputJson := .braces
    errorJson := .braces
    availableAt := r.at_
    leaseOwner := ""
    leaseExpiresAt := ""
    finishedAt := ""
    updatedAt := r.at_ }

def event (r : HomeostatReopen) (id eventType : String) (process : ProcessRow) : EventInput where
  id
  eventType
  payload := r.payload
  createdAt := r.at_
  impulseId := process.impulseId
  processId := r.processId
  actor := r.actor

end HomeostatReopen

def rearmRequiresWaiting : String := "journal: homeostat rearm requires run status waiting"

/-- The run status that `require_waiting_run` asks for. -/
def requireRunWaiting (r : HomeostatReopen) : Sql Unit :=
  if r.requireWaitingRun then do
    match ← .fetch fun db => db.runs.find? r.runId with
    | none => .raise "journal: run not found"
    | some run => .require (run.status = "waiting") rearmRequiresWaiting
  else pure ()

/-- The transaction of `reopen_homeostat_process`. -/
def reopenBody (r : HomeostatReopen) : Sql Unit := do
  requireRunWaiting r
  match ← .fetch fun db => db.homeostats.find? (r.runId, r.homeostatId) with
  | none => .raise "journal: homeostat not found"
  | some homeostat =>
    let key := r.key homeostat
    match ← commandByKey r.runId key with
    | some existing =>
      .require (existing.commandType = "homeostat.reopen" ∧ existing.payload = r.payload ∧
        existing.createdAt = r.at_) "journal: homeostat reopen idempotency conflict"
      let _ ← getProcess r.runId r.processId
      return ()
    | none =>
      .require (homeostat.status = "completed" ∨ homeostat.status = "cancelled" ∨
        homeostat.status = "expired") "journal: homeostat is not terminal"
      .require (homeostat.attempt < homeostat.maxAttempts) "journal: homeostat attempts exhausted"
      let process ← readProcess r.runId r.processId
      .require (process.status = .succeeded ∨ process.status = .cancelled ∨
        process.status = .timedOut) "journal: process is not terminal"
      .require (process.attempt < process.maxAttempts) "journal: process attempts exhausted"
      let changes ← updateHomeostat r.runId r.homeostatId
        (fun h => h.status = homeostat.status ∧ h.attempt < h.maxAttempts) r.updateHomeostat
      .require (changes = 1) "journal: homeostat reopen lost ownership"
      let changes ← updateProcess r.runId r.processId
        (fun p => p.status = process.status ∧ p.attempt < p.maxAttempts) r.update
      .require (changes = 1) "journal: homeostat process reopen lost ownership"
      insertCommand (plainCommand r.runId key "homeostat.reopen" r.actor r.payload r.at_)
      let _ ← appendEventInTx r.runId key
        (r.event (key ++ ":event") "homeostat.reopened" process)
      let _ ← appendEventInTx r.runId key
        (r.event (key ++ ":process-event") "process.waiting" process)

/-- `reopen_homeostat_process` -/
def reopenHomeostatProcess (r : HomeostatReopen) : Sql ProcessRow := do
  requireRun r.runId
  .require (r.homeostatId ≠ "" ∧ r.processId ≠ "" ∧ r.actor ≠ "" ∧ r.at_ ≠ "")
    "journal: homeostat reopen requires ids, actor, and timestamp"
  .transact (reraise ["homeostat reopen idempotency conflict",
      "homeostat rearm requires run status waiting"]
      ("journal: reopen homeostat process failed: " ++ ·)) (reopenBody r)
  getProcess r.runId r.processId

/-- One child of a correlation transaction. -/
structure CorrelationChildTransition where
  processId : String
  targetStatus : String
  inputJson : Text
  errorJson : Text
  deriving DecidableEq

/-- What the children of one call share. -/
structure ChildrenCall where
  runId : String
  actor : String := "correlation"
  at_ : String := ""
  correlationId : String := ""
  causationId : String := ""
  deriving DecidableEq

namespace ChildrenCall

def key (child : CorrelationChildTransition) : String := "process.ready:" ++ child.processId

def transitionAt (c : ChildrenCall) (current : ProcessRow) : String :=
  if c.at_ ≠ "" then c.at_ else current.createdAt

def payload (child : CorrelationChildTransition) : Text :=
  .template [("process_id", .quote child.processId)]

def command (c : ChildrenCall) (child : CorrelationChildTransition) (current : ProcessRow) :
    CommandRow where
  runId := c.runId
  id := key child
  commandType := "process.ready"
  idempotencyKey := key child
  actor := c.actor
  correlationId := c.correlationId
  causationId := c.causationId
  payload := payload child
  createdAt := c.transitionAt current

def event (c : ChildrenCall) (child : CorrelationChildTransition) (current : ProcessRow) :
    EventInput where
  id := key child ++ ":event"
  eventType := "process.ready"
  payload := payload child
  createdAt := c.transitionAt current
  impulseId := current.impulseId
  processId := child.processId
  actor := c.actor
  correlationId := c.correlationId
  causationId := c.causationId

/-- The assigned columns of a promoted row. -/
def update (c : ChildrenCall) (child : CorrelationChildTransition) (current row : ProcessRow) :
    ProcessRow :=
  { row with
    status := .ready
    inputJson := if child.inputJson ≠ .empty then child.inputJson else row.inputJson
    updatedAt := c.transitionAt current }

end ChildrenCall

def childConflict : String := "journal: correlation child idempotency conflict"

def applyChild (c : ChildrenCall) (child : CorrelationChildTransition) : Sql ProcessRow := do
  .require (child.processId ≠ "") "journal: correlation child id must not be empty"
  .require (child.targetStatus = "ready") "journal: unsupported correlation child status"
  let current ← getProcess c.runId child.processId
  match ← commandByKey c.runId (ChildrenCall.key child) with
  | some existing =>
    .require (existing = { c.command child current with id := existing.id }) childConflict
    return current
  | none =>
    .require (current.status = .pending) "journal: correlation child is not pending"
    let changes ← updateProcess c.runId child.processId (fun r => r.status = .pending)
      (c.update child current)
    .require (changes = 1) "journal: correlation child transition lost ownership"
    insertCommand (c.command child current)
    let _ ← appendEventInTx c.runId (ChildrenCall.key child) (c.event child current)
    getProcess c.runId child.processId

def applyChildren (c : ChildrenCall) : List CorrelationChildTransition → Sql (List ProcessRow)
  | [] => return []
  | child :: rest => do
    let row ← applyChild c child
    return row :: (← applyChildren c rest)

/-- `apply_correlation_children` -/
def applyCorrelationChildren (c : ChildrenCall) (children : List CorrelationChildTransition) :
    Sql (List ProcessRow) := do
  requireRun c.runId
  .require (c.actor ≠ "") "journal: correlation actor must not be empty"
  .transact ("journal: correlation child transaction failed: " ++ ·) (applyChildren c children)

end Fala.Journal
