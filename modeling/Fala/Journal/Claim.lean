import Mathlib.Data.List.Sort
import Fala.Journal.Commands

namespace Fala.Journal
open Durable

/-! Claims. Timestamps are texts, compared as SQLite compares them. -/

/-- `lease_expires_at IS NOT NULL AND lease_expires_at<=?` -/
def leaseExpired (row : ProcessRow) (now : String) : Bool :=
  row.leaseExpiresAt ≠ "" ∧ row.leaseExpiresAt ≤ now

/-- The rows that a claim may take. -/
def claimable (row : ProcessRow) (now : String) : Bool :=
  row.attempt < row.maxAttempts ∧
    (row.status = .ready ∨ (row.status = .retryWait ∧ row.availableAt ≤ now) ∨
      (row.status = .running ∧ leaseExpired row now))

/-- `ORDER BY priority DESC,available_at ASC,created_at ASC,id ASC` -/
def queueBefore (left right : ProcessRow) : Bool :=
  if left.priority ≠ right.priority then right.priority < left.priority
  else if left.availableAt ≠ right.availableAt then left.availableAt < right.availableAt
  else if left.createdAt ≠ right.createdAt then left.createdAt < right.createdAt
  else left.id ≤ right.id

def queueOrder (rows : List ProcessRow) : List ProcessRow :=
  rows.insertionSort fun left right => queueBefore left right

/-- The assigned columns of a claimed row. -/
def claimUpdate (workerId now leaseExpiresAt : String) (row : ProcessRow) : ProcessRow :=
  { row with
    status := .running
    attempt := row.attempt + 1
    leaseOwner := workerId
    leaseExpiresAt
    startedAt := if row.startedAt = "" then now else row.startedAt
    updatedAt := now }

/-- The row selection of `claim_process` and of `claim_next_ready`: one run, or all runs. -/
structure ClaimRequest where
  workerId : String
  now : String
  leaseExpiresAt : String
  idempotencyKey : String := ""
  deriving DecidableEq

namespace ClaimRequest

def commandId (c : ClaimRequest) (row : ProcessRow) : String :=
  if c.idempotencyKey ≠ "" then c.idempotencyKey
  else "process.claim:" ++ row.id ++ ":" ++ toString row.attempt

def payload (c : ClaimRequest) (row : ProcessRow) : Text :=
  .template [("process_id", .quote row.id), ("worker_id", .quote c.workerId),
    ("attempt", .number row.attempt), ("lease_expires_at", .quote c.leaseExpiresAt)]

def command (c : ClaimRequest) (row : ProcessRow) : CommandRow where
  runId := row.runId
  id := c.commandId row
  commandType := "process.claim"
  idempotencyKey := c.commandId row
  actor := c.workerId
  correlationId := ""
  causationId := ""
  payload := c.payload row
  createdAt := c.now

def event (c : ClaimRequest) (row : ProcessRow) : EventInput where
  id := c.commandId row ++ ":event"
  eventType := "process.claimed"
  payload := c.payload row
  createdAt := c.now
  impulseId := row.impulseId
  processId := row.id
  actor := c.workerId

end ClaimRequest

def notClaimable : String := "journal: process is not claimable or its attempts are exhausted"
def claimConflict : String := "journal: claim idempotency conflict"
def claimReplayMissing : String := "journal: claim replay payload missing process_id"

/-- The update of a claim with the command and the event that record it. -/
def claimRow (runId processId : String) (c : ClaimRequest) : Sql ProcessRow := do
  let changes ← updateProcess runId processId (claimable · c.now)
    (claimUpdate c.workerId c.now c.leaseExpiresAt)
  .require (changes = 1) notClaimable
  let row ← getProcess runId processId
  insertCommand (c.command row)
  let _ ← appendEventInTx runId (c.commandId row) (c.event row)
  return row

/-- The command recorded under the key of a claim that gives one. -/
def priorClaim (runId idempotencyKey : String) : Sql (Option CommandRow) :=
  if idempotencyKey ≠ "" then commandByKey runId idempotencyKey else pure none

/-- `claim_process` -/
def claimProcess (runId processId : String) (c : ClaimRequest) : Sql ProcessRow := do
  .require (runId ≠ "") runEmpty
  .require (processId ≠ "") "journal: process_id must not be empty"
  .require (c.workerId ≠ "") "journal: worker_id must not be empty"
  .require (c.now ≠ "") "journal: claim timestamp must not be empty"
  .require (c.leaseExpiresAt ≠ "" ∧ c.now < c.leaseExpiresAt)
    "journal: claim lease must expire after claim timestamp"
  .transact ("journal: claim_process failed: " ++ ·) do
    match ← priorClaim runId c.idempotencyKey with
    | some prior =>
      let storedProcessId := processIdFromPayload prior.payload ""
      .require (storedProcessId ≠ "") claimReplayMissing
      .require (storedProcessId = processId ∧ prior.commandType = "process.claim" ∧
        prior.actor = c.workerId ∧ prior.createdAt = c.now ∧
        processLeaseFromPayload prior.payload "" = c.leaseExpiresAt) claimConflict
      getProcess runId storedProcessId
    | none => claimRow runId processId c

/-- The rows whose last allowed attempt lost its lease. -/
def exhausted (row : ProcessRow) (now : String) : Bool :=
  row.status = .running ∧ leaseExpired row now ∧ row.maxAttempts ≤ row.attempt

def expiredError (leaseOwner : String) : Text :=
  .template [("type", .quote "lease_expired"),
    ("message", .quote "process lease expired with no attempts left"),
    ("lease_owner", .quote leaseOwner)]

def failKey (row : ProcessRow) : String :=
  "process.fail:" ++ row.id ++ ":" ++ toString row.attempt

/-- The assigned columns of a row failed because its lease expired. -/
def expireUpdate (now : String) (error : Text) (row : ProcessRow) : ProcessRow :=
  { row with
    status := .failed
    leaseOwner := ""
    leaseExpiresAt := ""
    finishedAt := now
    updatedAt := now
    errorJson := error }

def expireCommand (workerId now : String) (row : ProcessRow) : CommandRow where
  runId := row.runId
  id := failKey row
  commandType := "process.fail"
  idempotencyKey := failKey row
  actor := workerId
  correlationId := ""
  causationId := ""
  payload := .template [("process_id", .quote row.id)]
  createdAt := now

/-- The content digests of the event's payload are left out; nothing reads them. -/
def expireEvent (workerId now : String) (row : ProcessRow) : EventInput where
  id := failKey row ++ ":event"
  eventType := "process.failed"
  payload := .template [("process_id", .quote row.id), ("attempt", .number row.attempt)]
  createdAt := now
  impulseId := row.impulseId
  processId := row.id
  actor := workerId

/-- One round of the loop over expired rows. -/
def expireRow (workerId now : String) (row : ProcessRow) : Sql Unit := do
  .require row.inputJson.parse.isSome "journal: unable to digest expired process payload"
  let changes ← updateProcess row.runId row.id
    (fun r => r.status = .running ∧ r.maxAttempts ≤ r.attempt)
    (expireUpdate now (expiredError row.leaseOwner))
  if changes = 1 then
    insertCommand (expireCommand workerId now row)
    let _ ← appendEventInTx row.runId (failKey row) (expireEvent workerId now row)
    pure ()
  else pure ()

def expireRows (workerId now : String) : List ProcessRow → Sql Unit
  | [] => return ()
  | row :: rest => do
    expireRow workerId now row
    expireRows workerId now rest

/-- The rows of one run, or of all runs when `run_id` is empty. -/
def inRun (runId : String) (row : ProcessRow) : Bool := runId = "" ∨ row.runId = runId

def requireNamedRun (runId : String) : Sql Unit :=
  if runId ≠ "" then requireRun runId else pure ()

/-- The row that the queue gives out next. -/
def queueHead (db : Database) (runId now : String) : Option ProcessRow :=
  (queueOrder (db.processes.rows.filter fun r => claimable r now ∧ inRun runId r)).head?

/-- `claim_next_ready` -/
def claimNextReady (runId : String) (allRuns : Bool) (c : ClaimRequest) :
    Sql (Option ProcessRow) := do
  .require (runId ≠ "" ∨ allRuns) "journal: claim requires run_id or all_runs"
  requireNamedRun runId
  .require (c.workerId ≠ "" ∧ c.now ≠ "" ∧ c.leaseExpiresAt ≠ "" ∧ c.now < c.leaseExpiresAt)
    "journal: invalid queue claim"
  .require (¬ (runId = "" ∧ allRuns ∧ c.idempotencyKey ≠ ""))
    "journal: idempotency_key requires run_id"
  .transact ("journal: claim_next_ready failed: " ++ ·) do
    match ← priorClaim runId c.idempotencyKey with
    | some prior =>
      .require (prior.commandType = "process.claim" ∧ prior.actor = c.workerId ∧
        prior.createdAt = c.now ∧
        processLeaseFromPayload prior.payload "" = c.leaseExpiresAt) claimConflict
      let replayId := processIdFromPayload prior.payload ""
      .require (replayId ≠ "") claimReplayMissing
      return some (← getProcess prior.runId replayId)
    | none =>
      let expired ← .fetch fun db =>
        queueOrder (db.processes.rows.filter fun r => exhausted r c.now ∧ inRun runId r)
      expireRows c.workerId c.now expired
      let next ← .fetch fun db => queueHead db runId c.now
      match next with
      | none => return none
      | some selected => return some (← claimRow selected.runId selected.id c)

end Fala.Journal
