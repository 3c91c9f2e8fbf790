import Fala.Journal.Claim
import Fala.Journal.Transition

/-! The driver's maintenance of expired leases. -/

namespace Fala.Driver
open Durable Journal

/-- `_automatic_retry_allowed`. Text that does not parse is judged by what it mentions. -/
def automaticRetryAllowed (metadata : Text) : Bool :=
  match metadata.parse with
  | none => ¬ mentions metadata.spelling "\"retry_policy\""
  | some parsed@(.obj _) =>
    match parsed.member "regulation" with
    | none => true
    | some regulation@(.obj _) =>
      match regulation.member "retry_policy" with
      | none => true
      | some policy => policy = .str "automatic"
    | some _ => false
  | some _ => true

/-- The driver-made error texts of an expired lease. -/
def leaseError (message : String) : Text :=
  .template [("code", .quote "lease_expired"), ("message", .quote message)]

/-- The arguments of `maintain_process` beside the row that the caller has read. -/
structure Maintenance where
  workerId : String
  now : String
  retryAvailableAt : String := ""
  errorJson : Text := .empty
  deriving DecidableEq

namespace Maintenance

def due (m : Maintenance) : String := if m.retryAvailableAt ≠ "" then m.retryAvailableAt else m.now

def failure (m : Maintenance) : Text :=
  if m.errorJson ≠ .empty then m.errorJson else leaseError "process lease expired"

end Maintenance

def leaseChanged : String := "driver: process lease changed concurrently"

/-- The columns that `maintain_process` compares with the row it was given. -/
def sameLease (process current : ProcessRow) : Bool :=
  current.status = process.status ∧ current.attempt = process.attempt ∧
    current.leaseOwner = process.leaseOwner ∧ current.leaseExpiresAt = process.leaseExpiresAt

/-- The transition of a row whose lease expired. -/
def resolveExpired (m : Maintenance) (current : ProcessRow) : Sql ProcessRow :=
  if current.maxAttempts ≤ current.attempt ∨ ¬ automaticRetryAllowed current.metadata then
    failProcess current.runId current.id m.workerId m.now m.failure
  else do
    .require (m.now ≤ m.due) "driver: retry availability must not precede transition timestamp"
    retryProcess current.runId current.id m.workerId m.now m.due m.failure

/-- `maintain_process` -/
def maintainProcess (process : ProcessRow) (m : Maintenance) : Sql ProcessRow := do
  .require (m.workerId ≠ "") "driver: worker_id must not be empty"
  let current ← getProcess process.runId process.id
  .require (sameLease process current) leaseChanged
  if current.status ≠ .running then return current
  else resolveExpired m current

structure IncompleteRecoveryItem where
  runId : String
  processId : String
  previousStatus : ProcessStatus
  status : ProcessStatus
  attempt : Int
  maxAttempts : Int
  deriving DecidableEq

structure IncompleteRecoveryResult where
  workerId : String
  now : String
  recoveredCount : Nat
  requeuedCount : Nat
  unrecoverableCount : Nat
  items : List IncompleteRecoveryItem
  deriving DecidableEq

/-- `ORDER BY run_id ASC,id ASC` -/
def keyOrder (rows : List ProcessRow) : List ProcessRow :=
  rows.insertionSort fun left right =>
    if left.runId ≠ right.runId then left.runId < right.runId else left.id ≤ right.id

/-- The running rows of one worker whose lease has expired. -/
def expiredRows (workerId now : String) (rows : List ProcessRow) : List ProcessRow :=
  keyOrder (rows.filter fun r =>
    r.status = .running ∧ r.leaseOwner = workerId ∧ leaseExpired r now)

/-- The loop over the selected rows. -/
def recoverRows (now due : String) : List ProcessRow → Sql (List IncompleteRecoveryItem)
  | [] => return []
  | candidate :: rest => do
    let resolved ← maintainProcess candidate
      { workerId := candidate.leaseOwner, now, retryAvailableAt := due,
        errorJson := leaseError "process lease expired during recovery" }
    .require (resolved.status = .retryWait ∨ resolved.status = .failed)
      "driver: recovery produced unsupported process status"
    let items ← recoverRows now due rest
    return ⟨resolved.runId, resolved.id, .running, resolved.status, resolved.attempt,
      resolved.maxAttempts⟩ :: items

/-- `recover_incomplete_processes` -/
def recoverIncompleteProcesses (workerId now retryAvailableAt : String) :
    Sql IncompleteRecoveryResult := do
  .require (workerId ≠ "" ∧ now ≠ "") "driver: recovery requires worker_id and now"
  let due := if retryAvailableAt ≠ "" then retryAvailableAt else now
  .require (now ≤ due) "driver: retry availability must not precede recovery timestamp"
  let selected ← .fetch fun db => expiredRows workerId now db.processes.rows
  let items ← recoverRows now due selected
  return ⟨workerId, now, items.length, items.countP (·.status = .retryWait),
    items.countP (·.status = .failed), items⟩

end Fala.Driver
