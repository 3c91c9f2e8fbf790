import Mathlib.Data.List.Sort
import Fala.Inspection.IsoFormat
import Fala.Store.Database

/-! `inspect_leases`: the leases of a journal, as its reader classifies them. -/

namespace Fala.Inspection
open Durable

/-- The instant of observation: a text, or a `datetime`, which may be naive. The clock gives one that is not. -/
inductive Now where
  | text (value : String)
  | datetime (instant : Option Int)

/-- `_utc` -/
def utc : Now → Option Int
  | .text value => utcOfText value
  | .datetime instant => instant

def processStatuses : List String :=
  ["pending", "ready", "running", "waiting", "retry_wait", "succeeded", "failed", "skipped", "cancel_requested",
    "cancelled", "timed_out"]

def runStatuses : List String :=
  ["created", "active", "waiting", "completed", "failed", "cancel_requested", "cancelled", "timed_out"]

/-- A row of `_LEASE_QUERY`; `none` is `NULL`. -/
structure LeaseRow where
  runId : String
  processId : String
  status : String
  owner : Option String
  expires : Option String
  attempt : Int
  maxAttempts : Int
  runStatus : Option String
  deriving DecidableEq

def LeaseRow.key (row : LeaseRow) : String × String := (row.runId, row.processId)

def column (text : String) : Option String := if text = "" then none else some text

/-- The selected columns, with the status of the joined run. -/
def leaseRow (db : Database) (row : ProcessRow) : LeaseRow where
  runId := row.runId
  processId := row.id
  status := row.status.value
  owner := column row.leaseOwner
  expires := column row.leaseExpiresAt
  attempt := row.attempt
  maxAttempts := row.maxAttempts
  runStatus := (db.runs.find? row.runId).map RunRecord.status

/-- `ORDER BY p.run_id ASC, p.id ASC` -/
def listedBefore (left right : ProcessRow) : Bool :=
  left.runId < right.runId ∨ (left.runId = right.runId ∧ left.id ≤ right.id)

def leaseQuery (db : Database) : List LeaseRow :=
  (db.processes.rows.insertionSort fun left right => listedBefore left right).map (leaseRow db)

/-- `_issue`; of the context the ids of a process stand apart. -/
structure Issue where
  code : String
  message : String
  process : Option (String × String) := none
  context : List (String × Json) := []

structure Lease where
  runId : String
  processId : String
  owner : String
  leaseExpiresAt : Int
  attempt : Int
  maxAttempts : Int
  processStatus : String
  runStatus : String
  deriving DecidableEq

def Lease.key (lease : Lease) : String × String := (lease.runId, lease.processId)

/-- What a row must be, with the error that it gives otherwise. -/
def checks (row : LeaseRow) : List (Bool × String) :=
  [(row.runId ≠ "", "run_id must be non-empty TEXT"),
    (row.processId ≠ "", "process_id must be non-empty TEXT"),
    (row.status ∈ processStatuses, "process status must be an allowed TEXT value"),
    (row.runStatus.any (· ∈ runStatuses), "run status must be an allowed TEXT value"),
    (row.owner ≠ some "", "lease owner must be NULL or non-empty TEXT"),
    (row.expires ≠ some "", "lease expiry must be NULL or non-empty TEXT"),
    (0 ≤ row.attempt, "attempt must be a non-negative INTEGER"),
    (1 ≤ row.maxAttempts, "max_attempts must be a positive INTEGER"),
    (¬ (1 ≤ row.maxAttempts ∧ row.maxAttempts < row.attempt), "attempt must not exceed max_attempts")]

def malformed (row : LeaseRow) : List String :=
  (checks row).filterMap fun (holds, message) => if holds then none else some message

def textOrNull (text : Option String) : Json := (text.map Json.str).getD .null

def malformedRow (row : LeaseRow) : Issue where
  code := "malformed_process_row"
  message := "; ".intercalate (malformed row)
  process := some row.key
  context :=
    [("status", .str row.status), ("run_status", textOrNull row.runStatus), ("attempt", .int row.attempt),
      ("max_attempts", .int row.maxAttempts), ("lease_owner", textOrNull row.owner),
      ("lease_expires_at", textOrNull row.expires)]

def leaseOnNonRunning (row : LeaseRow) : Issue where
  code := "lease_on_non_running_process"
  message := "lease fields exist on a process that is not running"
  process := some row.key
  context := [("status", .str row.status)]

def incompleteLease (row : LeaseRow) : Issue where
  code := "incomplete_process_lease"
  message := "running process lease requires owner and expiry"
  process := some row.key

def outsideActiveRun (row : LeaseRow) : Issue where
  code := "lease_outside_active_run"
  message := "running process lease does not belong to an active run"
  process := some row.key
  context := [("run_status", textOrNull row.runStatus)]

def invalidExpiry (row : LeaseRow) : Issue where
  code := "invalid_lease_expiry"
  message := "Invalid isoformat string"
  process := some row.key
  context := [("lease_expires_at", textOrNull row.expires)]

/-- Where a row goes. -/
inductive Verdict where
  | omitted
  | uncertain (issue : Issue)
  | current (lease : Lease)
  | expired (lease : Lease)

/-- A running row with an owner and an expiry. -/
def judgeLease (observed : Int) (row : LeaseRow) (owner expires : String) : Verdict :=
  if row.runStatus ≠ some "active" then .uncertain (outsideActiveRun row)
  else
    match utc (.text expires) with
    | none => .uncertain (invalidExpiry row)
    | some expiry =>
      let lease : Lease :=
        { runId := row.runId
          processId := row.processId
          owner
          leaseExpiresAt := expiry
          attempt := row.attempt
          maxAttempts := row.maxAttempts
          processStatus := row.status
          runStatus := "active" }
      if expiry ≤ observed then .expired lease else .current lease

def judge (observed : Int) (row : LeaseRow) : Verdict :=
  if malformed row ≠ [] then .uncertain (malformedRow row)
  else if row.status ≠ "running" then
    if row.owner ≠ none ∨ row.expires ≠ none then .uncertain (leaseOnNonRunning row) else .omitted
  else
    match row.owner, row.expires with
    | some owner, some expires => judgeLease observed row owner expires
    | _, _ => .uncertain (incompleteLease row)

/-- `_envelope` -/
structure Report where
  observedAt : Option Int := none
  current : List Lease := []
  expired : List Lease := []
  uncertainty : List Issue := []
  errors : List Issue := []
  complete : Bool := false

def Report.add (report : Report) : Verdict → Report
  | .omitted => report
  | .uncertain issue => { report with uncertainty := report.uncertainty ++ [issue] }
  | .current lease => { report with current := report.current ++ [lease] }
  | .expired lease => { report with expired := report.expired ++ [lease] }

/-- One round of the loop over the rows. -/
def inspectRow (observed : Int) (report : Report) (row : LeaseRow) : Report := report.add (judge observed row)

def rowLimitExceeded (maxRows : Int) : Issue where
  code := "row_limit_exceeded"
  message := "lease inspection row limit exceeded"
  context := [("max_rows", .int maxRows)]

/-- `inspect_leases` of a journal that can be opened. -/
def inspectLeases (db : Database) (now : Now) (maxRows : Int) : Report :=
  match utc now with
  | none => { errors := [{ code := "invalid_now", message := "Invalid isoformat string" }] }
  | some observed =>
    if maxRows < 1 then
      { observedAt := some observed
        errors := [{ code := "invalid_limit", message := "max_rows must be a positive integer" }] }
    else
      let rows := leaseQuery db
      let opened : Report :=
        { observedAt := some observed
          errors := if maxRows.toNat < rows.length then [rowLimitExceeded maxRows] else [] }
      let report := (rows.take maxRows.toNat).foldl (inspectRow observed) opened
      { report with complete := report.errors.isEmpty && report.uncertainty.isEmpty }

end Fala.Inspection
