import Fala.Store.Database

namespace Fala
open Durable

def occurs (part : List Char) : List Char → Bool
  | [] => part.isEmpty
  | c :: rest => part.isPrefixOf (c :: rest) || occurs part rest

/-- `detail.find(part) >= 0` -/
def mentions (detail part : String) : Bool := occurs part.toList detail.toList

/-- Errors that name one of `kept` are raised again as they are. -/
def reraise (kept : List String) (wrapped : String → String) (detail : String) : String :=
  if kept.any (mentions detail) then detail else wrapped detail

theorem append_ne {left right : String} (rest : String)
    (differs : ¬ left.toList <+: right.toList) : left ++ rest ≠ right := by
  rintro rfl
  exact differs (by simp)

theorem append_ne_append {left right : String} (rest other : String)
    (apart : ¬ left.toList <+: right.toList ∧ ¬ right.toList <+: left.toList) :
    left ++ rest ≠ right ++ other := by
  intro same
  have letters := congrArg String.toList same
  rw [String.toList_append, String.toList_append] at letters
  have first : left.toList <+: left.toList ++ rest.toList := List.prefix_append ..
  have second : right.toList <+: left.toList ++ rest.toList := letters ▸ List.prefix_append ..
  exact (List.prefix_or_prefix_of_prefix first second).elim apart.1 apart.2

/-! Numbers in keys. -/

theorem natRepr_injective {m n : Nat} (same : m.repr = n.repr) : m = n := by
  have digits := congrArg String.toList same
  rw [Nat.toList_repr, Nat.toList_repr] at digits
  rw [← Nat.ofDigitChars_ten_toDigits (n := m), digits, Nat.ofDigitChars_ten_toDigits]

theorem natRepr_ne_minus (m : Nat) (rest : String) : m.repr ≠ "-" ++ rest := by
  intro same
  have digits := congrArg String.toList same
  rw [Nat.toList_repr] at digits
  have minus : '-' ∈ Nat.toDigits 10 m := by simp [digits]
  exact absurd (Nat.isDigit_of_mem_toDigits (by decide) (by decide) minus) (by decide)

theorem toString_injective {a b : Int} (same : toString a = toString b) : a = b := by
  change a.repr = b.repr at same
  cases a with
  | ofNat m =>
    cases b with
    | ofNat n => exact congrArg Int.ofNat (natRepr_injective same)
    | negSucc n => exact absurd same (natRepr_ne_minus _ _)
  | negSucc m =>
    cases b with
    | ofNat n => exact absurd same.symm (natRepr_ne_minus _ _)
    | negSucc n =>
      have same : "-" ++ (m + 1).repr = "-" ++ (n + 1).repr := same
      have digits := natRepr_injective (String.append_right_inj _ |>.mp same)
      exact congrArg Int.negSucc (Nat.succ.inj digits)

namespace Journal

def runEmpty : String := "journal: run_id must not be empty"
def unknownRun : String := "journal: unknown run"
def processNotFound : String := "journal: process row not found"

/-- `_require_run` -/
def requireRun (runId : String) : Sql Unit := do
  .require (runId ≠ "") runEmpty
  let found ← .fetch fun db => (db.runs.find? runId).isSome
  .require found unknownRun

def readProcess (runId processId : String) : Sql ProcessRow :=
  .query fun db =>
    match db.processes.find? (runId, processId) with
    | some row => .ok row
    | none => .error processNotFound

/-- `get_process` -/
def getProcess (runId processId : String) : Sql ProcessRow := do
  requireRun runId
  readProcess runId processId

def commandByKey (runId idempotencyKey : String) : Sql (Option CommandRow) :=
  .fetch fun db => db.commandByKey runId idempotencyKey

/-- `_canonical_json_field` -/
def canonicalJsonField (value : Text) (field : String) : Except String Text :=
  match value.canonical with
  | some text => .ok text
  | none => .error ("journal: invalid " ++ field ++ " JSON")

/-- `_process_id_from_payload` -/
def processIdFromPayload (payload : Text) (fallback : String) : String :=
  match payload.parse.bind (Json.member "process_id") with
  | some (.str id) => if id ≠ "" then id else fallback
  | _ => fallback

/-- `_process_attempt_from_payload` -/
def processAttemptFromPayload (payload : Text) (fallback : Int) : Int :=
  match payload.parse.bind (Json.member "attempt") with
  | some (.int attempt) => attempt
  | some (.uint attempt) => attempt
  | _ => fallback

/-- `_process_lease_from_payload` -/
def processLeaseFromPayload (payload : Text) (fallback : String) : String :=
  match payload.parse.bind (Json.member "lease_expires_at") with
  | some (.str lease) => lease
  | _ => fallback

/-- `_json_field_from_payload` -/
def jsonFieldFromPayload (payload : Text) (key : String) (fallback : Text) : Text :=
  match payload.parse.bind (Json.member key) with
  | some value => .printed value.canonical
  | none => fallback

/-- The typed event fields that callers supply. -/
structure EventInput where
  id : String
  eventType : String
  payload : Text
  createdAt : String
  impulseId : String := ""
  processId : String := ""
  schemaVersion : Int := 1
  actor : String := ""
  correlationId : String := ""
  causationId : String := ""
  deriving DecidableEq

def EventInput.row (event : EventInput) (runId commandId : String) (sequence : Nat) : EventRow where
  runId
  sequence
  id := event.id
  eventType := event.eventType
  payload := event.payload
  createdAt := event.createdAt
  impulseId := event.impulseId
  processId := event.processId
  commandId
  schemaVersion := event.schemaVersion
  actor := event.actor
  correlationId := event.correlationId
  causationId := event.causationId

/-- Empty optional values of an event are those of its command. -/
def EventInput.inherit (event : EventInput) (command : CommandRow) : EventInput :=
  { event with
    actor := if event.actor ≠ "" then event.actor else command.actor
    correlationId := if event.correlationId ≠ "" then event.correlationId else command.correlationId
    causationId := if event.causationId ≠ "" then event.causationId else command.causationId }

def eventConflict : String := "journal: event id already exists with different contents"

/-- `_append_event_in_tx`. The source makes its first two checks twice. -/
def appendEventInTx (runId commandId : String) (event : EventInput) : Sql EventRow := do
  .require (event.id ≠ "" ∧ event.eventType ≠ "" ∧ event.createdAt ≠ "")
    "journal: event id, type, and created_at must not be empty"
  .require (1 ≤ event.schemaVersion) "journal: schema_version must be positive"
  match ← .fetch fun db => db.eventById runId event.id with
  | some existing =>
    .require (existing = event.row runId commandId existing.sequence) eventConflict
    return existing
  | none =>
    let sequence ← .fetch fun db => db.nextSequence runId
    insertEvent (event.row runId commandId sequence)
    .query fun db =>
      match db.eventById runId event.id with
      | some row => .ok row
      | none => .error "journal: event row not found"

/-- The events of a batch, in order. -/
def appendEvents (runId : String) (command : CommandRow) : List EventInput → Sql (List EventRow)
  | [] => return []
  | event :: rest => do
    let row ← appendEventInTx runId command.id (event.inherit command)
    return row :: (← appendEvents runId command rest)

end Journal
end Fala
