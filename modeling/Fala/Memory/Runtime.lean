import Fala.Correlation.Advancement
import Fala.Json.Wire
import Fala.Jsonl.Ember
import Fala.Memory.Atomic

namespace Fala.Memory
open Correlation Durable
open Jsonl (Bytes Ember utf8 objectText)

variable {τ : Type} [Seconds τ]

structure ProcessExtra where
  effectorId : String
  conduction : List String
  inputJson : Bytes
  outputJson : Bytes
  configJson : Bytes
  metadataJson : Bytes
  deriving DecidableEq

structure RunRow where
  id : String
  status : String
  title : String
  metadataJson : String
  deriving DecidableEq

structure Impulse where
  id : String
  runId : String
  impulseType : String
  payload : String
  metadata : String
  createdAt : String
  updatedAt : String
  deriving DecidableEq

structure MemoryRuntime (τ : Type) where
  journal : InMemoryJournal τ
  runs : Dict String RunRow
  impulses : Dict String Impulse
  extras : Dict String ProcessExtra
  clock : τ
  deriving DecidableEq

/-- The command and the only event of a runtime operation. -/
def runtimeUnit (runId key commandType eventType actor impulseId processId payloadJson : String) :
    CommandUnit :=
  { command :=
      { id := key, runId, commandType, idempotencyKey := key, actor, correlationId := "",
        causationId := "", payloadJson, createdAt := "" }
    events :=
      [{ id := key ++ ":event", runId, eventType, schemaVersion := 1, impulseId, processId,
         sequence := 0, commandId := "", actor, correlationId := "", causationId := "", payloadJson,
         createdAt := "" }]
    facts := [] }

/-- An object text of one string, put together as it is. -/
def oneField (name value : String) : String := "\x7b\"" ++ name ++ "\":\"" ++ value ++ "\"\x7d"

/-- The key that an operation falls back on. -/
def keyOr (idempotencyKey default : String) : String := if idempotencyKey = "" then default else idempotencyKey

def createUnit (runId idempotencyKey : String) : CommandUnit :=
  runtimeUnit runId (keyOr idempotencyKey ("run.create:" ++ runId)) "run.create" "run.created" "runtime" "" ""
    (oneField "run_id" runId)

def statusUnit (runId status idempotencyKey : String) : CommandUnit :=
  runtimeUnit runId (keyOr idempotencyKey ("run.status.set:" ++ runId ++ ":" ++ status)) "run.status.set"
    "run.status.changed" "runtime" "" "" (oneField "status" status)

def impulseUnit (impulse : Impulse) (idempotencyKey : String) : CommandUnit :=
  runtimeUnit impulse.runId (keyOr idempotencyKey ("impulse.accept:" ++ impulse.id)) "impulse.accept"
    "impulse.accepted" "runtime" impulse.id "" (oneField "impulse_id" impulse.id)

def scheduleUnit (plan : CorrelationProcessPlan Bytes) : CommandUnit :=
  runtimeUnit plan.runId (keyOr plan.idempotencyKey ("process.schedule:" ++ plan.id)) "process.schedule"
    "process.scheduled" "runtime" "" plan.id (oneField "process_id" plan.id)

def completeUnit (row : ProcessRecord τ) (actor idempotencyKey : String) : CommandUnit :=
  runtimeUnit row.runId (keyOr idempotencyKey ("process.complete:" ++ row.id ++ ":" ++ toString row.attempt))
    "process.complete" "process.completed" actor "" row.id (oneField "process_id" row.id)

def failProcessUnit (row : ProcessRecord τ) (actor errorJson : String) : CommandUnit :=
  runtimeUnit row.runId ("process.fail:" ++ row.id ++ ":" ++ toString row.attempt) "process.fail"
    "process.failed" actor "" row.id errorJson

def readyUnit (runId processId : String) : CommandUnit :=
  runtimeUnit runId ("process.ready:" ++ processId) "process.ready" "process.readied" "runtime" "" processId
    (oneField "process_id" processId)

namespace ProcessRecord

def actorCanTransition (p : ProcessRecord τ) (actor : String) : Bool := !p.hasLease || p.leaseOwner = actor

/-- `transition_process` -/
def transitionProcess (p : ProcessRecord τ) (toStatus : ProcessStatus) (actor : String) :
    Except String (ProcessRecord τ) :=
  if ¬ canTransitionProcess p.status toStatus then .error "illegal process status transition"
  else if ¬ p.actorCanTransition actor then .error "process lease is held by another actor"
  else if toStatus.isTerminal ∨ toStatus = .waiting ∨ toStatus = .retryWait then
    .ok { p with status := toStatus, leaseOwner := "", leaseExpiresAt := 0 }
  else .ok { p with status := toStatus }

def unleased (p : ProcessRecord τ) : ProcessRecord τ := { p with leaseOwner := "", leaseExpiresAt := 0 }

/-- `ProcessRecord` for a plan. -/
def planned (plan : CorrelationProcessPlan Bytes) (clock : τ) : ProcessRecord τ :=
  { id := plan.id, runId := plan.runId, status := plan.status, priority := plan.priority, attempt := 0,
    maxAttempts := plan.maxAttempts, availableAt := 0, createdAt := clock, leaseOwner := "",
    leaseExpiresAt := 0 }

end ProcessRecord

def ProcessExtra.planned (plan : CorrelationProcessPlan Bytes) : ProcessExtra :=
  { effectorId := plan.effectorId, conduction := plan.conduction, inputJson := plan.inputJson,
    outputJson := utf8 "\x7b\x7d", configJson := plan.configJson, metadataJson := plan.metadataJson }

def literals : Literals Bytes where
  empty := []
  braces := utf8 "\x7b\x7d"
  upstreamNotFound := utf8
    "\x7b\"error\":\"upstream_not_found\",\"message\":\"upstream effector was not instantiated or is missing\"\x7d"

/-- The statuses whose outputs `advance` conducts. -/
def conducts (status : ProcessStatus) : Bool :=
  status = .succeeded || status = .failed || status = .cancelled || status = .timedOut

namespace MemoryRuntime

/-- `MemoryRuntime(stream_id)` -/
def init (streamId : String) : MemoryRuntime τ := ⟨.init streamId, .empty, .empty, .empty, 0⟩

/-- `append_batch` of a unit, and what the operation does once it is accepted or replayed. -/
def appendUnit (rt : MemoryRuntime τ) (u : CommandUnit)
    (commit : AppendResult → MemoryRuntime τ → MemoryRuntime τ) :
    Except String AppendResult × MemoryRuntime τ :=
  let (outcome, journal) := rt.journal.appendBatch (.of u.command.runId [u])
  match outcome with
  | .error message => (.error message, { rt with journal })
  | .ok result => (.ok result, commit result { rt with journal })

def createRun (rt : MemoryRuntime τ) (runId title metadataJson idempotencyKey : String) :
    Except String AppendResult × MemoryRuntime τ :=
  let u := createUnit runId idempotencyKey
  if rt.journal.hasCommand runId u.command.idempotencyKey then (.ok ⟨.of runId [], true, []⟩, rt)
  else rt.appendUnit u fun result rt =>
    if result.replayed then rt
    else { rt with runs := rt.runs.set runId ⟨runId, "created", title, metadataJson⟩ }

def setRunStatus (rt : MemoryRuntime τ) (runId status idempotencyKey : String) :
    Except String AppendResult × MemoryRuntime τ :=
  match rt.runs.get runId with
  | none => (.error ("unknown run: " ++ runId), rt)
  | some row =>
    if ¬ canTransitionRun (.ofValue row.status) (.ofValue status) then (.error "illegal run transition", rt)
    else rt.appendUnit (statusUnit runId status idempotencyKey) fun _ rt =>
      { rt with runs := rt.runs.set runId { row with status } }

def acceptImpulse (rt : MemoryRuntime τ) (impulse : Impulse) (idempotencyKey : String) :
    Except String AppendResult × MemoryRuntime τ :=
  if (rt.runs.get impulse.runId).isNone then (.error "unknown run for impulse", rt)
  else rt.appendUnit (impulseUnit impulse idempotencyKey) fun result rt =>
    if result.replayed then rt else { rt with impulses := rt.impulses.set impulse.id impulse }

def scheduleProcessPlan (rt : MemoryRuntime τ) (plan : CorrelationProcessPlan Bytes) :
    Except String AppendResult × MemoryRuntime τ :=
  let u := scheduleUnit plan
  if rt.journal.hasCommand plan.runId u.command.idempotencyKey then (.ok ⟨.of plan.runId [], true, []⟩, rt)
  else rt.appendUnit u fun result rt =>
    if result.replayed then rt
    else { rt with
      journal := rt.journal.seedProcess (.planned plan rt.clock)
      extras := rt.extras.set plan.id (.planned plan) }

/-- The row of a process that has ended, and what it leaves as its output. -/
def seedFinished (rt : MemoryRuntime τ) (processId : String) (finished : ProcessRecord τ) (outputJson : Bytes) :
    MemoryRuntime τ :=
  { rt with
    journal := rt.journal.seedProcess finished
    extras :=
      match rt.extras.get processId with
      | none => rt.extras
      | some extra => rt.extras.set processId { extra with outputJson } }

/-- The end of `complete_process` and `fail_process`. -/
def finishProcess (rt : MemoryRuntime τ) (processId : String) (toStatus : ProcessStatus) (actor : String)
    (outputJson : Bytes) (unitOf : ProcessRecord τ → CommandUnit) :
    Except String AppendResult × MemoryRuntime τ :=
  match rt.journal.getProcess processId with
  | .error message => (.error message, rt)
  | .ok row =>
    match row.transitionProcess toStatus actor with
    | .error message => (.error message, rt)
    | .ok finished =>
      rt.appendUnit (unitOf finished.unleased) fun _ rt => rt.seedFinished processId finished.unleased outputJson

def completeProcess (rt : MemoryRuntime τ) (processId actor outputJson idempotencyKey : String) :
    Except String AppendResult × MemoryRuntime τ :=
  rt.finishProcess processId .succeeded actor (utf8 outputJson) fun row => completeUnit row actor idempotencyKey

def failProcess (rt : MemoryRuntime τ) (processId actor errorJson : String) :
    Except String AppendResult × MemoryRuntime τ :=
  rt.finishProcess processId .failed actor (utf8 errorJson) fun row => failProcessUnit row actor errorJson

def executionState (rt : MemoryRuntime τ) (row : ProcessRecord τ) : CorrelationExecutionState Bytes :=
  let extra := rt.extras.get row.id
  { processId := row.id
    effectorId := (extra.map (·.effectorId)).getD ""
    status := row.status
    attempt := row.attempt
    maxAttempts := row.maxAttempts
    outputJson := (extra.map (·.outputJson)).getD (utf8 "\x7b\x7d")
    inputJson := (extra.map (·.inputJson)).getD (utf8 "\x7b\x7d")
    reactionsJson := utf8 "[]"
    conduction := (extra.map (·.conduction)).getD [] }

/-- `_execution_states` -/
def executionStates (rt : MemoryRuntime τ) (runId : String) : List (CorrelationExecutionState Bytes) :=
  (rt.journal.processes.rows.filter fun row => row.runId = runId).map rt.executionState

/-- The plan of an advancement: `advance_correlation_states` of the states of the run. -/
def advancement (rt : MemoryRuntime τ) (runId : String) : CorrelationAdvancePlan Bytes :=
  advanceCorrelationStates literals (rt.executionStates runId)

/-- The row and the command of a process that becomes ready. -/
def readyProcess (rt : MemoryRuntime τ) (runId : String) (row : ProcessRecord τ) :
    Except String AppendResult × MemoryRuntime τ :=
  let rt := { rt with journal := rt.journal.seedProcess { row with status := .ready } }
  let u := readyUnit runId row.id
  if rt.journal.hasCommand runId u.command.idempotencyKey then (.ok ⟨.of runId [], true, []⟩, rt)
  else rt.appendUnit u fun _ rt => rt

section Conduction

-- The JSON library, and the content address that the printer's bytes of a value have.
variable (e : Ember) (digest : Json → String)

/-- `domain_payload` -/
def domainPayload (text : Bytes) : Except String Bytes :=
  (Protocol.domainPayload digest (.other "" (e.parse text).toOption)).map e.write

/-- The members of the conduction object, from the entries of `extras` in their order. -/
def conductionMembers (rt : MemoryRuntime τ) (conduction : List String) :
    List (String × ProcessExtra) → Except String (List (String × Bytes))
  | [] => .ok []
  | (id, upstream) :: rest => do
    let row ← rt.journal.getProcess id
    if upstream.effectorId ∈ conduction ∧ conducts row.status then
      let payload ← domainPayload e digest upstream.outputJson
      return (upstream.effectorId, payload) :: (← rt.conductionMembers conduction rest)
    else rt.conductionMembers conduction rest

/-- The input that `advance` writes for a process. -/
def conductionInput (rt : MemoryRuntime τ) (conduction : List String) : Except String Bytes :=
  (rt.conductionMembers e digest conduction rt.extras.rows).map fun members =>
    objectText [("conduction", objectText members)]

def injectConduction (rt : MemoryRuntime τ) (processId : String) : Except String Unit × MemoryRuntime τ :=
  match rt.extras.get processId with
  | none => (.ok (), rt)
  | some extra =>
    match rt.conductionInput e digest extra.conduction with
    | .error message => (.error message, rt)
    | .ok inputJson => (.ok (), { rt with extras := rt.extras.set processId { extra with inputJson } })

/-- One round of the loop of `advance`. -/
def advanceOne (rt : MemoryRuntime τ) (runId processId : String) : Except String Unit × MemoryRuntime τ :=
  match rt.journal.getProcess processId with
  | .error message => (.error message, rt)
  | .ok row =>
    if row.status ≠ .pending then (.ok (), rt)
    else
      match rt.readyProcess runId row with
      | (.error message, rt) => (.error message, rt)
      | (.ok _, rt) => rt.injectConduction e digest processId

def advanceEach (rt : MemoryRuntime τ) (runId : String) : List String → Except String Unit × MemoryRuntime τ
  | [] => (.ok (), rt)
  | processId :: rest =>
    match rt.advanceOne e digest runId processId with
    | (.error message, rt) => (.error message, rt)
    | (.ok (), rt) => rt.advanceEach runId rest

def advance (rt : MemoryRuntime τ) (runId : String) :
    Except String (CorrelationAdvancePlan Bytes) × MemoryRuntime τ :=
  let plan := rt.advancement runId
  let (outcome, rt) := rt.advanceEach e digest runId (plan.readied.map (·.id))
  (outcome.map fun _ => plan, rt)

end Conduction

def claimNext (rt : MemoryRuntime τ) (workerId runId : String) (leaseSeconds : τ) :
    Except String ClaimResult × MemoryRuntime τ :=
  let (outcome, journal) := rt.journal.claimNext ⟨workerId, runId, leaseSeconds, false, rt.clock⟩
  (outcome, { rt with journal })

end MemoryRuntime
end Fala.Memory
