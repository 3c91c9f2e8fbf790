import Fala.Durable.Dict

namespace Fala.Memory

/-! The records of `journal_port`. -/

structure StateFact where
  entity : String
  op : String
  keyId : String
  bodyJson : String
  deriving DecidableEq, Repr

structure CommandRecord where
  id : String
  runId : String
  commandType : String
  idempotencyKey : String
  actor : String
  correlationId : String
  causationId : String
  payloadJson : String
  createdAt : String
  deriving DecidableEq, Repr

/-- `sequence` 0 means unassigned until the journal accepts the event. -/
structure EventRecord where
  id : String
  runId : String
  eventType : String
  schemaVersion : Int
  impulseId : String
  processId : String
  sequence : Int
  commandId : String
  actor : String
  correlationId : String
  causationId : String
  payloadJson : String
  createdAt : String
  deriving DecidableEq, Repr

structure CommandUnit where
  command : CommandRecord
  events : List EventRecord
  facts : List StateFact
  deriving DecidableEq, Repr

/-- One or more command units, accepted together. -/
structure JournalBatch where
  journalSeq : Int
  runId : String
  units : List CommandUnit
  streamId : String
  parentStreamId : String
  parentProcessId : String
  deriving DecidableEq, Repr

/-- `JournalBatch(run_id, units)` -/
def JournalBatch.of (runId : String) (units : List CommandUnit) : JournalBatch :=
  ⟨0, runId, units, "", "", ""⟩

structure AppendResult where
  batch : JournalBatch
  replayed : Bool
  units : List CommandUnit
  deriving DecidableEq, Repr

/-- An empty `runId` with `allRuns` claims across runs; `τ` holds the seconds. -/
structure ClaimRequest (τ : Type) where
  workerId : String
  runId : String
  leaseSeconds : τ
  allRuns : Bool
  now : τ
  deriving DecidableEq

/-- An empty `processId` means that nothing was claimed. -/
structure ClaimResult where
  processId : String
  runId : String
  hasBatch : Bool
  batch : JournalBatch
  replayed : Bool
  deriving DecidableEq, Repr

/-- `_cmd_key`; the separator is a NUL. -/
def cmdKey (runId idempotencyKey : String) : String := runId ++ "\x00" ++ idempotencyKey

/-- The key that a command is stored under. -/
def CommandRecord.key (command : CommandRecord) : String :=
  cmdKey command.runId command.idempotencyKey

def CommandUnit.key (u : CommandUnit) : String := u.command.key

open Durable

/-- What `InMemoryJournal` holds besides its process rows. -/
structure JournalLog where
  streamId : String
  journalSeq : Int
  batches : List JournalBatch
  commands : Table CommandRecord.key
  eventsByRun : Dict String (List EventRecord)
  eventSeqByRun : Dict String Int
  deriving DecidableEq

namespace JournalLog

/-- `InMemoryJournal(stream_id)` -/
def init (streamId : String) : JournalLog := ⟨streamId, 0, [], .empty, .empty, .empty⟩

def runtimeUri (log : JournalLog) : String :=
  if log.streamId.startsWith "memory://" then log.streamId else "memory://" ++ log.streamId

/-- The bucket of a run, and the last sequence given out in it. -/
def events (log : JournalLog) (runId : String) : List EventRecord :=
  (log.eventsByRun.get runId).getD []

def eventSeq (log : JournalLog) (runId : String) : Int := (log.eventSeqByRun.get runId).getD 0

def hasKey (log : JournalLog) (key : String) : Bool := (log.commands.find? key).isSome

def hasCommand (log : JournalLog) (runId idempotencyKey : String) : Bool :=
  log.hasKey (cmdKey runId idempotencyKey)

end JournalLog

/-- The columns that `_assign_events` writes. -/
def EventRecord.assigned (command : CommandRecord) (sequence : Int) (event : EventRecord) : EventRecord :=
  { event with
    runId := command.runId
    commandId := command.id
    sequence
    actor := if event.actor = "" then command.actor else event.actor
    correlationId := if event.correlationId = "" then command.correlationId else event.correlationId
    causationId := if event.causationId = "" then command.causationId else event.causationId }

/-- The events of a command, numbered on after `sequence`. -/
def assignedFrom (command : CommandRecord) (sequence : Int) : List EventRecord → List EventRecord
  | [] => []
  | event :: rest =>
    event.assigned command (sequence + 1) :: assignedFrom command (sequence + 1) rest

namespace JournalLog

/-- `_assign_events`, for the events that `assignedFrom` numbers. -/
def assignEvents (log : JournalLog) (command : CommandRecord) (events : List EventRecord) :
    List EventRecord × JournalLog :=
  let seq := log.eventSeq command.runId
  let out := assignedFrom command seq events
  (out, { log with
    eventSeqByRun := log.eventSeqByRun.set command.runId (seq + events.length)
    eventsByRun := log.eventsByRun.set command.runId (log.events command.runId ++ out) })

/-- One round of the loop of `append_batch`, for a key that is not in use. -/
def acceptUnit (log : JournalLog) (u : CommandUnit) : CommandUnit × JournalLog :=
  let (events, log) := log.assignEvents u.command u.events
  ({ u with events }, { log with commands := log.commands.upsert u.command })

/-- The loop of `append_batch`. It raises at the first key that is in use, with the
    units before it indexed. -/
def acceptUnits (log : JournalLog) : List CommandUnit → Except String (List CommandUnit) × JournalLog
  | [] => (.ok [], log)
  | u :: rest =>
    if log.hasKey u.key then (.error "Duplicate command idempotency key within batch", log)
    else
      let (accepted, log) := log.acceptUnit u
      let (outcome, log) := log.acceptUnits rest
      (outcome.map (accepted :: ·), log)

/-- `stored_batch`, appended under the next journal sequence. -/
def storeBatch (log : JournalLog) (batch : JournalBatch) (units : List CommandUnit) :
    JournalBatch × JournalLog :=
  let seq := log.journalSeq + 1
  let stored := { batch with
    journalSeq := seq
    units
    streamId := if batch.streamId = "" then log.runtimeUri else batch.streamId }
  (stored, { log with journalSeq := seq, batches := log.batches ++ [stored] })

def appendBatch (log : JournalLog) (batch : JournalBatch) : Except String AppendResult × JournalLog :=
  match batch.units with
  | [] => (.error "JournalBatch.units must be non-empty", log)
  | lead :: others =>
    match log.commands.find? lead.key with
    | some stored =>
      (.ok { batch, replayed := true, units := batch.units.map fun _ => ⟨stored, [], []⟩ }, log)
    | none =>
      if others.any fun other => log.hasKey other.key then
        (.error "Corrupt partial history: non-leading idempotency key exists", log)
      else
        match log.acceptUnits batch.units with
        | (.error message, log) => (.error message, log)
        | (.ok units, log) =>
          let (stored, log) := log.storeBatch batch units
          (.ok { batch := stored, replayed := false, units }, log)

/-- A limit of 0 lists all events. -/
def listEvents (log : JournalLog) (runId : String) (afterSequence limit : Int) : List EventRecord :=
  let events := (log.events runId).filter fun event => afterSequence < event.sequence
  if 0 < limit then events.take limit.toNat else events

/-- An empty `runId` loads the batches of all runs. -/
def load (log : JournalLog) (runId : String) (afterJournalSeq : Int) : List JournalBatch :=
  log.batches.filter fun batch =>
    ¬ (0 < afterJournalSeq ∧ batch.journalSeq ≤ afterJournalSeq) ∧ ¬ (runId ≠ "" ∧ batch.runId ≠ runId)

end JournalLog

/-- The columns that an import fills in when they are missing. -/
def EventRecord.restored (command : CommandRecord) (event : EventRecord) : EventRecord :=
  { event with
    runId := if event.runId = "" then command.runId else event.runId
    commandId := if event.commandId = "" then command.id else event.commandId }

namespace JournalLog

/-- One round of the loop of `import_stored_batch`. -/
def importUnit (log : JournalLog) (u : CommandUnit) : JournalLog :=
  let runId := u.command.runId
  { log with
    commands := log.commands.upsert u.command
    eventsByRun := log.eventsByRun.set runId (log.events runId ++ u.events.map (·.restored u.command))
    eventSeqByRun := log.eventSeqByRun.set runId
      (u.events.foldl (fun seq event => max seq event.sequence) (log.eventSeq runId)) }

/-- The journal sequence of an import: a stored one is kept, and counted. -/
def importSeq (log : JournalLog) (batch : JournalBatch) : JournalBatch × JournalLog :=
  if batch.journalSeq ≤ 0 then
    ({ batch with journalSeq := log.journalSeq + 1 }, { log with journalSeq := log.journalSeq + 1 })
  else if log.journalSeq < batch.journalSeq then
    (batch, { log with journalSeq := batch.journalSeq })
  else (batch, log)

theorem importSeq_numbers (log : JournalLog) (batch : JournalBatch) :
    ∃ seq numbered, log.importSeq batch = (numbered, { log with journalSeq := seq }) ∧
      numbered.units = batch.units ∧ numbered.runId = batch.runId := by
  unfold importSeq
  split
  · exact ⟨_, _, rfl, rfl, rfl⟩
  · split
    · exact ⟨_, _, rfl, rfl, rfl⟩
    · exact ⟨log.journalSeq, _, rfl, rfl, rfl⟩

def importStoredBatch (log : JournalLog) (batch : JournalBatch) : Except String Unit × JournalLog :=
  if batch.units = [] then (.error "import_stored_batch requires non-empty units", log)
  else
    let (stored, log) := log.importSeq batch
    let stored := { stored with streamId := if stored.streamId = "" then log.runtimeUri else stored.streamId }
    let log := stored.units.foldl importUnit log
    (.ok (), { log with batches := log.batches ++ [stored] })

end JournalLog
end Fala.Memory
