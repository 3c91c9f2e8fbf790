import Fala.Domain.Retained
import Fala.Domain.Store
import Fala.Durable.History
import Mathlib.Logic.Function.Basic

/-! Recordings of reactions and collections of their blobs on one store, cut at their file operations and their
    transactions. -/

namespace Fala.Domain
open Durable Journal

/-- A local file, as `materialize_local_reaction_effect` records it: the digest of its bytes and the row's fields. -/
structure Recording where
  digest : String
  id : String
  runId : String
  impulseId : String
  kind : String
  mediaType : String
  sizeBytes : Int
  metadata : Text
  timestamp : String

namespace Recording

def row (r : Recording) : Reaction where
  id := r.id
  runId := r.runId
  kind := r.kind
  uri := "fala-reaction://sha256/" ++ r.digest
  impulseId := r.impulseId
  mediaType := r.mediaType
  sizeBytes := r.sizeBytes
  contentHash := "sha256:" ++ r.digest
  metadata := r.metadata
  createdAt := r.timestamp

def key (r : Recording) : String := "reaction.record:" ++ r.id

def event (r : Recording) : EventInput where
  id := r.key ++ ":event"
  eventType := "reaction.recorded"
  payload := r.row.toJson
  createdAt := r.timestamp
  impulseId := r.impulseId

def call (r : Recording) : DomainCall where
  commandId := r.key
  commandType := "reaction.record"
  idempotencyKey := r.key
  createdAt := r.timestamp
  events := [r.event]

end Recording

/-- How far a recording has come. `removed` is history: a collection removed the blob since the recording found or
    put it. -/
inductive RecordingStage where
  | called
  | looking
  | found
  | missing
  | stored (removed : Bool)
  | finished
  deriving DecidableEq

/-- A call of `maintain_journal`, or of `collect_reaction_garbage`. -/
structure Collection where
  clock : Clock
  maintenance : Option MaintenanceCall
  dryRun : Bool

inductive CollectionStage where
  | called
  | kept (ids : List String)
  | retiring (runs : List RunRecord)
  | referencing
  | listing (referenced found : List String)
  | deleting (digests : List String)
  | verifying (digest : String) (rest : List String)
  | removing (digest : String) (rest : List String)
  | finished

/-- A collection on its way; `since` is history: the digests that were recorded since it read the references. -/
structure Collector where
  stage : CollectionStage
  since : List String

/-- A journal, its reaction store and who works on them. -/
structure Shared where
  archive : Archive
  blobs : List String
  recorders : ℕ → RecordingStage
  collectors : ℕ → Collector

inductive Move where
  | record (i : ℕ)
  | collect (i : ℕ)
  /-- A collection comes across a file while it lists the blobs. -/
  | list (i : ℕ) (digest : String)
  /-- A file operation fails, a check refuses, or the process ends. -/
  | stopRecording (i : ℕ)
  | stopCollection (i : ℕ)

namespace Shared

def setRecorder (w : Shared) (i : ℕ) (stage : RecordingStage) : Shared :=
  { w with recorders := Function.update w.recorders i stage }

def setCollector (w : Shared) (i : ℕ) (stage : CollectionStage) : Shared :=
  { w with collectors := Function.update w.collectors i { w.collectors i with stage } }

end Shared

section
variable (recordings : ℕ → Recording) (collections : ℕ → Collection)

/-- The transaction of a recording, after which every collection on its way has a digest recorded. -/
def commitRecording (w : Shared) (i : ℕ) : Shared :=
  match (recordReaction (recordings i).row (recordings i).call).eval w.archive.db with
  | (.ok _, db) =>
    { w.setRecorder i .finished with
      archive := { w.archive with db }
      collectors := fun j => { w.collectors j with since := (recordings i).digest :: (w.collectors j).since } }
  | (.error _, db) => { w.setRecorder i .finished with archive := { w.archive with db } }

/-- The next step of a recording. -/
def record (w : Shared) (i : ℕ) : Shared :=
  let r := recordings i
  match w.recorders i with
  | .called =>
    match (getRow impulses "domain store: impulse not found" r.runId r.impulseId).eval w.archive.db with
    | (.ok _, _) => w.setRecorder i .looking
    | (.error _, _) => w.setRecorder i .finished
  | .looking => w.setRecorder i (if r.digest ∈ w.blobs then .found else .missing)
  -- the blob that was found is read once more
  | .found => w.setRecorder i (if r.digest ∈ w.blobs then .stored false else .finished)
  | .missing => { w.setRecorder i (.stored false) with blobs := r.digest :: w.blobs }
  | .stored _ => commitRecording recordings w i
  | .finished => w

/-- The removal of a blob, which takes it from those that hold it. -/
def removeBlob (w : Shared) (digest : String) : Shared :=
  { w with
    blobs := w.blobs.filter fun b => b ≠ digest
    recorders := fun i =>
      match w.recorders i with
      | .stored removed => .stored (removed ∨ (recordings i).digest = digest)
      | stage => stage }

/-- The digests in the order in which they are deleted. -/
def garbageOf (referenced found : List String) : List String :=
  (found.filter fun digest => ¬ referenced.contains digest).eraseDups.insertionSort fun left right => left ≤ right

/-- What a retention goes on with. -/
def afterRetention (c : Collection) : CollectionStage :=
  match c.maintenance with
  | some m => if m.reactionRoot = "" then .finished else .referencing
  | none => .referencing

/-- The next step of a collection. -/
def collect (w : Shared) (i : ℕ) : Shared :=
  let c := collections i
  match (w.collectors i).stage with
  | .called =>
    match c.maintenance with
    | some m =>
      w.setCollector i (if 0 ≤ m.olderThanDays ∧ -1 ≤ m.keepLast then .kept (keepRunIds c.clock m.keepLast w.archive.db)
        else .finished)
    | none => w.setCollector i .referencing
  | .kept ids =>
    match c.maintenance with
    | some m =>
      match retentionCandidates c.clock (c.clock.daysAgo m.olderThanDays) [] ids w.archive.db with
      | .ok runs => w.setCollector i (if c.dryRun then afterRetention c else .retiring runs)
      | .error _ => w.setCollector i .finished
    | none => w.setCollector i .finished
  | .retiring [] => w.setCollector i (afterRetention c)
  | .retiring (run :: rest) =>
    match (deleteRun run.id false).eval w.archive with
    | (.ok _, archive) => { w.setCollector i (.retiring rest) with archive }
    | (.error _, archive) => { w.setCollector i .finished with archive }
  | .referencing =>
    { w with
      collectors := Function.update w.collectors i ⟨.listing (referencedReactionDigests w.archive.db) [], []⟩ }
  | .listing referenced found =>
    w.setCollector i (if c.dryRun then .finished else .deleting (garbageOf referenced found))
  | .deleting [] => w.setCollector i .finished
  | .deleting (digest :: rest) =>
    w.setCollector i (if digest ∈ w.blobs then .verifying digest rest else .deleting rest)
  | .verifying digest rest => w.setCollector i (if digest ∈ w.blobs then .removing digest rest else .finished)
  | .removing digest rest =>
    if digest ∈ w.blobs then (removeBlob recordings w digest).setCollector i (.deleting rest)
    else w.setCollector i .finished
  | .finished => w

def listBlob (w : Shared) (i : ℕ) (digest : String) : Shared :=
  match (w.collectors i).stage with
  | .listing referenced found => if digest ∈ w.blobs then w.setCollector i (.listing referenced (found ++ [digest])) else w
  | _ => w

def move (w : Shared) : Move → Shared
  | .record i => record recordings w i
  | .collect i => collect recordings collections w i
  | .list i digest => listBlob w i digest
  | .stopRecording i => w.setRecorder i .finished
  | .stopCollection i => w.setCollector i .finished

/-- What a collection is about to remove was not recorded after it read the references. -/
def Collector.Current (c : Collector) : Prop :=
  match c.stage with
  | .removing digest _ => digest ∉ c.since
  | _ => True

instance (c : Collector) : Decidable c.Current := by
  unfold Collector.Current
  split <;> infer_instance

/-- A recording is not committed once a collection has taken its blob away, and a collection takes no blob away
    that was recorded after it read the references. -/
def Apart (w : Shared) : Move → Prop
  | .record i => w.recorders i ≠ .stored true
  | .collect i => (w.collectors i).Current
  | _ => True

instance (w : Shared) (m : Move) : Decidable (Apart w m) := by
  unfold Apart
  split <;> infer_instance

end
end Fala.Domain
