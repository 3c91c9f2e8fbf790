import Mathlib.Data.List.Sort
import Fala.Domain.Deletion
import Fala.Domain.Records
import Fala.Durable.Session
import Fala.Json.Schema

/-! Retention of old runs and the collection of the blobs that no reaction refers to. -/

namespace Fala.Domain
open Durable

/-- A file of the reaction store under its content address, and whether its bytes still hash to it. -/
structure Blob where
  digest : String
  size : Nat
  intact : Bool
  deriving DecidableEq

/-- A journal and its reaction store; the root of the store may be one that cannot be opened. -/
structure JournalStore where
  archive : Archive
  blobs : Table Blob.digest
  opens : Bool
  deriving DecidableEq

/-- SQLite's date functions: the day that a timestamp stands for, if it is one, and the timestamp of so many days
    ago (empty for `NULL`). -/
structure Clock where
  julianday : String → Option Rat
  daysAgo : Rat → String

/-! Which digests the reactions refer to. -/

/-- The digests that a row refers to: by its content hash and by its URI. -/
def Reaction.digests (r : Reaction) : List String :=
  let hashed :=
    if "sha256:".toList.isPrefixOf r.contentHash.toList ∧ r.contentHash.utf8ByteSize = 71 then
      reactionDigest ("fala-reaction://sha256/" ++ String.ofList (r.contentHash.toList.drop 7))
    else none
  hashed.toList ++ (reactionDigest r.uri).toList

/-- `referenced_reaction_digests` -/
def referencedReactionDigests (db : Database) : List String :=
  ((db.reactions.rows.insertionSort fun left right => left.id ≤ right.id).flatMap Reaction.digests).eraseDups

/-! Which runs are old. -/

/-- `COALESCE(finished_at,updated_at,created_at)`, of which the second is never `NULL`. -/
def finishedText (run : RunRecord) : String := if run.finishedAt ≠ "" then run.finishedAt else run.updatedAt

section
variable (clock : Clock)

def finishedDay (run : RunRecord) : Option Rat := clock.julianday (finishedText run)

/-- `<` on days is not true of `NULL`. -/
def strictlyOlder (run : RunRecord) (before : String) : Bool :=
  match finishedDay clock run, clock.julianday before with
  | some day, some cutoff => decide (day < cutoff)
  | _, _ => false

/-- The order of days in which `NULL` comes first. -/
def dayBelow : Option Rat → Option Rat → Bool
  | none, some _ => true
  | some day, some other => decide (day < other)
  | _, none => false

/-- `ORDER BY julianday(..) DESC,id DESC` -/
def recentFirst (left right : RunRecord) : Bool :=
  dayBelow (finishedDay clock right) (finishedDay clock left) ∨
    (finishedDay clock right = finishedDay clock left ∧ right.id ≤ left.id)

def isTerminal (run : RunRecord) : Bool := defaultRetentionStatuses.contains run.status

/-- The loop of `maintain_journal` over the recent runs. -/
def keepEach (keepLast : Int) : List RunRecord → List String → List String
  | [], kept => kept
  | run :: rest, kept =>
    if (kept.length : Int) < keepLast then
      keepEach keepLast rest (if isTerminal run then kept ++ [run.id] else kept)
    else kept

def keepRunIds (keepLast : Int) (db : Database) : List String :=
  if 0 < keepLast then keepEach keepLast (db.runs.rows.insertionSort fun left right => recentFirst clock left right) []
  else []

def retentionBeforeEmpty : String := "domain store: retention before must not be empty"
def retentionBeforeInvalid : String := "domain store: retention before must be a valid timestamp"
def retentionStatusInvalid : String := "domain store: retention status must be terminal"

/-- The candidates of `run_retention`. -/
def retentionCandidates (before : String) (statuses keepIds : List String) (db : Database) :
    Except String (List RunRecord) := do
  Schema.ensure (before ≠ "") retentionBeforeEmpty
  Schema.ensure (clock.julianday before).isSome retentionBeforeInvalid
  let selected := if statuses.isEmpty then defaultRetentionStatuses else statuses
  Schema.ensure (selected.all defaultRetentionStatuses.contains) retentionStatusInvalid
  return ((db.runs.rows.filter fun run => strictlyOlder clock run before).insertionSort fun left right =>
      left.createdAt < right.createdAt ∨ (left.createdAt = right.createdAt ∧ left.id ≤ right.id)).filter
    fun run => selected.contains run.status ∧ ¬ keepIds.contains run.id

end

structure RunRetentionItem where
  run : RunRecord
  deleted : Bool
  rowCounts : RunDeleteCounts

structure RunRetentionPlan where
  dryRun : Bool
  before : String
  runs : List RunRetentionItem

namespace RunRetentionPlan

def runIds (plan : RunRetentionPlan) : List String := plan.runs.map fun item => item.run.id

end RunRetentionPlan

/-- `delete_run` on the journal of the store. -/
def deleteStoredRun (runId : String) : Session JournalStore RunDeleteCounts :=
  Session.program ((deleteRun runId false).focus JournalStore.archive fun s archive => { s with archive })

def retireEach (dryRun : Bool) : List RunRecord → Session JournalStore (List RunRetentionItem)
  | [] => pure []
  | run :: rest => do
    let counts ← if dryRun then pure (.none run.id) else deleteStoredRun run.id
    let items ← retireEach dryRun rest
    return ⟨run, ¬ dryRun ∧ counts.rows .runs = 1, counts⟩ :: items

def readStore (f : JournalStore → Except String α) : Session JournalStore α := fun s => (f s, s)

/-- `run_retention` -/
def runRetention (clock : Clock) (before : String) (statuses : List String) (dryRun : Bool) (keepIds : List String) :
    Session JournalStore RunRetentionPlan := do
  let candidates ← readStore fun s => retentionCandidates clock before statuses keepIds s.archive.db
  let items ← retireEach dryRun candidates
  return ⟨dryRun, before, items⟩

structure ReactionGarbageCollectionPlan where
  dryRun : Bool
  reactionRoot : String
  referencedCount : Nat := 0
  blobCount : Nat := 0
  keptCount : Nat := 0
  candidates : List String := []
  bytesReclaimable : Nat := 0
  deleted : List String := []
  bytesReclaimed : Nat := 0
  deriving DecidableEq

def blobMismatch : String := "Stored reaction blob digest mismatch"

/-- `list_blobs`: every blob is verified. -/
def listBlobs (s : JournalStore) : Except String (List Blob) := do
  Schema.ensure s.opens "reaction root cannot be opened"
  Schema.ensure (s.blobs.rows.all fun b => b.intact) blobMismatch
  return s.blobs.rows.insertionSort fun left right => left.digest ≤ right.digest

/-- `delete_blobs` on digests in their normal order. -/
def deleteBlobs : List String → Session JournalStore (List String)
  | [] => pure []
  | digest :: rest => do
    let found ← readStore fun s => .ok (s.blobs.find? digest)
    match found with
    | none => deleteBlobs rest
    | some blob =>
      Session.require blob.intact blobMismatch
      (fun s => (.ok (), { s with blobs := s.blobs.filter fun b => b.digest ≠ digest }) : Session JournalStore Unit)
      let deleted ← deleteBlobs rest
      return digest :: deleted

def totalSize (blobs : List Blob) : Nat := (blobs.map Blob.size).sum

/-- What a collection reports on the blobs that it found. -/
def collectionPlan (reactionRoot : String) (dryRun : Bool) (referenced : List String) (blobs garbage : List Blob)
    (deleted : List String) : ReactionGarbageCollectionPlan where
  dryRun := dryRun
  reactionRoot := reactionRoot
  referencedCount := referenced.length
  blobCount := blobs.length
  keptCount := blobs.length - garbage.length
  candidates := garbage.map Blob.digest
  bytesReclaimable := totalSize garbage
  deleted := deleted
  bytesReclaimed := totalSize (garbage.filter fun b => deleted.contains b.digest)

/-- The collection of `maintain_journal`. -/
def collectBlobs (reactionRoot : String) (dryRun : Bool) : Session JournalStore ReactionGarbageCollectionPlan := do
  let referenced ← readStore fun s => .ok (referencedReactionDigests s.archive.db)
  let blobs ← readStore listBlobs
  let garbage := blobs.filter fun b => ¬ referenced.contains b.digest
  let deleted ← if dryRun then pure [] else deleteBlobs (garbage.map Blob.digest)
  return collectionPlan reactionRoot dryRun referenced blobs garbage deleted

structure JournalMaintenancePlan where
  dryRun : Bool
  before : String
  retention : RunRetentionPlan
  reactionGc : ReactionGarbageCollectionPlan
  vacuumed : Bool

/-- The arguments of `maintain_journal` but for the dry run. -/
structure MaintenanceCall where
  olderThanDays : Rat
  keepLast : Int := -1
  vacuum : Bool := true
  reactionRoot : String := ""
  deriving DecidableEq

def collectionFailed (message : String) : String := "domain store: reaction GC failed: " ++ message

def maintainBlobs (reactionRoot : String) (dryRun : Bool) : Session JournalStore ReactionGarbageCollectionPlan :=
  if reactionRoot = "" then pure { dryRun, reactionRoot := "" }
  else (collectBlobs reactionRoot dryRun).handle fun message => Session.raise (collectionFailed message)

/-- `maintain_journal` -/
def maintainJournal (clock : Clock) (c : MaintenanceCall) (dryRun : Bool) :
    Session JournalStore JournalMaintenancePlan := do
  Session.require (0 ≤ c.olderThanDays) "domain store: older_than_days must be non-negative"
  Session.require (-1 ≤ c.keepLast) "domain store: keep_last must be non-negative"
  let before := clock.daysAgo c.olderThanDays
  let keepIds ← readStore fun s => .ok (keepRunIds clock c.keepLast s.archive.db)
  let retention ← runRetention clock before [] dryRun keepIds
  let reactionGc ← maintainBlobs c.reactionRoot dryRun
  return ⟨dryRun, before, retention, reactionGc, c.vacuum ∧ ¬ dryRun⟩

end Fala.Domain

/-! What a maintenance call deletes, beside what its dry run lists. -/

namespace Fala.Domain
open Durable Program

/-! A deletion of a known run returns. -/

/-- The tables whose rows may refer to a row of this one. -/
def children : TableName → List TableName
  | .commands => [.events]
  | .impulses => [.impulseRelations, .reactions, .processes]
  | _ => []

theorem outside_of_empty {db : Database} {runId : String} {t : TableName} (empty : db.rowsIn runId t = []) :
    ∀ row ∈ db.rowsOf t, t.runOf row ≠ runId := by
  intro row member here
  have outside := List.filter_eq_nil_iff.mp empty row member
  exact outside (decide_eq_true here)

theorem refusal_none {a : Archive} {runId : String} {t : TableName} (events : a.stops .eventsNoDelete = false)
    (commands : a.stops .commandsNoDelete = false) (empty : ∀ child ∈ children t, a.db.rowsIn runId child = []) :
    refusal a runId t = none := by
  cases t with
  | events => simp [refusal, events]
  | commands =>
    have outside := outside_of_empty (empty .events (by decide))
    have none : (a.db.events.rows.any fun e => decide (e.runId = runId ∧ e.commandId ≠ "")) = false := by
      rw [List.any_eq_false]
      intro row member held
      exact outside row member (of_decide_eq_true held).1
    simp only [refusal, commands, Bool.false_eq_true, false_and, if_false, none]
  | impulses =>
    have relations : (a.db.impulseRelations.rows.any fun r => decide (r.runId = runId)) = false := by
      rw [List.any_eq_false]
      intro row member held
      exact outside_of_empty (empty .impulseRelations (by decide)) row member (of_decide_eq_true held)
    have reactions : (a.db.reactions.rows.any fun r => decide (r.runId = runId ∧ r.impulseId ≠ "")) = false := by
      rw [List.any_eq_false]
      intro row member held
      exact outside_of_empty (empty .reactions (by decide)) row member (of_decide_eq_true held).1
    have processes : (a.db.processes.rows.any fun r => decide (r.runId = runId ∧ r.impulseId ≠ "")) = false := by
      rw [List.any_eq_false]
      intro row member held
      exact outside_of_empty (empty .processes (by decide)) row member (of_decide_eq_true held).1
    simp only [refusal, relations, reactions, processes, Bool.false_eq_true, or_false, if_false]
  | runs | impulseTypes | impulseRelations | associations | reactions | processes | homeostats | projections
  | bridgeOutbox | bridgeInbox => rfl

/-- Every table comes after the tables that refer to it. -/
def ordered : List TableName → List TableName → Bool
  | _, [] => true
  | done, t :: rest => (children t).all done.contains && ordered (t :: done) rest

theorem deleteEach_returns {runId : String} (done : List TableName) {tables : List TableName} {a : Archive} (counts : RunDeleteCounts)
    (events : a.stops .eventsNoDelete = false) (commands : a.stops .commandsNoDelete = false)
    (empty : ∀ t ∈ done, a.db.rowsIn runId t = []) (later : ordered done tables = true) :
    ∃ counts' a', (deleteEach runId tables counts).eval a = (.ok counts', a') := by
  induction tables generalizing done a counts with
  | nil => exact ⟨counts, a, rfl⟩
  | cons t rest ih =>
    rw [ordered, Bool.and_eq_true] at later
    obtain ⟨ready, later⟩ := later
    have free : refusal a runId t = none := by
      apply refusal_none events commands
      intro child member
      have listed := List.all_eq_true.mp ready child member
      exact empty child (List.contains_iff_mem.mp listed)
    have first : (deleteFrom runId t).eval a =
        (.ok (a.db.rowsIn runId t).length, { a with db := a.db.without runId t }) := deleteFrom_ok.mpr ⟨free, rfl, rfl⟩
    have cleared : ∀ s ∈ t :: done, (a.db.without runId t).rowsIn runId s = [] := by
      intro s member
      by_cases same : t = s
      · subst same
        exact rowsIn_without_same _ _ _
      · rw [rowsIn_without_other _ _ _ same]
        rcases List.mem_cons.mp member with rfl | member
        · exact absurd rfl same
        · exact empty s member
    obtain ⟨counts', a', ends⟩ := ih (t :: done) (a := { a with db := a.db.without runId t }) (counts.set t _) events
      commands cleared later
    exact ⟨counts', a', bind_ok.mpr ⟨_, _, first, ends⟩⟩

theorem deletionOrder_ordered : ordered [] deletionOrder = true := by decide

theorem stops_dropped (triggers : Table Trigger.name) (db : Database) :
    Archive.stops ⟨db, (triggers.filter fun t => t.name ≠ "runtime_events_no_delete").filter fun t =>
        t.name ≠ "runtime_commands_no_delete"⟩ .eventsNoDelete = false ∧
      Archive.stops ⟨db, (triggers.filter fun t => t.name ≠ "runtime_events_no_delete").filter fun t =>
        t.name ≠ "runtime_commands_no_delete"⟩ .commandsNoDelete = false := by
  constructor <;> (rw [Archive.stops, List.any_eq_false]; intro t member stopped)
  · obtain ⟨named, -⟩ := of_decide_eq_true stopped
    simp only [Table.filter_rows, List.mem_filter, decide_eq_true_eq] at member
    exact member.1.2 named
  · obtain ⟨named, -⟩ := of_decide_eq_true stopped
    simp only [Table.filter_rows, List.mem_filter, decide_eq_true_eq] at member
    exact member.2 named

theorem deleteRun_returns {runId : String} {a : Archive} (named : runId ≠ "") {run : RunRecord}
    (found : a.db.runs.find? runId = some run) :
    ∃ counts a', (deleteRun runId false).eval a = (.ok counts, a') := by
  obtain ⟨events, commands⟩ := stops_dropped a.triggers a.db
  obtain ⟨counts, emptied, each⟩ := deleteEach_returns [] (.none runId) events commands
    (fun _ member => (nomatch member)) deletionOrder_ordered
  let created := (emptied.triggers.insert? eventsTrigger).getD emptied.triggers
  refine ⟨counts, ⟨emptied.db, (created.insert? commandsTrigger).getD created⟩, transact_ok.mpr ?_⟩
  simp only [deleteRunBody, bind_ok, require_ok, query_ok, dropTrigger_ok, createTrigger_ok, pure_ok]
  exact ⟨(), _, ⟨decide_eq_true named, rfl⟩, run.status, _, ⟨by simp [found], rfl⟩, (), _, ⟨by simp, rfl⟩, (), _, rfl, (),
    _, rfl, counts, emptied, each, (), _, rfl, (), _, rfl, rfl, rfl⟩

/-! What is left of a store. -/

/-- The rows of some runs are gone, and nothing else is. -/
structure Retired (ids : List String) (s s' : JournalStore) : Prop where
  blobs : s'.blobs = s.blobs
  opens : s'.opens = s.opens
  rows : ∀ t row, row ∈ s'.archive.db.rowsOf t ↔ row ∈ s.archive.db.rowsOf t ∧ t.runOf row ∉ ids

theorem Retired.none (s : JournalStore) : Retired [] s s := ⟨rfl, rfl, fun _ _ => by simp⟩

theorem Deleted.rows {runId : String} {terminalOnly : Bool} {a a' : Archive} {counts : RunDeleteCounts}
    (deleted : Deleted runId terminalOnly a a' counts) (t : TableName) (row : t.Row) :
    row ∈ a'.db.rowsOf t ↔ row ∈ a.db.rowsOf t ∧ t.runOf row ≠ runId := by
  have inRun : ∀ db : Database, row ∈ db.rowsOf t ↔ row ∈ db.rowsIn (t.runOf row) t := by
    intro db
    rw [Database.rowsIn, List.mem_filter]
    simp
  by_cases here : t.runOf row = runId
  · have gone := deleted.gone t
    rw [inRun, here, gone]
    simp
  · rw [inRun, deleted.kept t _ here, ← inRun]
    simp [here]

theorem deleteStoredRun_returns {s : JournalStore} {run : RunRecord} (member : run ∈ s.archive.db.runs.rows)
    (named : run.id ≠ "") :
    ∃ counts s', deleteStoredRun run.id s = (.ok counts, s') ∧ Retired [run.id] s s' := by
  have found : s.archive.db.runs.find? run.id = some run := Table.find?_some.mpr ⟨member, rfl⟩
  obtain ⟨counts, archive, returned⟩ := deleteRun_returns named found
  refine ⟨counts, { s with archive }, Program.focus_ok.mpr ⟨archive, returned, rfl⟩, rfl, rfl, fun t row => ?_⟩
  have deleted : Deleted run.id false s.archive archive counts := deleteRunBody_ok (transact_ok.mp returned)
  rw [deleted.rows t row, List.mem_singleton]

theorem retireEach_retires {runs : List RunRecord} {s : JournalStore} (distinct : (runs.map RunRecord.id).Nodup)
    (known : ∀ run ∈ runs, run ∈ s.archive.db.runs.rows) (named : ∀ run ∈ runs, run.id ≠ "") :
    ∃ items s', retireEach false runs s = (.ok items, s') ∧ items.map RunRetentionItem.run = runs ∧
      Retired (runs.map RunRecord.id) s s' := by
  induction runs generalizing s with
  | nil => exact ⟨[], s, rfl, rfl, .none s⟩
  | cons run rest ih =>
    obtain ⟨fresh, distinct⟩ := List.nodup_cons.mp distinct
    obtain ⟨counts, middle, returned, first⟩ := deleteStoredRun_returns (known run List.mem_cons_self)
      (named run List.mem_cons_self)
    have later : ∀ other ∈ rest, other ∈ middle.archive.db.runs.rows := by
      intro other member
      apply (first.rows .runs other).mpr
      refine ⟨known other (List.mem_cons_of_mem _ member), ?_⟩
      rw [List.mem_singleton]
      intro same
      exact fresh (List.mem_map.mpr ⟨other, member, same⟩)
    obtain ⟨items, left, ends, same, retired⟩ := ih distinct later fun other member =>
      named other (List.mem_cons_of_mem _ member)
    refine ⟨⟨run, ¬ false ∧ counts.rows .runs = 1, counts⟩ :: items, left, ?_, by rw [List.map_cons, same], ?_⟩
    · exact Session.bind_ok.mpr ⟨counts, middle, returned, Session.bind_ok.mpr ⟨items, left, ends, rfl⟩⟩
    · refine ⟨retired.blobs.trans first.blobs, retired.opens.trans first.opens, fun t row => ?_⟩
      rw [retired.rows t row, first.rows t row, List.map_cons, List.mem_singleton, List.mem_cons, not_or, and_assoc]

theorem retireEach_plans (runs : List RunRecord) (s : JournalStore) :
    ∃ items, retireEach true runs s = (.ok items, s) ∧ items.map RunRetentionItem.run = runs := by
  induction runs with
  | nil => exact ⟨[], rfl, rfl⟩
  | cons run rest ih =>
    obtain ⟨items, ends, same⟩ := ih
    refine ⟨⟨run, ¬ true ∧ (RunDeleteCounts.none run.id).rows .runs = 1, .none run.id⟩ :: items, ?_, by
      rw [List.map_cons, same]⟩
    exact Session.bind_ok.mpr ⟨.none run.id, s, rfl, Session.bind_ok.mpr ⟨items, s, ends, rfl⟩⟩

theorem deleteBlobs_returns {digests : List String} {s : JournalStore} (intact : ∀ b ∈ s.blobs.rows, b.intact = true) :
    ∃ deleted s', deleteBlobs digests s = (.ok deleted, s') ∧ s'.archive = s.archive ∧
      ∀ b, b ∈ s'.blobs.rows ↔ b ∈ s.blobs.rows ∧ b.digest ∉ digests := by
  induction digests generalizing s with
  | nil => exact ⟨[], s, rfl, rfl, fun b => by simp⟩
  | cons digest rest ih =>
    cases found : s.blobs.find? digest with
    | none =>
      obtain ⟨deleted, left, ends, same, blobs⟩ := ih intact
      refine ⟨deleted, left, ?_, same, fun b => ?_⟩
      · refine Session.bind_ok.mpr ⟨none, s, by rw [readStore, found], ?_⟩
        exact ends
      · rw [blobs, List.mem_cons, not_or]
        constructor
        · rintro ⟨member, outside⟩
          refine ⟨member, ?_, outside⟩
          intro here
          exact Table.find?_none.mp found (List.mem_map.mpr ⟨b, member, here⟩)
        · rintro ⟨member, -, outside⟩
          exact ⟨member, outside⟩
    | some blob =>
      have whole := intact blob (Table.find?_some.mp found).1
      obtain ⟨deleted, left, ends, same, blobs⟩ :=
        ih (s := { s with blobs := s.blobs.filter fun b => b.digest ≠ digest }) fun b member =>
          intact b (List.mem_filter.mp member).1
      refine ⟨digest :: deleted, left, ?_, same, fun b => ?_⟩
      · refine Session.bind_ok.mpr ⟨some blob, s, by rw [readStore, found], ?_⟩
        refine Session.bind_ok.mpr ⟨(), s, Session.require_ok.mpr ⟨whole, rfl⟩, ?_⟩
        refine Session.bind_ok.mpr ⟨(), { s with blobs := s.blobs.filter fun b => b.digest ≠ digest }, rfl, ?_⟩
        exact Session.bind_ok.mpr ⟨deleted, left, ends, rfl⟩
      · rw [blobs, Table.filter_rows, List.mem_filter, List.mem_cons, not_or, and_assoc, decide_eq_true_eq]

end Fala.Domain
