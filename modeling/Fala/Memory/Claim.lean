import Fala.Status
import Fala.Memory.Journal
import Mathlib.Algebra.Ring.Int.Defs

namespace Fala.Memory

/-! The queue of `processes`. -/

/-- What is used of `Float64`: comparisons and a sum, with no law of either. -/
class Seconds (τ : Type) extends Zero τ, Add τ, BEq τ where
  lt : τ → τ → Bool
  le : τ → τ → Bool

open Seconds (lt le)

instance : Seconds Int where
  lt a b := decide (a < b)
  le a b := decide (a ≤ b)

variable {τ : Type} [Seconds τ]

/-- An empty `leaseOwner` is no lease. -/
structure ProcessRecord (τ : Type) where
  id : String
  runId : String
  status : ProcessStatus
  priority : Int
  attempt : Int
  maxAttempts : Int
  availableAt : τ
  createdAt : τ
  leaseOwner : String
  leaseExpiresAt : τ
  deriving DecidableEq

namespace ProcessRecord

def hasLease (p : ProcessRecord τ) : Bool := p.leaseOwner ≠ ""

def leaseIsExpired (p : ProcessRecord τ) (now : τ) : Bool := p.hasLease && le p.leaseExpiresAt now

def attemptsRemaining (p : ProcessRecord τ) : Bool := p.attempt < p.maxAttempts

/-- The columns that `claim_process` writes. -/
def claim (p : ProcessRecord τ) (workerId : String) (now leaseSeconds : τ) : ProcessRecord τ :=
  { p with
    status := .running
    attempt := p.attempt + 1
    leaseOwner := workerId
    leaseExpiresAt := now + leaseSeconds }

end ProcessRecord

/-- `_is_before` -/
def isBefore (a b : ProcessRecord τ) : Bool :=
  if a.priority ≠ b.priority then b.priority < a.priority
  else if a.availableAt != b.availableAt then lt a.availableAt b.availableAt
  else if a.createdAt != b.createdAt then lt a.createdAt b.createdAt
  else a.id < b.id

def processIsClaimable (p : ProcessRecord τ) (now : τ) : Bool :=
  if ¬ p.attemptsRemaining then false
  else if p.status = .ready then true
  else if p.status = .retryWait then le p.availableAt now
  else if p.status = .running then p.leaseIsExpired now
  else false

/-- One scan for the best row that is not selected yet, with its index. -/
def bestOf (rows : List (ProcessRecord τ)) : Option (ProcessRecord τ × Nat) :=
  rows.zipIdx.foldl
    (fun best entry =>
      match best with
      | none => some entry
      | some held => if isBefore entry.1 held.1 then some entry else best) none

/-- The selection sort, over the rows that are not selected yet. -/
def selectionOrder : Nat → List (ProcessRecord τ) → List (ProcessRecord τ)
  | 0, _ => []
  | fuel + 1, rows =>
    match bestOf rows with
    | none => []
    | some (best, index) => best :: selectionOrder fuel (rows.eraseIdx index)

def readyProcesses (processes : List (ProcessRecord τ)) (now : τ) : List (ProcessRecord τ) :=
  let remaining := processes.filter fun p => processIsClaimable p now
  selectionOrder remaining.length remaining

def claimProcess (p : ProcessRecord τ) (workerId : String) (now leaseSeconds : τ) :
    Except String (ProcessRecord τ) :=
  if workerId = "" then .error "worker_id must not be empty"
  else if le leaseSeconds 0 then .error "lease_seconds must be greater than zero"
  else if ¬ processIsClaimable p now then .error "process is not claimable"
  else if p.status = .running ∧ p.hasLease ∧ ¬ p.leaseIsExpired now ∧ p.leaseOwner ≠ workerId then
    .error "process lease is held by another worker"
  else .ok (p.claim workerId now leaseSeconds)

theorem bestOf_cons (p : ProcessRecord τ) (rest : List (ProcessRecord τ)) :
    ∃ best, bestOf (p :: rest) = some best ∧ best.1 ∈ p :: rest := by
  have scan : ∀ (entries : List (ProcessRecord τ × Nat)) (held : ProcessRecord τ × Nat),
      ∃ best, entries.foldl (fun best entry =>
        match best with
        | none => some entry
        | some held => if isBefore entry.1 held.1 then some entry else best) (some held) = some best ∧
        (best = held ∨ best ∈ entries) := by
    intro entries
    induction entries with
    | nil => exact fun held => ⟨held, rfl, .inl rfl⟩
    | cons entry entries ih =>
      intro held
      by_cases before : isBefore entry.1 held.1 = true
      · have ⟨best, found, member⟩ := ih entry
        refine ⟨best, by simpa [before] using found, .inr ?_⟩
        exact List.mem_cons.mpr member
      · have ⟨best, found, member⟩ := ih held
        exact ⟨best, by simpa [before] using found, member.imp_right (List.mem_cons_of_mem _)⟩
  have ⟨best, found, member⟩ := scan (rest.zipIdx 1) (p, 0)
  refine ⟨best, found, ?_⟩
  rcases member with rfl | member
  · exact List.mem_cons_self
  · exact List.mem_cons_of_mem _ (List.fst_mem_of_mem_zipIdx member)

theorem readyProcesses_head {processes rest : List (ProcessRecord τ)} {now : τ}
    {chosen : ProcessRecord τ} (queue : readyProcesses processes now = chosen :: rest) :
    chosen ∈ processes ∧ processIsClaimable chosen now = true := by
  unfold readyProcesses at queue
  cases remaining : processes.filter fun p => processIsClaimable p now with
  | nil => simp [remaining, selectionOrder] at queue
  | cons p others =>
    have ⟨best, found, member⟩ := bestOf_cons p others
    simp only [remaining, List.length_cons, selectionOrder, found, List.cons.injEq] at queue
    rw [← remaining, queue.1] at member
    exact List.mem_filter.mp member

theorem claimProcess_of_claimable {p : ProcessRecord τ} {workerId : String} {now leaseSeconds : τ}
    (claimable : processIsClaimable p now = true) (lease : le leaseSeconds 0 = false) :
    claimProcess p workerId now leaseSeconds =
      if workerId = "" then .error "worker_id must not be empty"
      else .ok (p.claim workerId now leaseSeconds) := by
  have expired : p.status = .running → p.leaseIsExpired now = true := by
    intro running
    unfold processIsClaimable at claimable
    simp only [running, reduceCtorEq, if_true, if_false] at claimable
    split at claimable
    · cases claimable
    · exact claimable
  have held : ¬ (p.status = .running ∧ p.hasLease = true ∧ ¬ p.leaseIsExpired now = true ∧
      p.leaseOwner ≠ workerId) := fun h => h.2.2.1 (expired h.1)
  simp only [claimProcess, lease, claimable, held, Bool.false_eq_true, if_false, not_true_eq_false]

end Fala.Memory

namespace Fala.Memory
open Durable
open Seconds (lt le)

variable {τ : Type} [Seconds τ]

structure InMemoryJournal (τ : Type) extends JournalLog where
  processes : Table (ProcessRecord.id (τ := τ))
  deriving DecidableEq

namespace ProcessRecord

/-- The columns that reaping writes. -/
def reap (row : ProcessRecord τ) : ProcessRecord τ :=
  { row with status := .failed, leaseOwner := "", leaseExpiresAt := 0 }

end ProcessRecord

/-- A command about a process row and its only event. -/
def processUnit (workerId commandType eventType payloadJson : String) (row : ProcessRecord τ) :
    CommandUnit :=
  let id := commandType ++ ":" ++ row.id ++ ":" ++ toString row.attempt
  { command :=
      { id, runId := row.runId, commandType, idempotencyKey := id, actor := workerId,
        correlationId := "", causationId := "", payloadJson, createdAt := "" }
    events :=
      [{ id := id ++ ":event", runId := row.runId, eventType, schemaVersion := 1, impulseId := "",
         processId := row.id, sequence := 0, commandId := "", actor := workerId,
         correlationId := "", causationId := "", payloadJson, createdAt := "" }]
    facts := [] }

namespace ClaimRequest

def serves (r : ClaimRequest τ) (row : ProcessRecord τ) : Bool :=
  ¬ (r.runId ≠ "" ∧ row.runId ≠ r.runId)

def reaps (r : ClaimRequest τ) (row : ProcessRecord τ) : Bool :=
  r.serves row ∧ row.status = .running ∧ row.leaseIsExpired r.now ∧ ¬ row.attemptsRemaining

def failUnit (r : ClaimRequest τ) (row : ProcessRecord τ) : CommandUnit :=
  processUnit r.workerId "process.fail" "process.failed"
    ("\x7b\"process_id\":\"" ++ row.id ++ "\"\x7d") row

def claimUnit (r : ClaimRequest τ) (claimed : ProcessRecord τ) : CommandUnit :=
  processUnit r.workerId "process.claim" "process.claimed"
    ("\x7b\"process_id\":\"" ++ claimed.id ++ "\",\"worker_id\":\"" ++ r.workerId ++ "\"\x7d") claimed

/-- The checks before anything is read. -/
def refusal (r : ClaimRequest τ) : Option String :=
  if le r.leaseSeconds 0 then some "lease_seconds must be greater than zero"
  else if r.runId = "" ∧ ¬ r.allRuns then some "claim_next requires run_id or all_runs=True"
  else if lt r.now 0 then some "claim_next now must be non-negative"
  else none

end ClaimRequest

namespace InMemoryJournal

/-- `InMemoryJournal(stream_id)` -/
def init (streamId : String) : InMemoryJournal τ := { JournalLog.init streamId with processes := .empty }

def seedProcess (j : InMemoryJournal τ) (p : ProcessRecord τ) : InMemoryJournal τ :=
  { j with processes := j.processes.upsert p }

def getProcess (j : InMemoryJournal τ) (processId : String) : Except String (ProcessRecord τ) :=
  match j.processes.find? processId with
  | none => .error ("unknown process: " ++ processId)
  | some row => .ok row

def appendBatch (j : InMemoryJournal τ) (batch : JournalBatch) :
    Except String AppendResult × InMemoryJournal τ :=
  let (outcome, log) := j.toJournalLog.appendBatch batch
  (outcome, { j with toJournalLog := log })

def importStoredBatch (j : InMemoryJournal τ) (batch : JournalBatch) :
    Except String Unit × InMemoryJournal τ :=
  let (outcome, log) := j.toJournalLog.importStoredBatch batch
  (outcome, { j with toJournalLog := log })

/-- `reaped_ids`, each with its row. -/
def expired (j : InMemoryJournal τ) (r : ClaimRequest τ) : List (ProcessRecord τ) :=
  j.processes.rows.filter r.reaps

/-- The rows after the reaping loop, which sets every listed row once. -/
def reaped (j : InMemoryJournal τ) (r : ClaimRequest τ) : InMemoryJournal τ :=
  { j with
    processes := j.processes.mapRows (fun row => if r.reaps row then row.reap else row)
      (fun row => by split <;> rfl) }

def queue (j : InMemoryJournal τ) (r : ClaimRequest τ) : List (ProcessRecord τ) :=
  readyProcesses (j.processes.rows.filter r.serves) r.now

/-- The end of `claim_next`: the units go to `append_batch` as one batch. -/
def settle (j : InMemoryJournal τ) (batchRunId : String) (units : List CommandUnit)
    (claimedId claimedRun : String) : Except String ClaimResult × InMemoryJournal τ :=
  if units = [] then (.ok ⟨"", "", false, .of batchRunId [], false⟩, j)
  else
    let (outcome, j) := j.appendBatch (.of batchRunId units)
    (outcome.map fun append => ⟨claimedId, claimedRun, true, append.batch, append.replayed⟩, j)

def claimNext (j : InMemoryJournal τ) (r : ClaimRequest τ) :
    Except String ClaimResult × InMemoryJournal τ :=
  match r.refusal with
  | some message => (.error message, j)
  | none =>
    let reapedRun := ((j.expired r).getLast?.map (·.runId)).getD (if r.runId = "" then "mixed" else r.runId)
    let fails := (j.expired r).map r.failUnit
    let j := j.reaped r
    match j.queue r with
    | [] => j.settle reapedRun fails "" ""
    | chosen :: _ =>
      match claimProcess chosen r.workerId r.now r.leaseSeconds with
      | .error message => (.error message, j)
      | .ok claimed =>
        { j with processes := j.processes.upsert claimed }.settle claimed.runId
          (fails ++ [r.claimUnit claimed]) claimed.id claimed.runId

/-- The units of a claim: one for every row it reaps, and one for the row it takes. -/
def claimUnits (j : InMemoryJournal τ) (r : ClaimRequest τ) : List CommandUnit :=
  (j.expired r).map r.failUnit ++
    ((j.queue r).head?.map fun chosen =>
      r.claimUnit (chosen.claim r.workerId r.now r.leaseSeconds)).toList

theorem claimable_unreaped {r : ClaimRequest τ} {row : ProcessRecord τ}
    (claimable : processIsClaimable row r.now = true) : r.reaps row = false := by
  have attempts : row.attemptsRemaining = true := by
    unfold processIsClaimable at claimable
    split at claimable
    · cases claimable
    · rename_i left
      simpa using left
  simp [ClaimRequest.reaps, attempts]

theorem reap_unclaimable (row : ProcessRecord τ) (now : τ) :
    processIsClaimable row.reap now = false := by
  simp [processIsClaimable, ProcessRecord.reap]

theorem queue_reaped (j : InMemoryJournal τ) (r : ClaimRequest τ) : (j.reaped r).queue r = j.queue r := by
  have same : ∀ rows : List (ProcessRecord τ),
      ((rows.map fun row => if r.reaps row then row.reap else row).filter r.serves).filter
          (fun row => processIsClaimable row r.now) =
        (rows.filter r.serves).filter fun row => processIsClaimable row r.now := by
    intro rows
    induction rows with
    | nil => rfl
    | cons row rest ih =>
      simp only [List.filter_filter] at ih ⊢
      rw [List.map_cons, List.filter_cons, List.filter_cons, ih]
      by_cases reaps : r.reaps row = true
      · have stays : processIsClaimable row r.now = false :=
          Bool.eq_false_iff.mpr fun claimable => by rw [claimable_unreaped claimable] at reaps; cases reaps
        simp [reaps, reap_unclaimable, stays]
      · simp [reaps]
  unfold queue readyProcesses reaped
  simp only [Table.mapRows]
  rw [same]

theorem expired_ne_head {j : InMemoryJournal τ} {r : ClaimRequest τ} {row chosen : ProcessRecord τ}
    {rest : List (ProcessRecord τ)} (expired : row ∈ j.expired r) (queue : j.queue r = chosen :: rest) :
    chosen.id ≠ row.id := by
  intro same
  have ⟨listed, claimable⟩ := readyProcesses_head queue
  have ⟨held, reaps⟩ := List.mem_filter.mp expired
  have taken := Table.find?_some.mpr ⟨(List.mem_filter.mp listed).1, same⟩
  rw [Table.find?_some.mpr ⟨held, rfl⟩] at taken
  cases taken
  rw [claimable_unreaped claimable] at reaps
  cases reaps

theorem find?_reaped {j : InMemoryJournal τ} {r : ClaimRequest τ} {row : ProcessRecord τ}
    (expired : row ∈ j.expired r) : (j.reaped r).processes.find? row.id = some row.reap := by
  have ⟨held, reaps⟩ := List.mem_filter.mp expired
  simp only [reaped, Table.find?_mapRows, Table.find?_some.mpr ⟨held, rfl⟩, Option.map_some, reaps, if_true]

/-- What becomes of a claim: it is refused, raises for want of a worker's name, finds
    nothing, or hands its units to `append_batch`. -/
inductive Claimed (j : InMemoryJournal τ) (r : ClaimRequest τ) :
    Except String ClaimResult × InMemoryJournal τ → Prop where
  | refused {message : String} (refusal : r.refusal = some message) : Claimed j r (.error message, j)
  | nameless (accepted : r.refusal = none) (found : j.queue r ≠ []) (noName : r.workerId = "") :
      Claimed j r (.error "worker_id must not be empty", j.reaped r)
  | idle {batch : JournalBatch} (accepted : r.refusal = none) (none : j.claimUnits r = []) :
      Claimed j r (.ok ⟨"", "", false, batch, false⟩, j.reaped r)
  | settles {last : CommandUnit} {claimedId claimedRun : String} {moved : InMemoryJournal τ}
      (accepted : r.refusal = none) (named : j.queue r = [] ∨ r.workerId ≠ "")
      (lastUnit : (j.claimUnits r).getLast? = some last) (log : moved.toJournalLog = j.toJournalLog)
      (reaps : ∀ row ∈ j.expired r, moved.processes.find? row.id = some row.reap) :
      Claimed j r (moved.settle last.command.runId (j.claimUnits r) claimedId claimedRun)

theorem claimNext_claimed (j : InMemoryJournal τ) (r : ClaimRequest τ) : Claimed j r (j.claimNext r) := by
  unfold claimNext
  split
  · rename_i message refusal
    exact .refused refusal
  · rename_i accepted
    have lease : le r.leaseSeconds 0 = false := by
      by_cases short : le r.leaseSeconds 0 = true
      · simp [ClaimRequest.refusal, short] at accepted
      · exact Bool.eq_false_iff.mpr short
    simp only [queue_reaped]
    split
    · rename_i queue
      have units : j.claimUnits r = (j.expired r).map r.failUnit := by simp [claimUnits, queue]
      by_cases none : j.expired r = []
      · rw [none, List.map_nil]
        exact .idle accepted (by rw [units, none, List.map_nil])
      · have listed := List.getLast?_eq_some_getLast none
        generalize (j.expired r).getLast none = last at listed
        have run : last.runId = (r.failUnit last).command.runId := rfl
        rw [listed, Option.map_some, Option.getD_some, ← units, run]
        exact .settles accepted (.inl queue) (by rw [units, List.getLast?_map, listed]; rfl) rfl
          fun _ => find?_reaped
    · rename_i chosen rest queue
      rw [claimProcess_of_claimable (readyProcesses_head queue).2 lease]
      by_cases noName : r.workerId = ""
      · rw [if_pos noName]
        exact .nameless accepted (by rw [queue]; exact List.cons_ne_nil _ _) noName
      · rw [if_neg noName]
        have units : j.claimUnits r = (j.expired r).map r.failUnit ++
            [r.claimUnit (chosen.claim r.workerId r.now r.leaseSeconds)] := by simp [claimUnits, queue]
        have lastUnit : (j.claimUnits r).getLast? =
            some (r.claimUnit (chosen.claim r.workerId r.now r.leaseSeconds)) := by
          rw [units, List.getLast?_concat]
        dsimp only
        rw [← units]
        show j.Claimed r (settle _ (r.claimUnit (chosen.claim r.workerId r.now r.leaseSeconds)).command.runId
          _ _ _)
        refine .settles accepted (.inr noName) lastUnit rfl ?_
        intro row expired
        have other : chosen.id ≠ row.id := expired_ne_head expired queue
        rw [Table.find?_upsert]
        show (if chosen.id = row.id then _ else _) = _
        rw [if_neg other]
        exact find?_reaped expired

/-- The rows after a claim that gets as far as `append_batch`. -/
def granted (j : InMemoryJournal τ) (r : ClaimRequest τ) : InMemoryJournal τ :=
  match j.queue r with
  | [] => j.reaped r
  | chosen :: _ =>
    { j.reaped r with
      processes := (j.reaped r).processes.upsert (chosen.claim r.workerId r.now r.leaseSeconds) }

theorem claimNext_granted {j : InMemoryJournal τ} {r : ClaimRequest τ} (accepted : r.refusal = none)
    (named : j.queue r = [] ∨ r.workerId ≠ "") :
    ∃ runId, (j.claimNext r).2 = { j.granted r with
      toJournalLog := (j.toJournalLog.appendBatch (.of runId (j.claimUnits r))).2 } := by
  have lease : le r.leaseSeconds 0 = false := by
    by_cases short : le r.leaseSeconds 0 = true
    · simp [ClaimRequest.refusal, short] at accepted
    · exact Bool.eq_false_iff.mpr short
  have settled (moved : InMemoryJournal τ) (log : moved.toJournalLog = j.toJournalLog) (runId : String)
      (units : List CommandUnit) (claimedId claimedRun : String) :
      (moved.settle runId units claimedId claimedRun).2 = { moved with
        toJournalLog := (j.toJournalLog.appendBatch (.of runId units)).2 } := by
    unfold settle
    by_cases none : units = []
    · subst none
      rw [if_pos rfl, ← log]
      rfl
    · rw [if_neg none, ← log]
      rfl
  unfold claimNext
  rw [accepted]
  simp only [queue_reaped]
  unfold granted
  split
  · rename_i queue
    have units : j.claimUnits r = (j.expired r).map r.failUnit := by simp [claimUnits, queue]
    rw [units]
    exact ⟨_, settled (j.reaped r) rfl ..⟩
  · rename_i chosen rest queue
    have hasName : r.workerId ≠ "" := named.resolve_left (by rw [queue]; exact List.cons_ne_nil _ _)
    have units : j.claimUnits r = (j.expired r).map r.failUnit ++
        [r.claimUnit (chosen.claim r.workerId r.now r.leaseSeconds)] := by simp [claimUnits, queue]
    rw [claimProcess_of_claimable (readyProcesses_head queue).2 lease, if_neg hasName, units]
    generalize chosen.claim r.workerId r.now r.leaseSeconds = claimed
    exact ⟨_, settled { j.reaped r with processes := (j.reaped r).processes.upsert claimed } rfl ..⟩

theorem claimNext_nameless {j : InMemoryJournal τ} {r : ClaimRequest τ} (accepted : r.refusal = none)
    (found : j.queue r ≠ []) (noName : r.workerId = "") : (j.claimNext r).2 = j.reaped r := by
  have lease : le r.leaseSeconds 0 = false := by
    by_cases short : le r.leaseSeconds 0 = true
    · simp [ClaimRequest.refusal, short] at accepted
    · exact Bool.eq_false_iff.mpr short
  unfold claimNext
  rw [accepted]
  simp only [queue_reaped]
  split
  · rename_i queue
    exact absurd queue found
  · rename_i chosen rest queue
    rw [claimProcess_of_claimable (readyProcesses_head queue).2 lease, if_pos noName]

theorem claimNext_refused {j : InMemoryJournal τ} {r : ClaimRequest τ} {message : String}
    (refusal : r.refusal = some message) : j.claimNext r = (.error message, j) := by
  unfold claimNext
  rw [refusal]

end InMemoryJournal
end Fala.Memory
