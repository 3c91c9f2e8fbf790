import Fala.Engine.Calls
import Fala.Journal.Effects

/-! How the driver derives the status of a run from its process rows. -/

namespace Fala.Driver
open Durable Program Journal

/-- `get_run_record` -/
def getRunRecord (runId : String) : Sql RunRecord :=
  .query fun db =>
    match db.runs.find? runId with
    | some row => .ok row
    | none => .error "journal: run row not found"

/-- `list_processes` without its filters. -/
def listProcesses (runId : String) : Sql (List ProcessRow) := do
  requireRun runId
  .fetch fun db => queueOrder (db.processes.rows.filter fun r => r.runId = runId)

/-- How many rows of a run have come how far. -/
structure RowCounts where
  total : Nat
  completed : Nat
  failed : Nat
  waiting : Nat
  incomplete : Nat
  deriving DecidableEq

def countRows (rows : List ProcessRow) : RowCounts where
  total := rows.length
  completed := rows.countP fun r => r.status = .succeeded ∨ r.status = .skipped
  failed := rows.countP fun r =>
    r.status = .failed ∨ r.status = .cancelled ∨ r.status = .timedOut
  waiting := rows.countP fun r => r.status = .waiting
  incomplete := rows.countP fun r => ¬ r.status.isTerminal

structure RunFinalizationResult where
  status : String
  reason : String
  alreadyTerminal : Bool
  counts : RowCounts
  deriving DecidableEq

/-- The arguments of `finalize_run`. -/
structure RunFinalization where
  runId : String
  stoppedReason : String
  maxTicks : Int
  now : String
  idempotencyKey : String := ""
  deriving DecidableEq

namespace RunFinalization

def reasons : List String := ["idle", "max_ticks", "failed", "waiting", "stopped", "already_terminal"]

/-- The status that the rows call for, with its reason. -/
def outcome (f : RunFinalization) (status : String) (counts : RowCounts) : String × String :=
  if 0 < counts.failed then ("failed", "effector_failed")
  else if 0 < counts.total ∧ counts.completed = counts.total then
    ("completed", "all_effectors_succeeded")
  else if f.stoppedReason = "max_ticks" ∧ 0 < f.maxTicks then ("timed_out", "max_ticks")
  else if 0 < counts.waiting ∨ 0 < counts.incomplete ∨ counts.total = 0 ∨
      f.stoppedReason = "idle" ∨ f.stoppedReason = "waiting" ∨ f.stoppedReason = "stopped" ∨
      f.stoppedReason = "failed" then
    ("waiting", "waiting")
  else (status, f.stoppedReason)

def key (f : RunFinalization) (target : String) : String :=
  if f.idempotencyKey = "" then "run.finalize:" ++ f.runId ++ ":" ++ target else f.idempotencyKey

def transition (f : RunFinalization) (outcome : String × String) : RunTransition where
  runId := f.runId
  target := outcome.1
  at_ := f.now
  idempotencyKey := f.key outcome.1
  reason := outcome.2

end RunFinalization

/-- The status change of a finalization, when there is one. -/
def moveRun (f : RunFinalization) (status : String) (outcome : String × String) : Sql Unit :=
  if outcome.1 = status then pure () else (transitionRunStatus (f.transition outcome)).void

/-- What is left to do once the run and its rows are read. -/
def concludeRun (f : RunFinalization) (status : String) (counts : RowCounts) :
    Sql RunFinalizationResult :=
  if (RunStatus.ofValue status).isTerminal then
    return ⟨status, "already_terminal", true, counts⟩
  else do
    let outcome := f.outcome status counts
    moveRun f status outcome
    return ⟨outcome.1, outcome.2, false, counts⟩

/-- `finalize_run` -/
def finalizeRun (f : RunFinalization) : Sql RunFinalizationResult := do
  .require (f.runId ≠ "" ∧ f.stoppedReason ≠ "" ∧ f.now ≠ "")
    "driver: run finalization requires run_id, stopped_reason, and timestamp"
  .require (f.stoppedReason ∈ RunFinalization.reasons)
    ("driver: unknown run finalization reason " ++ f.stoppedReason)
  .require (0 ≤ f.maxTicks) "driver: max_ticks must be non-negative"
  let run ← getRunRecord f.runId
  let rows ← listProcesses f.runId
  concludeRun f run.status (countRows rows)

/-- The calls of the journal with the finalizations between them. -/
inductive RunCall where
  | call (c : Call)
  | finalizeRun (f : RunFinalization)
  deriving DecidableEq

def RunCall.program (digest : Json → String) : RunCall → Sql Unit
  | call c => c.program digest
  | finalizeRun f => (Driver.finalizeRun f).void

def runStep (digest : Json → String) (db : Database) (call : RunCall × Option Nat) : Database :=
  ((call.1.program digest).run ⟨db, call.2⟩).2.store

def afterRuns (digest : Json → String) (calls : List (RunCall × Option Nat)) : Database :=
  Durable.execute (runStep digest) .empty calls

namespace RunFinalization

variable {f : RunFinalization} {db db' : Database} {run : RunRecord}

/-- The arguments that `finalize_run` accepts. -/
structure Accepted (f : RunFinalization) : Prop where
  named : f.runId ≠ "" ∧ f.stoppedReason ≠ "" ∧ f.now ≠ ""
  reason : f.stoppedReason ∈ reasons
  ticks : 0 ≤ f.maxTicks

/-- The statuses of a run that is not over. -/
def liveStatuses : List String := ["created", "active", "waiting", "cancel_requested"]

def counts (f : RunFinalization) (db : Database) : RowCounts :=
  countRows (queueOrder (db.processes.rows.filter fun r => r.runId = f.runId))

/-- The outcome that the stored rows of a run call for. -/
def due (f : RunFinalization) (db : Database) (status : String) : String × String :=
  f.outcome status (f.counts db)

/-- What a finalization returns for a live run. -/
def result (f : RunFinalization) (db : Database) (status : String) : RunFinalizationResult :=
  ⟨(f.due db status).1, (f.due db status).2, false, f.counts db⟩

/-- The call finalizes a live run: it returns, and the run has the status that it returns. -/
def Finalizes (db : Database) (f : RunFinalization) : Prop :=
  f.Accepted → ∀ run, db.runs.find? f.runId = some run → run.status ∈ liveStatuses →
    ∃ result db', (finalizeRun f).eval db = (.ok result, db') ∧
      (db'.runs.find? f.runId).any (fun r => r.status = result.status) = true

/-- A live run is in the status that its rows call for, or the way there is a legal edge of which
    nothing is recorded. -/
def Open (db : Database) (f : RunFinalization) : Prop :=
  f.Accepted → ∀ run, db.runs.find? f.runId = some run → run.status ∈ liveStatuses →
    (f.due db run.status).1 = run.status ∨
      ((f.transition (f.due db run.status)).Fresh db ∧
        canTransitionRun (.ofValue run.status) (.ofValue (f.due db run.status).1) = true)

theorem live_open {status : String} (live : status ∈ liveStatuses) :
    (RunStatus.ofValue status).isTerminal = false := by
  revert status
  decide

theorem outcome_ne (f : RunFinalization) {status : String} (named : status ≠ "")
    (counts : RowCounts) : (f.outcome status counts).1 ≠ "" := by
  unfold outcome
  repeat' split
  all_goals first | exact named | decide

theorem Accepted.named_transition (accepted : f.Accepted) {status : String} (named : status ≠ "")
    (counts : RowCounts) : (f.transition (f.outcome status counts)).Named := by
  refine ⟨f.outcome_ne named counts, accepted.named.2.2, ?_⟩
  simp only [transition, key]
  split
  · rw [String.append_assoc, String.append_assoc]
    exact append_ne _ (by decide)
  · assumption

theorem Accepted.eval (accepted : f.Accepted) (found : db.runs.find? f.runId = some run)
    (live : run.status ∈ liveStatuses) :
    (finalizeRun f).eval db =
      (moveRun f run.status (f.due db run.status) >>= fun _ =>
        pure (f.result db run.status)).eval db := by
  have known : RunKnown db f.runId := ⟨accepted.named.1, Option.isSome_of_eq_some found⟩
  unfold finalizeRun
  rw [ok_bind (require_met (decide_eq_true accepted.named)),
    ok_bind (require_met (decide_eq_true accepted.reason)),
    ok_bind (require_met (decide_eq_true accepted.ticks))]
  refine (ok_bind (query_ok.mpr ⟨by rw [found], rfl⟩)).trans <| (ok_bind ((ok_bind (requireRun_ok (u := ()).mpr ⟨known, rfl⟩)).trans
    (fetch_ok.mpr ⟨rfl, rfl⟩))).trans ?_
  simp only [concludeRun, live_open live]
  rfl

theorem finalizes_iff : Finalizes db f ↔ Open db f := by
  refine forall_congr' fun accepted => forall_congr' fun run => forall_congr' fun found =>
    forall_congr' fun live => ?_
  have named : run.status ≠ "" := by rintro same; rw [same] at live; revert live; decide
  rw [accepted.eval found live]
  by_cases there : (f.due db run.status).1 = run.status
  · refine iff_of_true ⟨f.result db run.status, db, ?_, ?_⟩ (.inl there)
    · rw [moveRun, if_pos there]
      rfl
    · simp [found, result, there]
  · rw [or_iff_right there, moveRun, if_neg there]
    simp only [bind_ok, void_ok, pure_ok]
    constructor
    · rintro ⟨_, db', ⟨_, _, ⟨result, moved⟩, rfl, rfl⟩, status⟩
      rcases RunTransition.of_ok found moved with ⟨-, rfl⟩ | ⟨fresh, legal, -, -⟩
      · rw [found, Option.any_some, decide_eq_true_eq] at status
        exact absurd status.symm there
      · exact ⟨fresh, legal⟩
    · rintro ⟨fresh, legal⟩
      obtain ⟨answer, db', moved, found'⟩ := RunTransition.of_fresh
        (accepted.named_transition named _) accepted.named.1 found fresh legal
      refine ⟨f.result db run.status, db', ⟨(), db', ⟨answer, moved⟩, rfl, rfl⟩, ?_⟩
      rw [show db'.runs.find? f.runId = _ from found', Option.any_some]
      exact decide_eq_true rfl

end RunFinalization

/-- A finalization of the history meets a condition in the state that it is made in. -/
def OnFinalization (C : Database → RunFinalization → Prop) (db : Database)
    (call : RunCall × Option Nat) : Prop :=
  ∀ f, call.1 = .finalizeRun f → C db f

/-- In any history, the finalization of a live run returns with the status that the run then has
    exactly when the run is in the status called for, or a legal edge leads there of which nothing
    is recorded. -/
theorem finalizations_faithful (digest : Json → String) (calls : List (RunCall × Option Nat)) :
    (Along (runStep digest) (OnFinalization RunFinalization.Finalizes) .empty calls ↔
      Along (runStep digest) (OnFinalization RunFinalization.Open) .empty calls) ∧
    ∀ f, RunFinalization.Finalizes (afterRuns digest calls) f ↔
      RunFinalization.Open (afterRuns digest calls) f :=
  ⟨⟨fun along => along.imp fun _ _ each f same => RunFinalization.finalizes_iff.mp (each f same),
      fun along => along.imp fun _ _ each f same => RunFinalization.finalizes_iff.mpr (each f same)⟩,
    fun _ => RunFinalization.finalizes_iff⟩

/-- A run that waited for its process, and was made active again. -/
def resumedRun : List (RunCall × Option Nat) :=
  [(.call (.process (.createRun
      { runId := "run", status := "active", metadata := "\x7b\x7d", createdAt := "t0" })), none),
    (.call (.process (.scheduleProcess
      { runId := "run", processId := "work", processType := "manual", createdAt := "t0" })), none),
    (.finalizeRun ⟨"run", "idle", 0, "t1", ""⟩, none),
    (.call (.record (.transitionRunStatus ⟨"run", "active", "t2", "resume", ""⟩)), none)]

/-- The second time that the run waits, its finalization raises: the key of the first is taken. -/
theorem second_wait_raises :
    ¬ RunFinalization.Finalizes (afterRuns (fun _ => "") resumedRun)
      ⟨"run", "idle", 0, "t3", ""⟩ := by
  intro finalizes
  have raised : ∃ run ∈ (afterRuns (fun _ => "") resumedRun).runs.rows,
      (afterRuns (fun _ => "") resumedRun).runs.find? "run" = some run ∧
        run.status ∈ RunFinalization.liveStatuses ∧
        ((finalizeRun ⟨"run", "idle", 0, "t3", ""⟩).eval (afterRuns (fun _ => "") resumedRun)).1 =
          .error runTransitionConflict := by decide +kernel
  obtain ⟨run, -, found, live, raised⟩ := raised
  obtain ⟨result, db', returned, -⟩ :=
    finalizes ⟨by decide, by decide, by decide⟩ run found live
  rw [returned] at raised
  cases raised

end Fala.Driver
