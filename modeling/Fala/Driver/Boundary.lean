import Fala.Driver.Finalization
import Fala.Engine.Actions
import Fala.Bridge.Operations
import Fala.Durable.Session
import Fala.Journal.Complete

/-! The status of a run as another journal observes it, beside the one its own driver records. -/

namespace Fala.Driver
open Durable Program Journal

/-- `list_events` without its filters. -/
def listEvents (runId : String) : Sql (List EventRow) := do
  requireRun runId
  .fetch fun db => (db.events.rows.filter fun e => e.runId = runId).insertionSort
    fun left right => left.sequence ≤ right.sequence

def boundaryStatuses : List ProcessStatus :=
  [.cancelRequested, .cancelled, .failed, .pending, .ready, .retryWait, .running, .skipped,
    .succeeded, .timedOut, .waiting]

def boundaryCount (rows : List ProcessRow) (status : ProcessStatus) : Nat :=
  rows.countP fun r => r.status = status

def boundaryCountsJson (rows : List ProcessRow) : Text :=
  .template ((boundaryStatuses.filter fun status => 0 < boundaryCount rows status).map
    fun status => (status.value, .number (boundaryCount rows status)))

structure RunBoundaryResult where
  runId : String
  status : String
  derivedStatus : String
  processStatusCounts : Text
  eventWatermark : Nat
  deriving DecidableEq

/-- The status that a scan of the rows derives for a run. -/
def derivedStatus (status : String) (rows : List ProcessRow) : String :=
  if (RunStatus.ofValue status).isTerminal then status
  else if rows.any fun r => r.status = .failed ∨ r.status = .cancelled ∨ r.status = .timedOut then
    "failed"
  else if 0 < rows.length ∧ rows.all fun r => r.status = .succeeded ∨ r.status = .skipped then
    "completed"
  else if rows.any fun r => r.status = .waiting then "waiting"
  else status

def boundaryOf (runId status : String) (rows : List ProcessRow) (events : List EventRow) :
    RunBoundaryResult where
  runId
  status
  derivedStatus := derivedStatus status rows
  processStatusCounts := boundaryCountsJson rows
  eventWatermark := (events.getLast?.map EventRow.sequence).getD 0

/-- `observe_run_boundary` -/
def observeRunBoundary (runId : String) : Sql RunBoundaryResult := do
  .require (runId ≠ "") "driver: boundary run_id must not be empty"
  let run ← getRunRecord runId
  let rows ← listProcesses runId
  let events ← listEvents runId
  return boundaryOf runId run.status rows events

section Scans

variable {rows : List ProcessRow} {status : String}

theorem countRows_failed :
    0 < (countRows rows).failed ↔
      (rows.any fun r => r.status = .failed ∨ r.status = .cancelled ∨ r.status = .timedOut) =
        true := by
  simp [countRows, List.countP_pos_iff, List.any_eq_true]

theorem countRows_completed :
    (countRows rows).completed = (countRows rows).total ↔
      (rows.all fun r => r.status = .succeeded ∨ r.status = .skipped) = true := by
  simp [countRows, List.countP_eq_length, List.all_eq_true]

theorem countRows_incomplete (unfailed : ¬ 0 < (countRows rows).failed)
    (unfinished : ¬ (0 < (countRows rows).total ∧
      (countRows rows).completed = (countRows rows).total)) :
    0 < (countRows rows).incomplete ∨ (countRows rows).total = 0 := by
  by_cases none_ : (countRows rows).total = 0
  · exact .inr none_
  have some_ : 0 < (countRows rows).total := Nat.pos_of_ne_zero none_
  rw [countRows_completed] at unfinished
  have missed : ¬ (rows.all fun r => r.status = .succeeded ∨ r.status = .skipped) = true :=
    fun all => unfinished ⟨some_, all⟩
  rw [countRows_failed] at unfailed
  simp only [List.all_eq_true, List.any_eq_true, decide_eq_true_eq, not_forall, not_exists,
    not_and] at missed unfailed
  obtain ⟨row, member, open'⟩ := missed
  have unfailed := unfailed row member
  refine .inl (List.countP_pos_iff.mpr ⟨row, member, ?_⟩)
  cases h : row.status <;> simp [h, ProcessStatus.isTerminal] at open' unfailed ⊢

end Scans

namespace RunFinalization

variable {f : RunFinalization} {db db' : Database} {status : String}

/-- What a finalization makes of an unfinished run whose rows another scan has judged. -/
def settles (f : RunFinalization) (derived : String) : String :=
  if derived = "failed" ∨ derived = "completed" then derived
  else if f.stoppedReason = "max_ticks" ∧ 0 < f.maxTicks then "timed_out"
  else "waiting"

theorem unfinished_ne (unfinished : (RunStatus.ofValue status).isTerminal = false) :
    status ≠ "failed" ∧ status ≠ "completed" := by
  constructor <;> rintro rfl <;> revert unfinished <;> decide

theorem outcome_derived (f : RunFinalization) {rows : List ProcessRow}
    (unfinished : (RunStatus.ofValue status).isTerminal = false) :
    (f.outcome status (countRows rows)).1 = f.settles (derivedStatus status rows) := by
  obtain ⟨running, open'⟩ := unfinished_ne unfinished
  have total : (countRows rows).total = rows.length := rfl
  by_cases failed : 0 < (countRows rows).failed
  · simp only [outcome, failed, if_true, derivedStatus, unfinished, countRows_failed.mp failed]
    rfl
  have unfailed := mt countRows_failed.mpr failed
  by_cases finished : 0 < (countRows rows).total ∧
      (countRows rows).completed = (countRows rows).total
  · have all := finished
    rw [countRows_completed, total] at all
    simp only [outcome, failed, finished, if_false, derivedStatus, unfinished, unfailed, all]
    rfl
  have left := countRows_incomplete failed finished
  have notAll := finished
  rw [countRows_completed, total] at notAll
  have derived : derivedStatus status rows =
      if rows.any fun r => r.status = .waiting then "waiting" else status := by
    simp only [derivedStatus, unfinished, unfailed, notAll]
    rfl
  have unsettled : ¬ (derivedStatus status rows = "failed" ∨
      derivedStatus status rows = "completed") := by
    rw [derived]
    split <;> simp [running, open']
  simp only [outcome, failed, finished, if_false, settles, unsettled]
  split
  · rfl
  · rw [if_pos]
    rcases left with left | left <;> simp [left]

theorem finalizeRun_ok {result : RunFinalizationResult}
    (h : (finalizeRun f).eval db = (.ok result, db')) :
    f.runId ≠ "" ∧ ∃ run, db.runs.find? f.runId = some run ∧
      (((RunStatus.ofValue run.status).isTerminal = true ∧ result.status = run.status ∧ db' = db) ∨
        ((RunStatus.ofValue run.status).isTerminal = false ∧ result = f.result db run.status ∧
          (moveRun f run.status (f.due db run.status)).eval db = (.ok (), db'))) := by
  unfold finalizeRun getRunRecord listProcesses at h
  simp only [bind_ok, require_ok, query_ok, requireRun_ok, fetch_ok] at h
  obtain ⟨_, _, ⟨named, rfl⟩, _, _, ⟨-, rfl⟩, _, _, ⟨-, rfl⟩, run, _, ⟨found, rfl⟩, _, _,
    ⟨_, _, ⟨-, rfl⟩, rfl, rfl⟩, h⟩ := h
  refine ⟨(of_decide_eq_true named).1, ?_⟩
  cases here : db.runs.find? f.runId with
  | none => simp [here] at found
  | some run' =>
    obtain rfl : run' = run := by simpa [here] using found
    refine ⟨run', rfl, ?_⟩
    unfold concludeRun at h
    cases terminal : (RunStatus.ofValue run'.status).isTerminal with
    | true =>
      simp only [terminal, if_true, pure_ok] at h
      obtain ⟨rfl, rfl⟩ := h
      exact .inl ⟨rfl, rfl, rfl⟩
    | false =>
      simp only [terminal, Bool.false_eq_true, if_false, bind_ok, pure_ok] at h
      obtain ⟨_, _, moved, rfl, rfl⟩ := h
      exact .inr ⟨rfl, rfl, moved⟩

/-- The run has the status that it was moved to, unless a command under the key of the move was
    there before. -/
theorem moveRun_ok {run : RunRecord} {outcome : String × String}
    (found : db.runs.find? f.runId = some run)
    (moved : (moveRun f run.status outcome).eval db = (.ok (), db')) :
    (db'.runs.find? f.runId).any (fun r => r.status = outcome.1) = true ∨
      (db.commandByKey f.runId (f.key outcome.1)).isSome = true ∧ db' = db := by
  unfold moveRun at moved
  by_cases there : outcome.1 = run.status
  · rw [if_pos there, pure_ok] at moved
    obtain rfl := moved.2
    exact .inl (by simp [found, there])
  · rw [if_neg there, void_ok] at moved
    obtain ⟨answer, moved⟩ := moved
    rcases RunTransition.of_ok found moved with ⟨⟨prior, recorded, -⟩, rfl⟩ | ⟨-, -, changed, -⟩
    · exact .inr ⟨Option.isSome_of_eq_some recorded, rfl⟩
    · refine .inl ?_
      rw [show db'.runs.find? f.runId = _ from changed, Option.any_some]
      exact decide_eq_true rfl

end RunFinalization

theorem observeRunBoundary_eval {db : Database} {run : RunRecord} {runId : String}
    (named : runId ≠ "") (found : db.runs.find? runId = some run) :
    ∃ events, (observeRunBoundary runId).eval db =
      (.ok (boundaryOf runId run.status
        (queueOrder (db.processes.rows.filter fun r => r.runId = runId)) events), db) := by
  have known : RunKnown db runId := ⟨named, Option.isSome_of_eq_some found⟩
  refine ⟨(db.events.rows.filter fun e => e.runId = runId).insertionSort
    fun left right => left.sequence ≤ right.sequence, ?_⟩
  unfold observeRunBoundary
  rw [ok_bind (require_met (decide_eq_true named)),
    ok_bind (show (getRunRecord runId).eval db = (.ok run, db) from
      query_ok.mpr ⟨by rw [found], rfl⟩)]
  refine (ok_bind ((ok_bind (requireRun_ok (u := ()).mpr ⟨known, rfl⟩)).trans
    (fetch_ok.mpr ⟨rfl, rfl⟩))).trans ?_
  exact (ok_bind ((ok_bind (requireRun_ok (u := ()).mpr ⟨known, rfl⟩)).trans
    (fetch_ok.mpr ⟨rfl, rfl⟩))).trans rfl

/-- The call reopens the homeostat of a process. -/
def Reopens (k : String × String) : Call → Prop
  | .process (.reopenHomeostatProcess r) => (r.runId, r.processId) = k
  | _ => False

theorem step_done (digest : Json → String) {db : Database} (consistent : Consistent db)
    (call : Call × Option Nat) {k : String × String} (closed : ¬ Reopens k call.1)
    {old : ProcessRow} (found : db.processes.find? k = some old)
    (done : old.status = .succeeded ∨ old.status = .skipped) :
    (step digest db call).processes.find? k = some old := by
  obtain ⟨new, found', rfl⟩ := (step_does digest consistent call).row (Q := (· = old)) found rfl
    fun row action makes enabled same => by
      subst same
      have terminal : row.status.isTerminal = true := by rcases done with same | same <;> rw [same] <;> rfl
      have unfailed : row.status ≠ .failed := by rcases done with same | same <;> rw [same] <;> decide
      have revives := RowAction.enabled_terminal enabled terminal
      have acts := Call.makes_act makes
      obtain ⟨call, faults⟩ := call
      cases acts with
      | transition | ready | command => exact absurd revives.2.1 unfailed
      | reopen =>
        obtain ⟨_, same⟩ := makes
        have named := Write.act.inj same
        exact absurd (Prod.ext named.1.symm named.2.1.symm) closed
      | _ => exact revives.elim
  exact found'

theorem execute_done (digest : Json → String) {k : String × String} {old : ProcessRow}
    (done : old.status = .succeeded ∨ old.status = .skipped) {calls : List (Call × Option Nat)}
    (closed : ∀ call ∈ calls, ¬ Reopens k call.1) {db : Database} (consistent : Consistent db)
    (found : db.processes.find? k = some old) :
    (Durable.execute (step digest) db calls).processes.find? k = some old := by
  induction calls generalizing db with
  | nil => exact found
  | cons call calls ih =>
    obtain ⟨here, later⟩ := List.forall_mem_cons.mp closed
    exact ih later (step_consistent digest consistent call)
      (step_done digest consistent call here found done)

theorem done_unclaimable {row : ProcessRow} (done : row.status = .succeeded ∨ row.status = .skipped)
    (now : String) : claimable row now = false := by
  rcases done with same | same <;> simp [claimable, same]

theorem derived_completed {status : String} {rows : List ProcessRow}
    (unfinished : (RunStatus.ofValue status).isTerminal = false)
    (completed : derivedStatus status rows = "completed") :
    ∀ row ∈ rows, row.status = .succeeded ∨ row.status = .skipped := by
  obtain ⟨-, open'⟩ := RunFinalization.unfinished_ne unfinished
  simp only [derivedStatus, unfinished, Bool.false_eq_true, if_false] at completed
  split at completed
  · exact absurd completed (by decide)
  · split at completed
    · rename_i all
      intro row member
      exact of_decide_eq_true (List.all_eq_true.mp all.2 row member)
    · split at completed
      · exact absurd completed (by decide)
      · exact absurd completed open'

/-- A finalization and an observer judge the rows of a run alike, except that the finalization
    lets an unfinished run without failure wait, or time out at the tick limit. Where they call an
    unfinished run completed no row can be claimed any more. -/
theorem boundaries_agree (digest : Json → String) {f : RunFinalization} {db db' : Database}
    {result : RunFinalizationResult} (finalized : (finalizeRun f).eval db = (.ok result, db')) :
    ∃ run boundary, db.runs.find? f.runId = some run ∧
      (observeRunBoundary f.runId).eval db = (.ok boundary, db) ∧
      ((RunStatus.ofValue run.status).isTerminal = true →
        boundary.derivedStatus = run.status ∧ result.status = run.status ∧ db' = db) ∧
      ((RunStatus.ofValue run.status).isTerminal = false →
        result.status = f.settles boundary.derivedStatus ∧
        ((db'.runs.find? f.runId).any (fun r => r.status = result.status) = true ∨
          (db.commandByKey f.runId (f.key result.status)).isSome = true ∧ db' = db) ∧
        (boundary.derivedStatus = "completed" ↔ result.status = "completed") ∧
        (result.status = "completed" → ∀ row ∈ db.processes.rows, row.runId = f.runId →
          (row.status = .succeeded ∨ row.status = .skipped) ∧
          ∀ before later, db = after digest before →
            (∀ call ∈ later, ¬ Reopens row.key call.1) → ∀ now, ∃ new,
              (after digest (before ++ later)).processes.find? row.key = some new ∧
                claimable new now = false)) := by
  obtain ⟨named, run, found, outcome⟩ := RunFinalization.finalizeRun_ok finalized
  obtain ⟨events, observed⟩ := observeRunBoundary_eval named found
  refine ⟨run, _, found, observed, fun terminal => ?_, fun unfinished => ?_⟩
  · rcases outcome with ⟨-, status, same⟩ | ⟨unfinished, -, -⟩
    · exact ⟨by simp only [boundaryOf, derivedStatus, terminal, if_true], status, same⟩
    · rw [terminal] at unfinished
      cases unfinished
  · rcases outcome with ⟨terminal, -, -⟩ | ⟨-, rfl, moved⟩
    · rw [unfinished] at terminal
      cases terminal
    have settled : (f.result db run.status).status = f.settles (boundaryOf f.runId run.status
        (queueOrder (db.processes.rows.filter fun r => r.runId = f.runId)) events).derivedStatus :=
      f.outcome_derived unfinished
    have completed : ∀ derived, derived = "completed" ↔ f.settles derived = "completed" := by
      intro derived
      unfold RunFinalization.settles
      split
      · rfl
      · rename_i unsettled
        have open' : derived ≠ "completed" := fun same => unsettled (.inr same)
        split <;> simp [open']
    refine ⟨settled, RunFinalization.moveRun_ok found moved, settled ▸ completed _,
      fun finished row member sameRun => ?_⟩
    have all := derived_completed unfinished ((completed _).mpr (settled ▸ finished))
    have done := all row ((List.perm_insertionSort _ _).mem_iff.mpr
      (List.mem_filter.mpr ⟨member, decide_eq_true sameRun⟩))
    refine ⟨done, fun before later reached closed now => ⟨row, ?_, done_unclaimable done now⟩⟩
    subst reached
    rw [after, execute_append]
    exact execute_done digest done closed (after_consistent digest before)
      (Table.find?_some.mpr ⟨member, rfl⟩)

/-- An active run with a process that is ready. -/
def readyRun : List (Call × Option Nat) :=
  [(.process (.createRun
      { runId := "run", status := "active", metadata := "{}", createdAt := "t0" }), none),
    (.process (.scheduleProcess
      { runId := "run", processId := "work", processType := "manual", createdAt := "t0" }), none)]

def idleFinalization : RunFinalization := ⟨"run", "idle", 0, "t1", ""⟩

theorem boundaries_agree_ready :
    ∃ boundary, (observeRunBoundary "run").eval (after (fun _ => "") readyRun) =
        (.ok boundary, after (fun _ => "") readyRun) ∧
      idleFinalization.settles boundary.derivedStatus = "waiting" := by
  have finalized : (finalizeRun idleFinalization).eval (after (fun _ => "") readyRun) =
      (.ok ⟨"waiting", "waiting", false, ⟨1, 0, 0, 0, 1⟩⟩,
        ((finalizeRun idleFinalization).eval (after (fun _ => "") readyRun)).2) :=
    Prod.ext (by decide +kernel) rfl
  obtain ⟨run, boundary, found, observed, -, unfinished⟩ :=
    boundaries_agree (fun _ => "") finalized
  have open' : ((after (fun _ => "") readyRun).runs.find? idleFinalization.runId).any
      (fun r => ¬ (RunStatus.ofValue r.status).isTerminal) = true := by decide +kernel
  rw [found, Option.any_some, decide_eq_true_eq, Bool.not_eq_true] at open'
  exact ⟨boundary, observed, (unfinished open').1.symm⟩

/-- The observer leaves the run active that a finalization makes wait. -/
theorem active_run_waits :
    ¬ ∀ (calls : List (Call × Option Nat)) (f : RunFinalization) (status : String),
      ((observeRunBoundary f.runId).eval (after (fun _ => "") calls)).1.map
          RunBoundaryResult.derivedStatus = .ok status →
        ((finalizeRun f).eval (after (fun _ => "") calls)).1.map
          RunFinalizationResult.status = .ok status := by
  intro agree
  have observed : ((observeRunBoundary "run").eval (after (fun _ => "") readyRun)).1.map
      RunBoundaryResult.derivedStatus = .ok "active" := by decide +kernel
  have recorded : ((finalizeRun idleFinalization).eval (after (fun _ => "") readyRun)).1.map
      RunFinalizationResult.status = .ok "waiting" := by decide +kernel
  have active := agree readyRun idleFinalization "active" observed
  rw [recorded] at active
  exact absurd active (by decide)

end Fala.Driver

/-! Parent rows that wait for a run of another journal, and how they are closed. -/

namespace Fala.Driver
open Durable Program Journal

/-- `list_processes` of one status. -/
def listWaiting (runId : String) : Sql (List ProcessRow) := do
  requireRun runId
  .fetch fun db => queueOrder (db.processes.rows.filter fun r => r.runId = runId ∧ r.status = .waiting)

/-- `_boundary_json` -/
def RunBoundaryResult.json (b : RunBoundaryResult) : Text :=
  .template [("run_id", .quote b.runId), ("status", .quote b.status), ("derived_status", .quote b.derivedStatus),
    ("process_status_counts", b.processStatusCounts), ("event_watermark", .number b.eventWatermark)]

/-- `_delegation_target`, empty where it raises. -/
def delegationTarget (output : Text) : String :=
  match output.parse with
  | some (.obj root) =>
    match Json.lookup "delivery_id" root, Json.lookup "target_run_id" root with
    | some (.str delivery), some (.str target) => if delivery = "" ∨ target = "" then "" else target
    | _, _ => ""
  | _ => ""

/-- The boundary for which a waiting row is closed: the one of its own target, once that has ended. -/
def dueBoundary (target : Database) (process : ProcessRow) : Option RunBoundaryResult :=
  let targetRunId := delegationTarget process.outputJson
  if targetRunId = "" then none
  else
    match (observeRunBoundary targetRunId).eval target with
    | (.ok boundary, _) => if (RunStatus.ofValue boundary.derivedStatus).isTerminal then some boundary else none
    | (.error _, _) => none

/-- The output of a closed row: its own, with the boundary as a member. -/
def closedOutput (output : Text) (boundary : RunBoundaryResult) : Text :=
  match output.parse, boundary.json.parse with
  | some (.obj root), some value => .printed (.obj (Bridge.setMember "run.boundary" value root))
  | _, _ => .template [("run.boundary", boundary.json)]

def delegationError (targetRunId : String) (boundary : RunBoundaryResult) : Text :=
  .template [("type", .quote "DelegatedRunNotCompleted"),
    ("message", .quote ("delegated run " ++ targetRunId ++ " ended " ++ boundary.derivedStatus)),
    ("run.boundary", boundary.json)]

/-- Who closes the delegations of a run, and when. -/
structure DelegationClosure where
  parentRunId : String
  actor : String
  at_ : String
  deriving DecidableEq

section
variable (digest : Json → String)

def closeDelegation (c : DelegationClosure) (process : ProcessRow) (boundary : RunBoundaryResult) : Sql ProcessRow :=
  if boundary.derivedStatus = "completed" then
    completeProcess digest c.parentRunId process.id c.actor c.at_ (closedOutput process.outputJson boundary) .braces
  else
    failProcess c.parentRunId process.id c.actor c.at_ (delegationError (delegationTarget process.outputJson) boundary)

/-- The loop of `close_delegations`; what one row raises ends it. -/
def closeEach (target : Database) (c : DelegationClosure) : List ProcessRow → Session Database (List ProcessRow)
  | [] => pure []
  | process :: rest =>
    match dueBoundary target process with
    | none => closeEach target c rest
    | some boundary => do
      let closed ← Session.program (closeDelegation digest c process boundary)
      let others ← closeEach target c rest
      return closed :: others

/-- `close_delegations` -/
def closeDelegations (target : Database) (c : DelegationClosure) : Session Database (List ProcessRow) := do
  Session.require (c.parentRunId ≠ "" ∧ c.actor ≠ "" ∧ c.at_ ≠ "")
    "driver: delegation closure requires parent run, actor, and timestamp"
  let waiting ← Session.program (listWaiting c.parentRunId)
  closeEach digest target c waiting

end
end Fala.Driver
