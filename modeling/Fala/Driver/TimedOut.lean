import Fala.Driver.Boundary
import Fala.Driver.Correlated
import Fala.Driver.Ticks

/-! When a correlation drive records its run as timed out while nothing is left to claim. -/

namespace Fala.Driver
open Durable Program Journal
open Correlation (Reconciliation advanceCorrelation)

theorem driveUntilIdle_single {digest : Json → String} {outside : Outside} {s : Supply} (single : s.maxTicks = 1)
    (fuel : Nat) : (driveUntilIdle digest outside s fuel).Returns fun result => ∀ r, result = some r → r.ticks ≤ 1 := by
  intro db result db' h r same
  subst same
  rw [← Timed.driveUntilIdle_steady] at h
  have within := Timed.driveUntilIdle_within h
  omega

namespace CorrelationDrive

variable (d : CorrelationDrive)

/-- The rows of the run, as they are listed. -/
def rows (db : Database) : List ProcessRow := queueOrder (db.processes.rows.filter fun r => r.runId = d.plan.runId)

def status (db : Database) : Option String := (db.runs.find? d.plan.runId).map RunRecord.status

/-- Some process of the run can be claimed. -/
def HasWork (db : Database) : Prop :=
  ∃ row ∈ db.processes.rows, row.runId = d.plan.runId ∧ rowClaimable row d.worker.now = true

/-- The transition that records the timeout. -/
def timeout : RunTransition where
  runId := d.plan.runId
  target := "timed_out"
  at_ := d.worker.now
  idempotencyKey := "run.finalize:" ++ d.plan.runId ++ ":" ++ "timed_out"
  reason := "max_ticks"

/-- Nothing but the ticks decides the run: its processes have neither failed nor all succeeded, the supplied run is
    not over and not deadlocked, and a timeout of the run can be recorded. -/
structure Undecided (deadlocked : String → Database → Except String Bool) (db : Database) : Prop where
  live : ∃ run, db.runs.find? d.plan.runId = some run ∧ run.status ∈ RunFinalization.liveStatuses
  fresh : d.timeout.Fresh db
  unfailed : hasFailure (d.rows db) = false
  unfinished : allSucceeded (d.rows db) = false
  supplied : d.supply.check = .ok ()
  running : d.supply.finished db = (.ok false, db)
  acyclic : d.supply.diagnosed deadlocked db = (.ok false, db)

end CorrelationDrive

section Reasons

variable {d : CorrelationDrive} {rows : List ProcessRow}

theorem failed_hasFailure : 0 < (countRows rows).failed ↔ CorrelationDrive.hasFailure rows = true := countRows_failed

theorem completed_allSucceeded : (0 < (countRows rows).total ∧ (countRows rows).completed = (countRows rows).total) ↔
    CorrelationDrive.allSucceeded rows = true := by
  have total : (countRows rows).total = rows.length := rfl
  rw [countRows_completed, total, List.length_pos_iff]
  simp [CorrelationDrive.allSucceeded]

theorem outcome_timedOut (f : RunFinalization) {status : String} (live : status ≠ "timed_out") :
    (f.outcome status (countRows rows)).1 = "timed_out" ↔
      CorrelationDrive.hasFailure rows = false ∧ CorrelationDrive.allSucceeded rows = false ∧
        f.stoppedReason = "max_ticks" ∧ 0 < f.maxTicks := by
  unfold RunFinalization.outcome
  by_cases failed : CorrelationDrive.hasFailure rows = true
  · rw [if_pos (failed_hasFailure.mpr failed)]
    simp [failed]
  · rw [if_neg (mt failed_hasFailure.mp failed)]
    by_cases done : CorrelationDrive.allSucceeded rows = true
    · rw [if_pos (completed_allSucceeded.mpr done)]
      simp [done]
    · rw [if_neg (mt completed_allSucceeded.mp done)]
      by_cases spent : f.stoppedReason = "max_ticks" ∧ 0 < f.maxTicks
      · rw [if_pos spent]
        exact iff_of_true rfl ⟨by simpa using failed, by simpa using done, spent⟩
      · rw [if_neg spent]
        refine iff_of_false ?_ fun held => spent held.2.2
        split
        · decide
        · exact live

theorem conclude_spent {ticks : Nat} {last : DriverResult} {report : RunUntilIdleResult}
    (stopped : report.stoppedReason ≠ "max_ticks") :
    (d.conclude ticks last rows report).stoppedReason = "max_ticks" ↔
      CorrelationDrive.hasFailure rows = false ∧ CorrelationDrive.allSucceeded rows = false ∧
        report.deadlocked = false ∧ report.stoppedReason ≠ "already_terminal" ∧ d.maxTicks ≤ ticks := by
  unfold CorrelationDrive.conclude
  cases failed : CorrelationDrive.hasFailure rows with
  | true => simp
  | false =>
    cases done : CorrelationDrive.allSucceeded rows with
    | true => simp
    | false =>
      cases deadlocked : report.deadlocked with
      | true => simp
      | false =>
        by_cases ended : report.stoppedReason = "already_terminal"
        · simp [ended]
        · by_cases spent : d.maxTicks ≤ ticks
          · simp [ended, spent]
          · simp only [ended, spent, and_false, iff_false]
            simp only [Bool.false_eq_true, if_false]
            split
            · exact show "idle" ≠ "max_ticks" by decide
            · exact stopped

end Reasons

section Stopped

variable {digest : Json → String} {outside : Outside} {deadlocked : String → Database → Except String Bool}
  {s : Supply} {fuel : Nat} {db db' : Database}

theorem finished_reads : s.finished.Within Eq := by
  apply Session.Within.ite
  · exact .pure _
  · exact .bind (program_reads (.query _)) fun run => .pure _

theorem diagnosed_reads : (s.diagnosed deadlocked).Within Eq :=
  .ite (.pure _) (program_reads (.query _))

theorem durable_reads : s.durable.Within Eq :=
  .ite (.pure _) (program_reads (listProcesses_reads _))

theorem reportRun_stopped (rows : List ProcessRow) (deadlock : Bool) :
    (reportRun { idle := true } "stopped" rows deadlock).stoppedReason = "stopped" ∨
      (reportRun { idle := true } "stopped" rows deadlock).stoppedReason = "idle" := by
  have healthy : (({ idle := true } : DriverResult).error.isOk) = true := rfl
  have shape (reason : String) (known : reason = "stopped" ∨ reason = "idle") :
      (if deadlock ∧ reason = "idle" then "stopped" else reason) = "stopped" ∨
        (if deadlock ∧ reason = "idle" then "stopped" else reason) = "idle" := by
    split
    · exact .inl rfl
    · exact known
  unfold reportRun
  simp only [healthy, not_true, and_false, if_false]
  refine shape _ ?_
  split
  · exact .inr rfl
  · split
    · exact .inr rfl
    · exact .inl rfl

theorem runUntilIdle_stopped {report : RunUntilIdleResult}
    (h : runUntilIdle digest outside deadlocked s true fuel db = (.ok (some report), db')) :
    db' = db ∧ report.stoppedReason ≠ "max_ticks" ∧ s.check = .ok () ∧
      (report.stoppedReason ≠ "already_terminal" → s.finished db = (.ok false, db)) ∧
        (s.finished db = (.ok false, db) → s.diagnosed deadlocked db = (.ok report.deadlocked, db)) := by
  unfold runUntilIdle at h
  obtain ⟨_, _, supplied, h⟩ := Session.bind_ok.mp h
  obtain ⟨checked, rfl⟩ := Session.of_ok.mp supplied
  obtain ⟨ended, middle, finished, h⟩ := Session.bind_ok.mp h
  obtain rfl : db = middle := finished_reads.left finished
  cases ended with
  | true =>
    obtain ⟨same, rfl⟩ := Session.pure_ok.mp h
    cases same
    refine ⟨rfl, by decide, checked, fun terminal => absurd rfl terminal, fun live => ?_⟩
    rw [finished] at live
    cases live
  | false =>
    obtain ⟨driven, middle, unfinished, h⟩ := Session.bind_ok.mp h
    obtain ⟨rfl, rfl⟩ := Session.pure_ok.mp unfinished
    obtain ⟨rows, middle, listed, h⟩ := Session.bind_ok.mp h
    obtain rfl : db = middle := durable_reads.left listed
    obtain ⟨deadlock, middle, diagnosed, h⟩ := Session.bind_ok.mp h
    obtain rfl : db = middle := diagnosed_reads.left diagnosed
    obtain ⟨same, rfl⟩ := Session.pure_ok.mp h
    cases same
    have reasons := reportRun_stopped rows deadlock
    refine ⟨rfl, ?_, checked, fun _ => finished, fun _ => diagnosed⟩
    show (reportRun { idle := true } "stopped" rows deadlock).stoppedReason ≠ "max_ticks"
    rcases reasons with reason | reason <;> rw [reason] <;> decide

theorem durable_listed (running : s.finished db = (.ok false, db)) : ∃ rows, s.durable db = (.ok rows, db) := by
  unfold Supply.durable
  unfold Supply.finished at running
  by_cases unnamed : s.runId = ""
  · rw [if_pos unnamed]
    exact ⟨[], rfl⟩
  · rw [if_neg unnamed] at running ⊢
    obtain ⟨run, middle, read, -⟩ := Session.bind_ok.mp running
    have found : (db.runs.find? s.runId).isSome = true := by
      have read := query_ok.mp (Session.program_ok.mp read)
      cases found : db.runs.find? s.runId with
      | none =>
        rw [found] at read
        cases read.1
      | some row => rfl
    exact ⟨_, Session.program_ok.mpr (listProcesses_ok.mpr ⟨⟨unnamed, found⟩, rfl, rfl⟩)⟩

theorem runUntilIdle_reports (supplied : s.check = .ok ()) (running : s.finished db = (.ok false, db))
    (acyclic : s.diagnosed deadlocked db = (.ok false, db)) :
    ∃ report, runUntilIdle digest outside deadlocked s true fuel db = (.ok (some report), db) ∧
      report.deadlocked = false ∧ report.stoppedReason ≠ "already_terminal" := by
  obtain ⟨rows, listed⟩ := durable_listed running
  refine ⟨reportRun { idle := true } "stopped" rows false, ?_, rfl, ?_⟩
  · unfold runUntilIdle
    rw [Session.bind_returned (Session.of_ok.mpr ⟨supplied, rfl⟩), Session.bind_returned running]
    have driven : driveUnfinished digest outside s true fuel db = (.ok (some { idle := true }), db) := rfl
    simp only [Bool.false_eq_true, if_false]
    rw [Session.bind_returned driven]
    show (s.durable >>= _) db = _
    rw [Session.bind_returned listed, Session.bind_returned acyclic]
    rfl
  · rcases reportRun_stopped rows false with reason | reason <;> rw [reason] <;> decide

end Stopped

section Drive

variable (digest : Json → String) (outside : Outside) (deadlocked : String → Database → Except String Bool)
  (d : CorrelationDrive) (fuel : Nat)

/-- A number of ticks, one after another, leads from one state to another; there is no budget here. -/
inductive Spends : Nat → Database → Database → Prop
  | nothing (db : Database) : Spends 0 db db
  | tick {n : Nat} {db middle db' : Database} {result : DriverResult}
      (driven : driveTick digest outside d fuel db = (.ok (some result), middle)) (made : result.ticks = 1)
      (later : Spends n middle db') : Spends (n + 1) db db'

/-- The drive comes to a state, and its finalization there records the run as timed out. -/
def RecordsTimeout (db middle db' : Database) : Prop :=
  ∃ report result, driveCorrelation digest outside deadlocked d fuel db = (.ok (some report), middle) ∧
    (finalizeRun (d.finalization report)).eval middle = (.ok result, db') ∧
      d.status middle ≠ some "timed_out" ∧ d.status db' = some "timed_out"

/-- Whenever the drive records the run as timed out, some process of it can still be claimed. -/
def TimesOutWithWork (db : Database) : Prop :=
  ∀ middle db', RecordsTimeout digest outside deadlocked d fuel db middle db' → d.HasWork middle

variable {digest outside deadlocked d fuel} {db db' : Database}

theorem driveTick_single {result : DriverResult}
    (driven : driveTick digest outside d fuel db = (.ok (some result), db')) : result.ticks ≤ 1 := by
  have single : (driveTick digest outside d fuel).Returns fun result => ∀ r, result = some r → r.ticks ≤ 1 :=
    .bind fun _ => .bind fun before => .bind fun adapters => driveUntilIdle_single rfl fuel
  exact single db _ db' driven result rfl

theorem driveTicks_spends {n ticks spent : Nat} {last last' : DriverResult} (budget : d.maxTicks = ticks + n)
    (h : driveTicks digest outside d fuel n ticks last db = (.ok (some (spent, last')), db'))
    (ended : d.maxTicks ≤ spent) : Spends digest outside d fuel n db db' := by
  induction n generalizing ticks last db with
  | zero =>
    obtain ⟨-, rfl⟩ := Session.pure_ok.mp h
    exact .nothing db
  | succ n ih =>
    have left : ¬ d.maxTicks ≤ ticks := by omega
    unfold driveTicks at h
    rw [if_neg left] at h
    obtain ⟨result, middle, driven, h⟩ := Session.bind_ok.mp h
    cases result with
    | none =>
      obtain ⟨same, -⟩ := Session.pure_ok.mp h
      cases same
    | some result =>
      have single := driveTick_single driven
      by_cases idle : result.ticks = 0
      · simp only [idle, if_true] at h
        obtain ⟨same, -⟩ := Session.pure_ok.mp h
        cases same
        exact absurd ended left
      · simp only [idle, if_false] at h
        have made : result.ticks = 1 := by omega
        rw [made] at h
        exact .tick driven made (ih (by omega) h)

theorem Spends.driveTicks {n : Nat} (spends : Spends digest outside d fuel n db db') (ticks : Nat) (last : DriverResult)
    (budget : d.maxTicks = ticks + n) :
    ∃ last', driveTicks digest outside d fuel n ticks last db = (.ok (some (ticks + n, last')), db') := by
  induction spends generalizing ticks last with
  | nothing db => exact ⟨last, rfl⟩
  | @tick n db middle db' result driven made later ih =>
    obtain ⟨last', returned⟩ := ih (ticks + 1) result (by omega)
    have left : ¬ d.maxTicks ≤ ticks := by omega
    have busy : ¬ result.ticks = 0 := by omega
    refine ⟨last', ?_⟩
    unfold Driver.driveTicks
    rw [if_neg left, Session.bind_returned driven]
    simp only [busy, if_false]
    rw [made, returned, Nat.add_right_comm, Nat.add_assoc]

theorem advanceAfterTerminal_named {r : Reconciliation} {left : List ProcessRow}
    (advanced : advancing (advanceAfterTerminal r) db = (.ok left, db')) : r.runId ≠ "" := by
  intro unnamed
  have raised : advanceAfterTerminal r db = (.error "driver: correlation plan run_id must not be empty", db) := by
    unfold advanceAfterTerminal
    rw [unnamed]
    exact Session.bind_raised rfl
  unfold advancing Session.handle at advanced
  rw [raised] at advanced
  cases advanced

theorem reportDrive_ok {ticks : Nat} {last : DriverResult} {final : RunUntilIdleResult}
    (h : reportDrive digest outside deadlocked d fuel ticks last db = (.ok (some final), db')) :
    ∃ left report, advancing (advanceAfterTerminal d.plan) db = (.ok left, db') ∧
      runUntilIdle digest outside deadlocked d.supply true fuel db' = (.ok (some report), db') ∧
        final = d.conclude ticks last (d.rows db') report := by
  unfold reportDrive at h
  obtain ⟨left, middle, advanced, h⟩ := Session.bind_ok.mp h
  obtain ⟨report, reported, ran, h⟩ := Session.bind_ok.mp h
  cases report with
  | none =>
    obtain ⟨same, -⟩ := Session.pure_ok.mp h
    cases same
  | some report =>
    have same := (runUntilIdle_stopped ran).1
    rw [same] at ran h
    simp only [Session.bind_ok, Session.program_ok, listProcesses_ok] at h
    obtain ⟨rows, _, ⟨known, rfl, rfl⟩, h⟩ := h
    obtain ⟨same, rfl⟩ := Session.pure_ok.mp h
    exact ⟨left, report, advanced, ran, (Option.some.inj same).symm⟩

theorem live_of_timeout {status : String} (legal : canTransitionRun (.ofValue status) .timedOut = true) :
    status ∈ RunFinalization.liveStatuses := by
  unfold RunStatus.ofValue at legal
  repeat' split at legal
  all_goals first
    | (rename_i same; rw [same]; decide)
    | cases legal

theorem timeout_fresh {report : RunUntilIdleResult} {outcome : String × String} (target : outcome.1 = "timed_out") :
    ((d.finalization report).transition outcome).Fresh db ↔ d.timeout.Fresh db := by
  have key : ((d.finalization report).transition outcome).idempotencyKey = d.timeout.idempotencyKey := by
    show (d.finalization report).key outcome.1 = d.timeout.idempotencyKey
    rw [target]
    rfl
  have run : ((d.finalization report).transition outcome).runId = d.timeout.runId := rfl
  constructor
  · intro fresh
    exact ⟨by rw [← run, ← key]; exact fresh.key, by rw [← run, ← key]; exact fresh.command,
      by rw [← run, ← key]; exact fresh.event⟩
  · intro fresh
    exact ⟨by rw [run, key]; exact fresh.key, by rw [run, key]; exact fresh.command, by rw [run, key]; exact fresh.event⟩

/-- The call to `finalize_run` that records the timeout. -/
theorem finalization_timedOut {report : RunUntilIdleResult} {result : RunFinalizationResult}
    (h : (finalizeRun (d.finalization report)).eval db = (.ok result, db')) (open_ : d.status db ≠ some "timed_out")
    (timedOut : d.status db' = some "timed_out") :
    (∃ run, db.runs.find? d.plan.runId = some run ∧ run.status ∈ RunFinalization.liveStatuses) ∧ d.timeout.Fresh db ∧
      CorrelationDrive.hasFailure (d.rows db) = false ∧ CorrelationDrive.allSucceeded (d.rows db) = false ∧
        report.stoppedReason = "max_ticks" := by
  have moved (same : db' = db) : False := open_ (same ▸ timedOut)
  simp only [finalizeRun, getRunRecord, bind_ok, require_ok, query_ok, listProcesses_ok] at h
  obtain ⟨_, _, ⟨-, rfl⟩, _, _, ⟨-, rfl⟩, _, _, ⟨-, rfl⟩, run, _, ⟨read, rfl⟩, rows, _, ⟨-, rfl, rfl⟩, h⟩ := h
  have found : db.runs.find? d.plan.runId = some run := by
    show db.runs.find? (d.finalization report).runId = some run
    cases there : db.runs.find? (d.finalization report).runId with
    | none =>
      rw [there] at read
      cases read
    | some row =>
      rw [there] at read
      cases read
      rfl
  unfold concludeRun at h
  split at h
  · exact (moved (pure_ok.mp h).2.symm).elim
  · obtain ⟨_, middle, move, h⟩ := bind_ok.mp h
    obtain ⟨-, rfl⟩ := pure_ok.mp h
    unfold moveRun at move
    split at move
    · exact (moved (pure_ok.mp move).2.symm).elim
    · obtain ⟨answer, move⟩ := void_ok.mp move
      rcases RunTransition.of_ok found move with ⟨-, same⟩ | ⟨fresh, legal, changed, -⟩
      · exact (moved same).elim
      · have target : ((d.finalization report).outcome run.status (countRows (d.rows db))).1 = "timed_out" := by
          have status := timedOut.symm.trans (congrArg (Option.map RunRecord.status) changed)
          exact (Option.some.inj status).symm
        have before : run.status ≠ "timed_out" := by
          intro same
          apply open_
          unfold CorrelationDrive.status
          rw [found, Option.map_some, same]
        obtain ⟨failed, done, reason, -⟩ := (outcome_timedOut _ before).mp target
        change canTransitionRun _ (.ofValue ((d.finalization report).outcome run.status (countRows (d.rows db))).1) = true at legal
        change ((d.finalization report).transition ((d.finalization report).outcome run.status (countRows (d.rows db)))).Fresh db at fresh
        rw [target] at legal
        exact ⟨⟨run, found, live_of_timeout legal⟩, (timeout_fresh target).mp fresh, failed, done, reason⟩

theorem CorrelationDrive.Undecided.records {report : RunUntilIdleResult} (undecided : d.Undecided deadlocked db)
    (named : d.plan.runId ≠ "") (positive : 1 ≤ d.maxTicks) (reason : report.stoppedReason = "max_ticks") :
    ∃ result db', (finalizeRun (d.finalization report)).eval db = (.ok result, db') ∧
      d.status db' = some "timed_out" := by
  obtain ⟨run, found, live⟩ := undecided.live
  have open_ : run.status ≠ "timed_out" := by
    intro same
    rw [same] at live
    exact absurd live (by decide)
  have now : d.worker.now ≠ "" := by
    have supplied := undecided.supplied
    unfold Supply.check at supplied
    intro same
    rw [show d.supply.worker.now = "" from same] at supplied
    simp only [if_true] at supplied
    split at supplied <;> cases supplied
  have accepted : (d.finalization report).Accepted := by
    refine ⟨⟨named, ?_, now⟩, ?_, ?_⟩
    · show report.stoppedReason ≠ ""
      rw [reason]
      decide
    · show report.stoppedReason ∈ RunFinalization.reasons
      rw [reason]
      decide
    · show 0 ≤ d.maxTicks
      omega
  have target : ((d.finalization report).outcome run.status (countRows (d.rows db))).1 = "timed_out" :=
    (outcome_timedOut (d.finalization report) open_).mpr
      ⟨undecided.unfailed, undecided.unfinished, reason, by show 0 < d.maxTicks; omega⟩
  have fresh : ((d.finalization report).transition ((d.finalization report).due db run.status)).Fresh db :=
    (timeout_fresh target).mpr undecided.fresh
  have legal : canTransitionRun (.ofValue run.status) (.ofValue ((d.finalization report).due db run.status).1) = true := by
    rw [show ((d.finalization report).due db run.status).1 = "timed_out" from target]
    revert live
    generalize run.status = status
    intro live
    revert status
    decide
  obtain ⟨answer, db', moved, stored⟩ := RunTransition.of_fresh (accepted.named_transition (by
    intro same
    rw [same] at live
    exact absurd live (by decide)) _) named found fresh legal
  refine ⟨(d.finalization report).result db run.status, db', ?_, ?_⟩
  · rw [accepted.eval found live]
    unfold moveRun
    rw [if_neg fun same => open_ (same.symm.trans target)]
    exact bind_ok.mpr ⟨(), db', void_ok.mpr ⟨answer, moved⟩, rfl⟩
  · unfold CorrelationDrive.status
    rw [show db'.runs.find? d.plan.runId = _ from stored]
    exact congrArg some target

variable (digest outside deadlocked d fuel db)

end Drive

/-! The one process of a run asks for a decision with the only tick that is allowed. -/

def startedRun : Database := after (fun _ => "")
  [(.process (.createRun { runId := "run", status := "active", metadata := "", createdAt := "t0" }), none),
    (.process (.scheduleProcess
      { runId := "run", processId := "work", processType := "correlation.effector", createdAt := "t0" }), none)]

/-- Every adapter asks for a decision. -/
def asking : Outside where
  processHost := false
  execute _ _ := { success := false, waiting := true, homeostatId := "gate" }
  cancels _ _ := none
  backoffDue _ now := .ok now

/-- A plan of one process that depends on nothing: no row of it is ever pending. -/
def lonePlan : Reconciliation where
  runId := "run"
  processes := 1
  validate := .ok ()
  check _ := .ok ()
  round _ := .ok ⟨[], ⟨[], false, "", ""⟩⟩

def loneDrive : CorrelationDrive where
  processes := startedRun.processes.rows
  adapters := [{ kind := .nativeFunction, ref := "native.ask" }]
  worker := ⟨"driver", "t1", "t9"⟩
  maxTicks := 1
  plan := lonePlan

/-- Whether the drive records a timeout in a state where no process can be claimed. -/
def recordsIdly (d : CorrelationDrive) (db : Database) : Bool :=
  match driveCorrelation (fun _ => "") asking (fun _ _ => .ok false) d 2 db with
  | (.ok (some report), middle) =>
    match (finalizeRun (d.finalization report)).eval middle with
    | (.ok _, db') => d.status middle ≠ some "timed_out" ∧ d.status db' = some "timed_out" ∧
        middle.processes.rows.all fun row => ¬ rowClaimable row d.worker.now
    | _ => false
  | _ => false

end Fala.Driver
