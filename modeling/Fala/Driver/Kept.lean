import Fala.Correlation.Persistence
import Fala.Driver.AllRuns
import Fala.Driver.Finalization
import Fala.Driver.Loops
import Fala.Driver.Selection

/-! Every operation of the engine, and the histories of their calls. -/

namespace Fala.Driver
open Durable Journal
open Correlation (Persistence Reconciliation)

/-- An operation of a driver, with what it meets outside. -/
inductive DriveCall where
  | claimNextReady (runId : String) (allRuns : Bool) (c : ClaimRequest)
  | driveOnce (outside : Outside) (worker : Worker) (process : ProcessRow) (adapter : AdapterSpec)
  | driveBoundQueue (outside : Outside) (load : String → Database → Except String (List AdapterBinding))
    (q : BoundQueue) (fuel : Nat)
  | driveAllRuns (outside : Outside) (d : Drive) (fuel : Nat)
  | runUntilIdle (outside : Outside) (deadlocked : String → Database → Except String Bool) (s : Supply)
    (stop : Bool) (fuel : Nat)
  | advanceCorrelation (r : Reconciliation)
  | reopenHomeostatProcess (r : HomeostatReopen)

/-- The rows that an operation of a driver leaves, however it ends. -/
def driveStep (digest : Json → String) (db : Database) : DriveCall → Database
  | .claimNextReady runId allRuns c => ((claimNextReady runId allRuns c).eval db).2
  | .driveOnce outside worker process adapter => (driveOnce digest outside worker process adapter db).2
  | .driveBoundQueue outside load q fuel => (driveBoundQueue digest outside load q fuel db).2
  | .driveAllRuns outside d fuel => (driveAllRuns digest outside d fuel db).2
  | .runUntilIdle outside deadlocked s stop fuel => (runUntilIdle digest outside deadlocked s stop fuel db).2
  | .advanceCorrelation r => (Correlation.advanceCorrelation r db).2
  | .reopenHomeostatProcess r => ((reopenHomeostatProcess r).eval db).2

/-- A call of the engine: of the journal with its faults, of a driver, on expired leases, or on the rows of a plan. -/
inductive EngineCall where
  | run (call : RunCall) (faults : Option Nat)
  | drive (call : DriveCall)
  | maintainProcess (process : ProcessRow) (m : Maintenance)
  | recoverIncompleteProcesses (workerId now retryAvailableAt : String)
  | persistCorrelationPlan (p : Persistence) (createdAt : String)
  | refreshCorrelationReadiness (p : Persistence)

def engineStep (digest : Json → String) (db : Database) : EngineCall → Database
  | .run call faults => runStep digest db (call, faults)
  | .drive call => driveStep digest db call
  | .maintainProcess process m => ((maintainProcess process m).eval db).2
  | .recoverIncompleteProcesses workerId now due => ((recoverIncompleteProcesses workerId now due).eval db).2
  | .persistCorrelationPlan p createdAt => (Correlation.persistCorrelationPlan p createdAt db).2
  | .refreshCorrelationReadiness p => (Correlation.refreshCorrelationReadiness p db).2

def afterEngine (digest : Json → String) (calls : List EngineCall) : Database :=
  Durable.execute (engineStep digest) .empty calls

end Fala.Driver

/-! What the operations of a driver keep: what an execution keeps and the maintenance of a row keeps, every loop
    over them keeps. -/

namespace Fala.Driver
open Durable Program Journal
open Correlation (Reconciliation advanceCorrelation)

/-- A relation that holds through each commit that the operations of a driver make. -/
structure Kept (digest : Json → String) (R : Database → Database → Prop) : Prop where
  once : ∀ outside worker process adapter, (driveOnce digest outside worker process adapter).Within R
  maintain : ∀ process m db, (maintainProcess process m).Settles db (R db)
  claim : ∀ run allRuns c db, R db ((claimNextReady run allRuns c).eval db).2
  skip : ∀ run processId at_ outputJson key db,
    (skipProcess run processId "correlation" at_ outputJson key).Settles db (R db)
  promote : ∀ run children db, (applyCorrelationChildren { runId := run } children).Settles db (R db)
  mark : ∀ (db : Database) k metadata, R db (db.setProcesses (db.processes.modify k
    (fun r => { r with metadata, updatedAt := "correlation.advance" }) fun _ => rfl))
  reopen : ∀ r db, (reopenHomeostatProcess r).Settles db (R db)

section
variable {R : Database → Database → Prop} [Std.Refl R] [IsTrans Database R] {digest : Json → String}

omit [IsTrans Database R] in
theorem reads_within {α : Type} {p : Sql α} (reads : ReadOnly p) : (Session.program p).Within R :=
  .program fun _ => .ofReadOnly reads

omit [IsTrans Database R] in
theorem durable_within (s : Supply) : s.durable.Within R :=
  .ite (.pure _) (reads_within (listProcesses_reads _))

theorem boundRows_within (run : String) (bindings : List AdapterBinding) :
    (BoundQueue.boundRows run bindings).Within R := by
  induction bindings with
  | nil => exact .pure _
  | cons binding rest ih =>
    exact .bind (.require _ _) fun _ => .bind (reads_within (getProcess_reads _ _)) fun _ => .bind ih fun _ => .pure _

namespace Kept

variable (kept : Kept digest R) {outside : Outside}
include kept

section Loops

variable {s : Supply}

theorem executeCandidate_within (candidate : ProcessRow) (adapter : AdapterSpec) (aggregate : DriverResult) :
    (executeCandidate digest outside s candidate adapter aggregate).Within R :=
  .bind (kept.once outside s.worker candidate adapter) fun _ => .ite (.pure _) (.pure _)

theorem resolveCandidate_within (candidate : ProcessRow) (adapter : AdapterSpec) (aggregate : DriverResult) :
    (resolveCandidate digest outside s candidate adapter aggregate).Within R :=
  .bind (.program fun _ => kept.maintain candidate _ _) fun _ =>
    .ite (.pure _) (.bind (reads_within (getProcess_reads _ _)) fun current =>
      kept.executeCandidate_within current adapter aggregate)

theorem drivePass_within (aggregate : DriverResult) :
    (drivePass digest outside s aggregate).Within R := by
  refine .bind (durable_within s) fun rows => ?_
  split
  · exact .pure _
  · exact .ite (kept.resolveCandidate_within _ _ aggregate) (kept.executeCandidate_within _ _ aggregate)

theorem drivePasses_within (fuel : Nat) (claimed : Int) (aggregate : DriverResult) :
    (drivePasses digest outside s fuel claimed aggregate).Within R := by
  induction fuel generalizing claimed aggregate with
  | zero => exact .pure _
  | succ fuel ih =>
    unfold drivePasses
    refine .ite (.pure _) (.bind (kept.drivePass_within aggregate) fun pass => ?_)
    cases pass with
    | idle => exact .ite (.pure _) (ih 0 aggregate)
    | claimed aggregate => exact ih _ aggregate
    | raised aggregate => exact .pure _

theorem driveUntilIdle_within (fuel : Nat) : (driveUntilIdle digest outside s fuel).Within R :=
  .bind (.require _ _) fun _ => .bind (.require _ _) fun _ => .bind (.of _) fun _ =>
    .bind (kept.drivePasses_within fuel 0 _) fun _ => .pure _

theorem runUntilIdle_within (deadlocked : String → Database → Except String Bool) (stop : Bool) (fuel : Nat) :
    (runUntilIdle digest outside deadlocked s stop fuel).Within R := by
  have finished : s.finished.Within R :=
    .ite (.pure _) (.bind (reads_within (.query _)) fun _ => .pure _)
  have diagnosed : (s.diagnosed deadlocked).Within R := .ite (.pure _) (reads_within (.query _))
  refine .bind (.of _) fun _ => .bind finished fun ended => .ite (.pure _)
    (.bind (.ite (.pure _) (kept.driveUntilIdle_within fuel)) fun driven => ?_)
  cases driven with
  | none => exact .pure _
  | some aggregate => exact .bind (durable_within s) fun rows => .bind diagnosed fun _ => .pure _

end Loops

section Bound

theorem driveBindings_within (q : BoundQueue) (bindings : List AdapterBinding) (fuel : Nat) :
    (driveBindings digest outside q bindings fuel).Within R :=
  .bind (.require _ _) fun _ => .bind (boundRows_within _ bindings) fun _ => kept.driveUntilIdle_within fuel

theorem driveBoundQueue_within (load : String → Database → Except String (List AdapterBinding)) (q : BoundQueue)
    (fuel : Nat) : (driveBoundQueue digest outside load q fuel).Within R :=
  .bind (.of _) fun _ => .ite (kept.driveBindings_within q q.bindings fuel)
    (.ite (.pure _) (.bind (reads_within (.query _)) fun bindings =>
      .ite (.pure _) (kept.driveBindings_within q bindings fuel)))

end Bound

section AllRuns

variable {d : Drive}

theorem closeRow_within (row : ProcessRow) (s : Sweep) : (closeRow d row s).Within R :=
  .ite (.bind (.program fun _ => kept.maintain row _ _) fun _ => .pure _) (.pure s)

theorem closeRows_within (rows : List ProcessRow) (s : Sweep) : (closeRows d rows s).Within R := by
  induction rows generalizing s with
  | nil => exact .pure _
  | cons row rest ih => exact .bind (kept.closeRow_within row _) fun s' => .ite (.pure s') (ih s')

theorem closeRuns_within (runs : List String) (s : Sweep) : (closeRuns d runs s).Within R := by
  induction runs generalizing s with
  | nil => exact .pure _
  | cons run rest ih =>
    exact .bind (reads_within (listProcesses_reads run)) fun rows =>
      .bind (kept.closeRows_within rows _) fun s => .ite (.pure s) (ih s)

theorem driveBest_within (scan : Scan) : (driveBest digest outside d scan).Within R := by
  unfold driveBest
  split
  · exact .pure _
  · rename_i binding run processId _
    exact .bind (reads_within (getProcess_reads run processId)) fun selected =>
      .bind (kept.once outside d.worker selected binding.adapter) fun _ => .ite (.pure _) (.pure _)

theorem driveTurn_within (report : AllRunDriverResult) :
    (driveTurn digest outside d report).Within R := by
  refine .ite (.pure _) (.ite (.pure _) (.bind (kept.closeRuns_within d.runs _) fun sweep =>
    .ite (.pure _) (.ite (.pure _) (.bind ?_ fun scan => kept.driveBest_within scan))))
  exact (scanRuns_reads d.runs _).imp fun db _ same => same ▸ refl_of R db

theorem driveTurns_within (fuel : Nat) (report : AllRunDriverResult) :
    (driveTurns digest outside d fuel report).Within R := by
  induction fuel generalizing report with
  | zero => exact .pure _
  | succ fuel ih =>
    refine .bind (kept.driveTurn_within report) fun turn => ?_
    cases turn with
    | again report => exact ih report
    | done report => exact .pure _

theorem driveAllRuns_within (d : Drive) (fuel : Nat) : (driveAllRuns digest outside d fuel).Within R :=
  .bind (.of _) fun _ => .ite (.pure _)
    (.bind (.of _) fun _ => .bind (kept.driveTurns_within fuel _) fun _ => .pure _)

end AllRuns

section Advance

variable {run : String} {db db' : Database}

theorem applyDecisions_within (decisions : List (Except String (Option Correlation.Decision)))
    (children : List CorrelationChildTransition) (changed : Bool) :
    (Correlation.applyDecisions run decisions children changed).Within R := by
  induction decisions generalizing children changed with
  | nil => exact .pure _
  | cons decision rest ih =>
    refine .bind (.of decision) fun made => ?_
    match made with
    | none => exact ih children changed
    | some (.promote child) => exact ih (children ++ [child]) changed
    | some (.skip processId at_ outputJson) =>
      exact .bind (.program fun _ => (kept.skip run processId at_ outputJson _ _).void) fun _ => ih children true

omit [Std.Refl R] [IsTrans Database R] in
theorem promoteChildren_within (children : List CorrelationChildTransition) :
    (Correlation.promoteChildren run children).Settles db (R db) := by
  unfold Correlation.promoteChildren
  split
  · exact .ofReadOnly (.pure _)
  · exact (kept.promote run children db).void

omit [IsTrans Database R] in
theorem rewriteMetadata_within {id : String} {members : List (String × Json)} {u : Unit}
    (h : (Correlation.rewriteMetadata run id members).eval db = (.ok u, db')) : R db db' := by
  simp only [Correlation.rewriteMetadata, bind_ok] at h
  obtain ⟨n, middle, updated, same⟩ := h
  obtain ⟨-, rfl⟩ := pure_ok.mp same
  unfold updateProcess updateWhere at updated
  rw [statement_ok] at updated
  split at updated
  · cases updated
    exact kept.mark _ _ _
  · cases updated
    exact refl_of R _

omit [IsTrans Database R] in
theorem markRow_within {diagnostic : Correlation.CorrelationWaitDiagnostic} {row : ProcessRow} {u : Unit}
    (h : (Correlation.markRow run diagnostic row).eval db = (.ok u, db')) : R db db' := by
  have same {u : Unit} (h : (pure () : Sql Unit).eval db = (.ok u, db')) : R db db' := by
    obtain ⟨-, rfl⟩ := pure_ok.mp h
    exact refl_of R _
  unfold Correlation.markRow at h
  split at h
  · split at h
    · split at h
      · exact same h
      · exact kept.rewriteMetadata_within h
    · split at h
      · exact kept.rewriteMetadata_within h
      · exact same h
  · exact absurd h raise_ok

theorem markRows_within {diagnostic : Correlation.CorrelationWaitDiagnostic} {rows : List ProcessRow} {u : Unit}
    (h : (Correlation.markRows run diagnostic rows).eval db = (.ok u, db')) : R db db' := by
  induction rows generalizing db with
  | nil =>
    obtain ⟨-, rfl⟩ := pure_ok.mp h
    exact refl_of R _
  | cons row rest ih =>
    obtain ⟨_, middle, marked, h⟩ := bind_ok.mp h
    exact trans_of R (kept.markRow_within marked) (ih h)

theorem advanceRound_within (r : Reconciliation) : (Correlation.advanceRound r).Within R := by
  refine .bind (reads_within (listProcesses_reads _)) fun rows => .bind (.of _) fun round =>
    .bind (kept.applyDecisions_within _ _ _) fun applied => ?_
  refine .bind (.program fun _ => kept.promoteChildren_within applied.1) fun _ => .bind (.program fun db => ?_) fun _ => .pure _
  exact .afterRead (listProcesses_reads _) fun rows _ => .transact fun _ _ => kept.markRows_within

theorem advanceRounds_within (r : Reconciliation) (rounds : Nat) :
    (Correlation.advanceRounds r rounds).Within R := by
  induction rounds with
  | zero => exact .pure _
  | succ rounds ih => exact .bind (kept.advanceRound_within r) fun changed => .ite ih (.pure _)

theorem advanceCorrelation_within (r : Reconciliation) : (advanceCorrelation r).Within R :=
  .bind (.of _) fun _ => .bind (reads_within (listProcesses_reads _)) fun _ => .bind (.of _) fun _ =>
    .bind (kept.advanceRounds_within r _) fun _ => .bind (.require _ _) fun _ => reads_within (listProcesses_reads _)

end Advance

section Recover

theorem recoverRows_within (now due : String) (rows : List ProcessRow) :
    (Session.program (recoverRows now due rows)).Within R := by
  induction rows with
  | nil => exact .pure _
  | cons row rest ih =>
    unfold recoverRows
    rw [Session.program_bind]
    refine .bind (.program fun _ => kept.maintain row _ _) fun resolved => ?_
    rw [Session.program_bind]
    refine .bind (reads_within (.require _ _)) fun _ => ?_
    rw [Session.program_bind]
    exact .bind ih fun _ => .pure _

theorem recoverIncompleteProcesses_within (workerId now retryAvailableAt : String) :
    (Session.program (recoverIncompleteProcesses workerId now retryAvailableAt)).Within R := by
  unfold recoverIncompleteProcesses
  rw [Session.program_bind]
  refine .bind (reads_within (.require _ _)) fun _ => ?_
  rw [Session.program_bind]
  refine .bind (reads_within (.require _ _)) fun _ => ?_
  rw [Session.program_bind]
  refine .bind (reads_within (.fetch _)) fun selected => ?_
  rw [Session.program_bind]
  exact .bind (kept.recoverRows_within now _ selected) fun _ => .pure _

end Recover

theorem driveStep {db : Database} (call : DriveCall) : R db (driveStep digest db call) := by
  cases call with
  | claimNextReady run allRuns c => exact kept.claim run allRuns c db
  | driveOnce outside worker process adapter => exact kept.once outside worker process adapter db
  | driveBoundQueue outside load q fuel => exact kept.driveBoundQueue_within load q fuel db
  | driveAllRuns outside d fuel => exact kept.driveAllRuns_within d fuel db
  | runUntilIdle outside deadlocked s stop fuel => exact kept.runUntilIdle_within deadlocked stop fuel db
  | advanceCorrelation r => exact kept.advanceCorrelation_within r db
  | reopenHomeostatProcess r =>
    exact Settles.final (c := ⟨db, none⟩) (kept.reopen r db) (refl_of R db)

end Kept
end
end Fala.Driver
