import Fala.Driver.Results
import Fala.Driver.Kept

/-! Finished runs: no operation of the driver claims a process of a run with nothing left to claim. -/

namespace Fala.Driver
open Durable Program Journal

section Sleep

variable {digest : Json → String} {outside : Outside} {runId : String}

theorem driveOnce_dormant (worker : Worker) (process : ProcessRow) (adapter : AdapterSpec) :
    (driveOnce digest outside worker process adapter).Within (Dormant runId) := by
  intro db
  have same : Dormant runId db db := refl_of (Dormant runId) db
  have claims {db' : Database} {c : ClaimRequest} (claim : Written db (.act process.runId process.id (.claim c)) db') :
      Dormant runId db db' := .written claim trivial (.inr trivial)
  refine .require same fun _ => .bind (fun message db' raised => ?_) fun claimed middle returned => ?_
  · rcases (claimProcess_settles process.runId process.id _ db).evaluated raised with rfl | rfl | done
    · exact same
    · exact same
    · obtain ⟨w, ⟨-, rfl⟩, claim⟩ := done
      exact claims claim
  · have claim := claimProcess_claims rfl returned
    obtain ⟨old, found, open_, updated, -⟩ := claimProcess_row rfl returned
    have run : claimed.runId = process.runId := by
      rw [updated]
      exact congrArg Prod.fst (Table.find?_key found)
    have after : Does (Moves claimed.runId) middle _ :=
      @afterClaim_moves digest outside worker adapter claimed middle
    by_cases here : process.runId = runId
    · refine fun consistent => ⟨?_, fun quiet => ?_⟩
      · exact after.induct (claim.consistent consistent) fun moves written kept => written.consistent kept
      · rw [(quiet _ old found here).unclaimable] at open_
        cases open_
    · exact trans_of (Dormant runId) (claims claim) (.moves after (run ▸ here))

theorem driveOnce_refused {worker : Worker} {process : ProcessRow} {adapter : AdapterSpec} {db : Database}
    (consistent : Consistent db) (quiet : Quiescent runId db) (here : process.runId = runId) :
    ∃ message, driveOnce digest outside worker process adapter db = (.error message, db) := by
  have unclaimed {row : ProcessRow} {c : ClaimRequest}
      (found : db.processes.find? (process.runId, process.id) = some row) (open_ : claimable row c.now = true) : False := by
    rw [(quiet _ row found here).unclaimable] at open_
    cases open_
  have refused : ∃ message, (claimProcess process.runId process.id
      { workerId := worker.id, now := worker.now, leaseExpiresAt := worker.leaseExpiresAt }).eval db =
        (.error message, db) := by
    cases answered : (claimProcess process.runId process.id
      { workerId := worker.id, now := worker.now, leaseExpiresAt := worker.leaseExpiresAt }).eval db with
    | mk result db' =>
      cases result with
      | ok claimed =>
        obtain ⟨old, found, open_, -⟩ := claimProcess_row rfl answered
        exact (unclaimed found open_).elim
      | error message =>
        refine ⟨message, ?_⟩
        rcases (claimProcess_settles process.runId process.id _ db).evaluated answered with rfl | rfl | done
        · rfl
        · rfl
        · obtain ⟨w, ⟨-, rfl⟩, claim⟩ := done
          cases claim with
          | act found enabled => exact (unclaimed found enabled.1).elim
  obtain ⟨message, refused⟩ := refused
  by_cases named : worker.id = ""
  · refine ⟨"driver: worker_id must not be empty", ?_⟩
    have unnamed : decide (worker.id ≠ "") = false := decide_eq_false (not_not_intro named)
    unfold driveOnce
    rw [unnamed]
    exact Session.bind_raised rfl
  · refine ⟨message, ?_⟩
    have named : decide (worker.id ≠ "") = true := decide_eq_true named
    unfold driveOnce
    rw [Session.bind_returned (a := ()) (Session.require_ok.mpr ⟨named, rfl⟩)]
    exact Session.bind_raised refused

theorem skipProcess_dormant {run : String} {db : Database} (processId at_ : String) (outputJson : Text) (key : String) :
    (skipProcess run processId "correlation" at_ outputJson key).Settles db (Dormant runId db) :=
  (transitionProcess_settles _ db).imp fun db' commits => by
    refine .does (does_of_commits commits fun w makes => makes) ?_ ?_
    · rintro w ⟨output, error, -, -, rfl⟩
      exact ⟨nofun, nofun, nofun⟩
    · rintro w ⟨output, error, -, -, rfl⟩
      exact .inr nofun

theorem applyCorrelationChildren_dormant {db : Database} (c : ChildrenCall) (children : List CorrelationChildTransition) :
    (applyCorrelationChildren c children).Settles db (Dormant runId db) :=
  (applyCorrelationChildren_settles c children db).imp fun db' does => by
    refine .does does ?_ ?_
    · rintro w ⟨child, _, rfl⟩
      trivial
    · rintro w ⟨child, _, rfl⟩
      exact .inr trivial

theorem reopenHomeostatProcess_dormant {db : Database} (r : HomeostatReopen) :
    (reopenHomeostatProcess r).Settles db (Dormant runId db) :=
  (reopenHomeostatProcess_settles r db).imp fun db' commits => by
    rcases commits with rfl | ⟨w, ⟨homeostat, rfl⟩, written, -⟩
    · exact refl_of (Dormant runId) _
    · exact .written written trivial (.inr trivial)

theorem kept_dormant (digest : Json → String) (runId : String) : Kept digest (Dormant runId) where
  once _ := driveOnce_dormant
  maintain process m _ := maintainProcess_dormant process m
  claim run allRuns c _ := claimNextReady_dormant run allRuns c
  skip _ processId at_ outputJson key _ := skipProcess_dormant processId at_ outputJson key
  promote _ children _ := applyCorrelationChildren_dormant _ children
  mark _ _ _ := .modified _ fun _ => ⟨rfl, rfl, rfl⟩
  reopen r _ := reopenHomeostatProcess_dormant r

end Sleep

end Fala.Driver

/-! What a driver does after a run is finished. -/

namespace Fala.Driver
open Durable Program Journal
open Correlation (Persistence)

variable {digest : Json → String} {db : Database}

/-- The rows stay consistent. -/
def Sound (db db' : Database) : Prop := Consistent db → Consistent db'

instance : Std.Refl Sound where
  refl _ := id

instance : IsTrans Database Sound where
  trans _ _ _ first later := later ∘ first

theorem Sound.does {P : Write → Prop} {db' : Database} (does : Does P db db') : Sound db db' := fun consistent =>
  does.induct consistent fun _ written kept => written.consistent kept

theorem Sound.modified {k : String × String} {f : ProcessRow → ProcessRow} (keeps : ∀ r, (f r).key = r.key) :
    Sound db (db.setProcesses (db.processes.modify k f keeps)) := by
  intro consistent
  refine ⟨consistent.numbered, consistent.housed, ?_, consistent.referenced⟩
  intro k' row found
  have found : (db.processes.modify k f keeps).find? k' = some row := found
  rw [Table.find?_modify] at found
  split at found
  · rename_i same
    obtain ⟨old, held, -⟩ := Option.map_eq_some_iff.mp found
    exact same ▸ consistent.manned k old held
  · exact consistent.manned k' row found

theorem Sound.update {runId id : String} {guard : ProcessRow → Bool} {f : ProcessRow → ProcessRow}
    {keeps : ∀ r, (f r).key = r.key} {n : Nat} {db' : Database}
    (h : (updateProcess runId id guard f keeps).eval db = (.ok n, db')) : Sound db db' := by
  unfold updateProcess updateWhere at h
  rw [statement_ok] at h
  split at h
  · cases h
    exact .modified keeps
  · cases h
    exact refl_of Sound _

theorem initializeDependents_sound {runId : String} {items : List Correlation.PlannedProcess} {u : Unit}
    {db' : Database} (h : (Correlation.initializeDependents runId items).eval db = (.ok u, db')) : Sound db db' := by
  induction items generalizing db with
  | nil =>
    obtain ⟨-, rfl⟩ := pure_ok.mp h
    exact refl_of Sound _
  | cons item rest ih =>
    unfold Correlation.initializeDependents at h
    split at h
    · obtain ⟨_, middle, marked, h⟩ := bind_ok.mp h
      obtain ⟨n, after, updated, same⟩ := bind_ok.mp marked
      obtain ⟨-, rfl⟩ := pure_ok.mp same
      exact trans_of Sound (.update updated) (ih h)
    · exact ih h

theorem readyCandidates_sound {runId : String} {candidates : List (String × Text)} {u : Unit} {db' : Database}
    (h : (Correlation.readyCandidates runId candidates).eval db = (.ok u, db')) : Sound db db' := by
  induction candidates generalizing db with
  | nil =>
    obtain ⟨-, rfl⟩ := pure_ok.mp h
    exact refl_of Sound _
  | cons candidate rest ih =>
    obtain ⟨_, middle, marked, h⟩ := bind_ok.mp h
    obtain ⟨n, after, updated, same⟩ := bind_ok.mp marked
    obtain ⟨-, rfl⟩ := pure_ok.mp same
    exact trans_of Sound (.update updated) (ih h)

theorem scheduleCreated_sound (runId createdAt : String) (items : List Correlation.PlannedProcess) :
    (Correlation.scheduleCreated runId createdAt items).Within Sound := by
  induction items with
  | nil => exact .pure _
  | cons item rest ih =>
    refine .bind (.of _) fun row => .bind (.program fun db => ?_) fun _ => ih
    exact (scheduleProcess_settles _ db).void.imp fun _ commits => .does commits.does

theorem refreshCorrelationReadiness_sound (p : Persistence) :
    (Correlation.refreshCorrelationReadiness p).Within Sound :=
  .bind (.of _) fun _ => .bind (reads_within (listProcesses_reads _)) fun _ => .bind (.of _) fun _ =>
    .bind (.program fun _ => .transact fun _ _ => readyCandidates_sound) fun _ =>
      .bind (reads_within (listProcesses_reads _)) fun _ => .bind (.of _) fun _ => .pure _

theorem persistCorrelationPlan_sound (p : Persistence) (createdAt : String) :
    (Correlation.persistCorrelationPlan p createdAt).Within Sound := by
  refine .bind (.of _) fun _ => .bind (reads_within (listProcesses_reads _)) fun _ => .bind (.of _) fun created => ?_
  refine .ite ?_ (refreshCorrelationReadiness_sound p)
  refine .bind (.bind (scheduleCreated_sound _ _ created) fun _ => .program fun _ => .transact fun _ _ =>
    initializeDependents_sound) fun _ => refreshCorrelationReadiness_sound p

theorem moveRun_sound (f : RunFinalization) (status : String) (outcome : String × String) :
    (moveRun f status outcome).Settles db (Sound db) := by
  unfold moveRun
  split
  · exact .ofReadOnly (.pure _)
  · refine (transitionRunStatus_settles _ db).void.imp fun db' commits => ?_
    rcases commits with rfl | ⟨w, -, written, -⟩
    · exact refl_of Sound _
    · exact written.consistent

theorem finalizeRun_sound (f : RunFinalization) : (finalizeRun f).Settles db (Sound db) := by
  refine .require fun _ => .require fun _ => .require fun _ => .afterRead (.query _) fun run _ =>
    .afterRead (listProcesses_reads _) fun rows _ => ?_
  unfold concludeRun
  split
  · exact .ofReadOnly (.pure _)
  · exact (moveRun_sound f run.status _).thenRead fun _ => .pure _

theorem engineStep_sound (call : EngineCall) : Sound db (engineStep digest db call) := by
  cases call with
  | run call faults =>
    cases call with
    | call c => exact fun consistent => step_consistent digest consistent (c, faults)
    | finalizeRun f => exact Settles.final (c := ⟨db, faults⟩) (finalizeRun_sound f).void (refl_of Sound db)
  | drive call => exact fun consistent => ((kept_dormant digest "").driveStep call consistent).1
  | maintainProcess process m =>
    exact Settles.final (c := ⟨db, none⟩) ((maintainProcess_settles process m db).imp fun _ commits =>
      .does commits.does) (refl_of Sound db)
  | recoverIncompleteProcesses workerId now due =>
    exact fun consistent => ((kept_dormant digest "").recoverIncompleteProcesses_within workerId now due db consistent).1
  | persistCorrelationPlan p createdAt => exact persistCorrelationPlan_sound p createdAt db
  | refreshCorrelationReadiness p => exact refreshCorrelationReadiness_sound p db

theorem afterEngine_consistent (digest : Json → String) (calls : List EngineCall) : Consistent (afterEngine digest calls) :=
  execute_induction (I := Consistent) .empty (fun _ call => engineStep_sound call) calls

theorem afterEngine_dormant (digest : Json → String) (runId : String) (before : List EngineCall) (later : List DriveCall) :
    Dormant runId (afterEngine digest before) (afterEngine digest (before ++ later.map .drive)) := by
  unfold afterEngine
  rw [execute_append]
  generalize Durable.execute (engineStep digest) Database.empty before = start
  induction later generalizing start with
  | nil => exact refl_of (Dormant runId) start
  | cons call later ih => exact trans_of (Dormant runId) ((kept_dormant digest runId).driveStep call) (ih _)

/-- Once a run is finished with nothing left to claim, no operation of a driver claims a process of it or
    executes one, in whatever order the operations come. -/
theorem finished_stays (digest : Json → String) (before : List EngineCall) (later : List DriveCall) (runId : String)
    (run : RunRecord) (_found : (afterEngine digest before).runs.find? runId = some run)
    (_finished : (RunStatus.ofValue run.status).isTerminal = true) (spent : Quiescent runId (afterEngine digest before)) :
    (∀ id, claimsOf (afterEngine digest (before ++ later.map .drive)) (runId, id) =
        claimsOf (afterEngine digest before) (runId, id)) ∧
      ∀ outside worker process adapter, process.runId = runId →
        ∃ message, driveOnce digest outside worker process adapter (afterEngine digest (before ++ later.map .drive)) =
          (.error message, afterEngine digest (before ++ later.map .drive)) := by
  have consistent := afterEngine_consistent digest before
  obtain ⟨after, sleeps⟩ := afterEngine_dormant digest runId before later consistent
  obtain ⟨quiet, unclaimed⟩ := sleeps spent
  exact ⟨unclaimed, fun outside worker process adapter here => driveOnce_refused after quiet here⟩

/-- A run with one process. -/
def scheduledWork : List EngineCall :=
  [.run (.call (.process (.createRun
      { runId := "run", status := "active", metadata := "\x7b\x7d", createdAt := "t0" }))) none,
    .run (.call (.process (.scheduleProcess
      { runId := "run", processId := "work", processType := "manual", createdAt := "t0" }))) none]

def laterClaim : DriveCall := .claimNextReady "run" false { workerId := "late", now := "t5", leaseExpiresAt := "t9" }

/-- The process failed, and the run with it. -/
def failedWork : List EngineCall :=
  scheduledWork ++
    [.run (.call (.process (.claimProcess "run" "work" { workerId := "w", now := "t1", leaseExpiresAt := "t2" }))) none,
      .run (.call (.process (.transitionProcess (.failProcess "run" "work" "w" "t1" .braces)))) none,
      .run (.finalizeRun ⟨"run", "failed", 0, "t1", ""⟩) none]

theorem finished_stays_failed :
    claimsOf (afterEngine (fun _ => "") (failedWork ++ [laterClaim].map .drive)) ("run", "work") =
      claimsOf (afterEngine (fun _ => "") failedWork) ("run", "work") := by
  have failed : ∃ run ∈ (afterEngine (fun _ => "") failedWork).runs.rows,
      (afterEngine (fun _ => "") failedWork).runs.find? "run" = some run ∧
        (RunStatus.ofValue run.status).isTerminal = true := by decide +kernel
  have spent : ∀ row ∈ (afterEngine (fun _ => "") failedWork).processes.rows, row.maxAttempts ≤ row.attempt := by
    decide +kernel
  obtain ⟨run, -, found, finished⟩ := failed
  exact (finished_stays (fun _ => "") failedWork [laterClaim] "run" run found finished
    fun k row held _ => .inl (spent row (Table.find?_some.mp held).1)).1 "work"

/-- The run is timed out before its process was claimed. -/
def timedOutWork : List EngineCall := scheduledWork ++ [.run (.finalizeRun ⟨"run", "max_ticks", 1, "t1", ""⟩) none]

/-- The process of the finished run is claimed all the same. -/
theorem finished_claimed :
    ¬ ∀ (before : List EngineCall) (later : List DriveCall) (runId : String) (run : RunRecord),
      (afterEngine (fun _ => "") before).runs.find? runId = some run → (RunStatus.ofValue run.status).isTerminal = true →
        ∀ id, claimsOf (afterEngine (fun _ => "") (before ++ later.map .drive)) (runId, id) =
          claimsOf (afterEngine (fun _ => "") before) (runId, id) := by
  intro stays
  have timedOut : ∃ run ∈ (afterEngine (fun _ => "") timedOutWork).runs.rows,
      (afterEngine (fun _ => "") timedOutWork).runs.find? "run" = some run ∧
        (RunStatus.ofValue run.status).isTerminal = true := by decide +kernel
  have claimed : claimsOf (afterEngine (fun _ => "") (timedOutWork ++ [laterClaim].map .drive)) ("run", "work") = 1 ∧
      claimsOf (afterEngine (fun _ => "") timedOutWork) ("run", "work") = 0 := by decide +kernel
  obtain ⟨run, -, found, finished⟩ := timedOut
  have same := stays timedOutWork [laterClaim] "run" run found finished "work"
  omega

end Fala.Driver
