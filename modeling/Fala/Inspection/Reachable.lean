import Fala.Engine.Actions
import Fala.Engine.Invariants
import Fala.Inspection.Leases

/-! What every operation keeps of the rows that the lease inspection reads. -/

namespace Fala
open Durable Program Journal Domain

/-- The caller creates runs in known statuses, and schedules processes of its own without a lease and with attempts
    within their bounds. -/
def Call.Plain : Call → Prop
  | .process (.createRun r) => (RunStatus.ofValue r.status).isKnown = true
  | .record (.scheduleProcessWithCommand row _ _) =>
    (row.leaseOwner = "" ∧ row.leaseExpiresAt = "") ∧ 0 ≤ row.attempt ∧ row.attempt ≤ row.maxAttempts
  | _ => True

namespace Inspection

/-! The runs. -/

def RunFit (run : RunRecord) : Prop := run.id ≠ "" ∧ (RunStatus.ofValue run.status).isKnown = true

def RunsFit (db : Database) : Prop := ∀ run ∈ db.runs.rows, RunFit run

theorem runsFit_insert {row : RunRecord} (fit : RunFit row) : (insertRun row).Keeps RunsFit := by
  refine execute_keeps fun db db' h held => ?_
  split at h
  · rename_i runs inserted
    cases h
    intro run member
    change run ∈ runs.rows at member
    rw [(Table.insert?_some.mp inserted).2, List.mem_append, List.mem_singleton] at member
    rcases member with member | rfl
    · exact held run member
    · exact fit
  · cases h

theorem runsFit_update {id : String} {f : RunRecord → RunRecord} (keeps : ∀ r, (f r).id = r.id)
    (known : ∀ r, (RunStatus.ofValue (f r).status).isKnown = true) (guard : RunRecord → Bool) :
    (updateRun id guard f keeps).Keeps RunsFit := by
  refine updateWhere_keeps fun db _ held => ?_
  intro run member
  change run ∈ (db.runs.modify id f keeps).rows at member
  rcases Table.mem_modify.mp member with ⟨old, stored, -, rfl⟩ | ⟨stored, -⟩
  · exact ⟨by rw [keeps]; exact (held old stored).1, known old⟩
  · exact held run stored

theorem known_of_transition {source target : RunStatus} (legal : canTransitionRun source target = true) :
    target.isKnown = true := by
  cases known : target.isKnown with
  | true => rfl
  | false => simp [canTransitionRun, known] at legal

theorem ofSettles_runs {p : Sql Unit} {Q : Database → Database → Prop} (settles : ∀ db, p.Settles db (Q db))
    (same : ∀ db db', Q db db' → db'.runs = db.runs) : p.Keeps RunsFit := by
  refine .ofSettles fun db held => (settles db).imp fun db' done => ?_
  intro run member
  rw [same db db' done] at member
  exact held run member

theorem Call.keeps_runsFit (digest : Json → String) {call : Call} (plain : call.Plain) :
    (call.program digest).Keeps RunsFit := by
  have beside : Alongside RunsFit := runs_alongside fun t => ∀ run ∈ t.rows, RunFit run
  cases call with
  | process c =>
    cases c with
    | createRun r => exact (createRun_keeps beside r fun named => runsFit_insert ⟨named, plain⟩).void
    | scheduleProcess s => exact (scheduleProcess_keeps beside s).void
    | claimProcess runId processId c => exact (claimProcess_keeps beside runId processId c).void
    | claimNextReady runId allRuns c => exact (claimNextReady_keeps beside runId allRuns c).void
    | transitionProcess t => exact (t.program_keeps beside digest).void
    | advanceCorrelationReady runId processId inputJson =>
      exact (advanceCorrelationReady_keeps beside runId processId inputJson).void
    | applyCorrelationChildren c children => exact (applyCorrelationChildren_keeps beside c children).void
    | parkHomeostatProcess p =>
      refine ofSettles_runs (fun db => (parkHomeostatProcess_parks p db).void) fun db db' done => ?_
      rcases done with rfl | ⟨_, _, _, _, _, _, _, pair⟩
      · rfl
      · exact pair.runs
    | transitionHomeostatProcess t =>
      refine ofSettles_runs (fun db => (transitionHomeostatProcess_resolves t db).void) fun db db' done => ?_
      rcases done with rfl | ⟨_, _, _, _, _, _, _, _, _, _, _, pair⟩
      · rfl
      · exact pair.runs
    | reopenHomeostatProcess r =>
      refine ofSettles_runs (fun db => (reopenHomeostatProcess_reopens r db).void) fun db db' done => ?_
      rcases done with rfl | ⟨_, _, _, _, _, _, _, pair⟩
      · rfl
      · exact pair.runs
  | record c =>
    refine c.program_keeps beside fun t source legal => ?_
    exact runsFit_update (f := t.update) (fun _ => rfl) fun _ => known_of_transition legal
  | lifecycle c =>
    refine c.program_keeps beside (fun c named known => runsFit_insert ⟨named, known⟩) fun t known => ?_
    exact runsFit_update (f := t.update) (fun _ => rfl) fun _ => known
  | store c =>
    have unread : Unread RunsFit :=
      ⟨fun _ _ => id, fun _ _ => id, fun _ _ => id, fun _ _ => id, fun _ _ => id, fun _ _ => id⟩
    refine c.program_keeps beside unread (SideTable.insert_keeps fun _ _ => id) fun row c createdAt _ => ?_
    exact .bind (getRow_keeps _ _ _ _) fun _ => .bind (.require _ _) fun _ =>
      .bind (SideTable.update_keeps (fun _ _ => id) _ _ _ _ _) fun _ => .require _ _
  | bridge c => exact c.program_keeps beside (fun _ _ => id) (fun _ _ => id) (fun _ _ => id)

/-! The process rows. -/

/-- What the inspection asks of a process row: a lease exactly while it runs, and attempts within their bounds. -/
structure LeaseFit (row : ProcessRow) : Prop where
  named : row.id ≠ ""
  owned : row.status = .running ↔ row.leaseOwner ≠ ""
  expiring : row.status = .running ↔ row.leaseExpiresAt ≠ ""
  bounded : 0 ≤ row.attempt ∧ row.attempt ≤ row.maxAttempts
  tried : 1 ≤ row.maxAttempts

theorem LeaseFit.released {old new : ProcessRow} (fit : LeaseFit old) (id : new.id = old.id)
    (attempt : new.attempt = old.attempt) (maxAttempts : new.maxAttempts = old.maxAttempts)
    (idle : new.status ≠ .running) (owner : new.leaseOwner = "") (expiry : new.leaseExpiresAt = "") : LeaseFit new where
  named := by rw [id]; exact fit.named
  owned := by simp [idle, owner]
  expiring := by simp [idle, expiry]
  bounded := by rw [attempt, maxAttempts]; exact fit.bounded
  tried := by rw [maxAttempts]; exact fit.tried

theorem LeaseFit.apply {old : ProcessRow} {action : RowAction} (enabled : action.Enabled old) (fit : LeaseFit old)
    (leaves : ∀ t output error, action = .transition t output error → t.toStatus ≠ .running) :
    LeaseFit (action.apply old) := by
  cases action with
  | claim c =>
    obtain ⟨claims, worker, lease⟩ := enabled
    have left := (claimable_open claims).2
    have bounds := fit.bounded
    refine ⟨fit.named, ?_, ?_, ?_, fit.tried⟩
    · simp [RowAction.apply, claimUpdate, worker]
    · simp [RowAction.apply, claimUpdate, lease]
    · simp only [RowAction.apply, claimUpdate]
      omega
  | expire workerId now => exact fit.released rfl rfl rfl (by simp [RowAction.apply, expireUpdate]) rfl rfl
  | transition t output error => exact fit.released rfl rfl rfl (leaves t output error rfl) rfl rfl
  | command t output error =>
    have running : t.target ≠ .running := by
      intro running
      have expected := enabled.2.1
      simp [running, expectedCommandType] at expected
    exact fit.released rfl rfl rfl running rfl rfl
  | park p output metadata => exact fit.released rfl rfl rfl (by simp [RowAction.apply, HomeostatPark.update]) rfl rfl
  | resolve t output error =>
    obtain ⟨-, -, owner, expiry, target⟩ := enabled
    have running : t.processStatus ≠ .running := by
      rcases target with same | same | same <;> simp [same]
    exact fit.released rfl rfl rfl running owner expiry
  | reopen r homeostat => exact fit.released rfl rfl rfl (by simp [RowAction.apply, HomeostatReopen.update]) rfl rfl
  | promote c child =>
    have idle : old.status ≠ .running := by
      rw [show old.status = .pending from enabled]
      decide
    have owner : old.leaseOwner = "" := by simpa using mt fit.owned.mpr idle
    have expiry : old.leaseExpiresAt = "" := by simpa using mt fit.expiring.mpr idle
    exact fit.released rfl rfl rfl (by simp [RowAction.apply, ChildrenCall.update]) owner expiry

/-- What it asks of all the rows. -/
structure Inspectable (db : Database) : Prop where
  consistent : Consistent db
  runs : RunsFit db
  rows : ∀ k row, db.processes.find? k = some row → LeaseFit row

theorem Inspectable.empty : Inspectable .empty where
  consistent := .empty
  runs := nofun
  rows _ _ found := nomatch found

/-- A write that schedules a fit row, or moves one without making it run. -/
def Write.Fit : Write → Prop
  | .record .. => True
  | .schedule row .. => LeaseFit row
  | .act _ _ (.transition t _ _) => t.toStatus ≠ .running
  | .act .. => True

theorem Written.leaseFit {db db' : Database} {w : Write} (written : Written db w db') (write : Write.Fit w)
    (rows : ∀ k row, db.processes.find? k = some row → LeaseFit row) :
    ∀ k row, db'.processes.find? k = some row → LeaseFit row := by
  intro k row found
  cases written with
  | record processes logged =>
    rw [processes] at found
    exact rows k row found
  | schedule inserted logged =>
    rw [Table.find?_insert inserted] at found
    split at found
    · obtain rfl := Option.some.inj found
      exact write
    · exact rows k row found
  | @act runId processId action old _ here enabled processes logged =>
    rw [processes] at found
    split at found
    · obtain rfl := Option.some.inj found
      refine (rows _ old here).apply enabled fun t output error same => ?_
      subst same
      exact write
    · exact rows k row found

/-! A process is scheduled under an id. -/

theorem scheduleProcess_named (s : ProcessSchedule) (db : Database) :
    (scheduleProcess s).Settles db fun db' => db' = db ∨ s.processId ≠ "" := by
  refine .afterRead (requireRun_reads _) fun _ _ => .require fun valid =>
    .thenRead (.transact fun _ _ _ => ?_) fun _ => getProcess_reads _ _
  exact .inr (of_decide_eq_true valid).1

theorem scheduleProcessWithCommand_named (process : ProcessRow) (command : CommandRow) (events : List EventInput)
    (db : Database) :
    (scheduleProcessWithCommand process command events).Settles db fun db' => db' = db ∨ process.id ≠ "" := by
  refine .require fun _ => .require fun _ => .require fun _ => .transact fun _ db' h => ?_
  simp only [bind_ok, commandByKey_ok] at h
  obtain ⟨_, _, ⟨rfl, rfl⟩, h⟩ := h
  cases found : db.commandByKey command.runId command.idempotencyKey with
  | some stored =>
    simp only [found, pure_ok] at h
    exact .inl h.2.symm
  | none =>
    simp only [found, bind_ok, require_ok, decide_eq_true_eq] at h
    obtain ⟨_, _, _, _, _, ⟨⟨named, -⟩, -⟩, -⟩ := h
    exact .inr named

theorem write_fit {call : Call} (plain : call.Plain) {w : Write} (makes : call.Makes w)
    (scheduled : ∀ s, call = .process (.scheduleProcess s) → s.processId ≠ "")
    (supplied : ∀ row command events, call = .record (.scheduleProcessWithCommand row command events) → row.id ≠ "") :
    Write.Fit w := by
  cases w with
  | record runId commands events => trivial
  | act runId processId action =>
    cases action with
    | transition t output error =>
      have acts := Call.makes_act makes
      cases acts with
      | transition printed => exact (TransitionCall.toStatus _).2.2
    | _ => trivial
  | schedule row commands events =>
    cases call with
    | process c =>
      cases c with
      | scheduleProcess s =>
        obtain ⟨attempts, input, metadata, schema, -, same⟩ := makes
        cases same
        refine ⟨scheduled s rfl, by simp [ProcessSchedule.row], by simp [ProcessSchedule.row], ?_, attempts⟩
        simp only [ProcessSchedule.row]
        omega
      | createRun r => cases makes
      | claimProcess => cases makes
      | claimNextReady => obtain ⟨_, _, -, same⟩ | ⟨_, _, -, same⟩ := makes <;> cases same
      | transitionProcess => obtain ⟨_, _, -, -, same⟩ := makes; cases same
      | advanceCorrelationReady => obtain ⟨_, _, _, -, -, same⟩ := makes; cases same
      | applyCorrelationChildren => obtain ⟨_, -, same⟩ := makes; cases same
      | parkHomeostatProcess => obtain ⟨_, _, same⟩ := makes; cases same
      | transitionHomeostatProcess => obtain ⟨_, _, -, same⟩ := makes; cases same
      | reopenHomeostatProcess => obtain ⟨_, same⟩ := makes; cases same
    | record c =>
      cases c with
      | scheduleProcessWithCommand process command events =>
        obtain ⟨attempts, opening, input, metadata, schema, same⟩ := makes
        cases same
        obtain ⟨⟨owner, expiry⟩, bounded⟩ := plain
        have idle : process.status ≠ .running := by
          rcases opening with same | same <;> simp [same]
        exact ⟨supplied process command events rfl, by simp [idle, owner], by simp [idle, expiry], bounded, attempts⟩
      | transitionProcessWithCommand t => obtain ⟨_, _, -, -, same⟩ := makes; cases same
      | _ => cases makes
    | lifecycle c => cases c <;> cases makes
    | store c => obtain ⟨_, _, _, same⟩ := c.makes_record makes; cases same
    | bridge c => obtain ⟨_, _, _, same⟩ := c.makes_record makes; cases same

theorem step_inspectable (digest : Json → String) {db : Database} (fit : Inspectable db) (call : Call × Option Nat)
    (plain : call.1.Plain) : Inspectable (step digest db call) := by
  have runs : RunsFit (step digest db call) := Call.keeps_runsFit digest plain ⟨db, call.2⟩ fit.runs
  have consistent := step_consistent digest fit.consistent call
  obtain ⟨call, faults⟩ := call
  refine ⟨consistent, runs, ?_⟩
  by_cases same : step digest db (call, faults) = db
  · rw [same]
    exact fit.rows
  · have does := step_does digest fit.consistent (call, faults)
    have scheduled : ∀ s, call = .process (.scheduleProcess s) → s.processId ≠ "" := by
      rintro s rfl
      rcases (scheduleProcess_named s db).void faults with unchanged | ⟨-, unchanged | named⟩
      · exact absurd unchanged same
      · exact absurd unchanged same
      · exact named
    have supplied : ∀ row command events, call = .record (.scheduleProcessWithCommand row command events) →
        row.id ≠ "" := by
      rintro row command events rfl
      rcases (scheduleProcessWithCommand_named row command events db).void faults with
        unchanged | ⟨-, unchanged | named⟩
      · exact absurd unchanged same
      · exact absurd unchanged same
      · exact named
    exact does.induct fit.rows fun makes written rows =>
      Written.leaseFit written (write_fit plain makes scheduled supplied) rows

theorem after_inspectable (digest : Json → String) {calls : List (Call × Option Nat)}
    (plain : ∀ call ∈ calls, call.1.Plain) : Inspectable (after digest calls) := by
  have along : Along (step digest) (fun _ call => call.1.Plain) Database.empty calls :=
    ((Along.always (fun _ _ => trivial) _ _).each plain).imp fun _ _ held => held.1
  have kept : ∀ (db : Database) (call : Call × Option Nat), Inspectable db → call.1.Plain →
      Inspectable (step digest db call) := fun _ call fit plain => step_inspectable digest fit call plain
  show Inspectable (Durable.execute (step digest) Database.empty calls)
  exact execute_along .empty kept along

end Inspection
end Fala
