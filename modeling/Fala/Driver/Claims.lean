import Fala.Driver.Maintenance
import Fala.Engine.Actions

/-! How often a process is claimed when its retry policy forbids automatic retries. -/

namespace Fala.Driver
open Durable Program Journal

/-- The calls that claim processes, resolve their expired claims, or set them up. -/
inductive DriverCall where
  | process (c : ProcessCall)
  | maintainProcess (process : ProcessRow) (m : Maintenance)
  | recoverIncompleteProcesses (workerId now retryAvailableAt : String)
  deriving DecidableEq

def DriverCall.program (digest : Json → String) : DriverCall → Sql Unit
  | process c => c.program digest
  | maintainProcess row m => (Driver.maintainProcess row m).void
  | recoverIncompleteProcesses workerId now retryAvailableAt =>
    (Driver.recoverIncompleteProcesses workerId now retryAvailableAt).void

def driverStep (digest : Json → String) (db : Database) (call : DriverCall × Option Nat) :
    Database := ((call.1.program digest).run ⟨db, call.2⟩).2.store

def afterDriving (digest : Json → String) (calls : List (DriverCall × Option Nat)) : Database :=
  Durable.execute (driverStep digest) .empty calls

/-- An explicit retry of a process. -/
def DriverCall.RetriesByHand (k : String × String) : DriverCall → Prop
  | process (.transitionProcess t) =>
    t.transition.toStatus = .retryWait ∧ (t.transition.runId, t.transition.processId) = k
  | _ => False

/-- A claim takes over a running process whose lease has expired. -/
def Reclaims (k : String × String) (db : Database) : DriverCall → Prop
  | .process (.claimProcess runId processId c) =>
    (runId, processId) = k ∧ c.Accepted db runId ∧
      ∃ row, db.processes.find? k = some row ∧ row.status = .running ∧ claimable row c.now = true
  | .process (.claimNextReady runId _ c) =>
    c.Accepted db runId ∧
      ∃ row, queueHead db runId c.now = some row ∧ row.key = k ∧ row.status = .running
  | _ => False

/-- A row claimed at most once, which no claim may take again once it was. -/
structure SingleClaim (row : ProcessRow) : Prop where
  bounded : row.attempt ≤ 1
  spent : row.attempt = 1 → row.status ≠ .pending ∧ row.status ≠ .ready ∧ row.status ≠ .retryWait

/-- The action puts a row up for another claim. -/
def Retries : RowAction → Prop
  | .transition t _ _ => t.toStatus = .retryWait
  | .command t _ _ => t.target = .retryWait
  | _ => False

theorem metadata_apply (row : ProcessRow) (action : RowAction) :
    (action.apply row).metadata = row.metadata := by
  cases action <;> rfl

theorem SingleClaim.claimed {row : ProcessRow} {c : ClaimRequest} (single : SingleClaim row)
    (claims : claimable row c.now = true) (idle : row.status ≠ .running) :
    SingleClaim (claimUpdate c.workerId c.now c.leaseExpiresAt row) := by
  have unclaimed : row.attempt ≠ 1 := fun claimed => by
    obtain ⟨-, ready, retry⟩ := single.spent claimed
    obtain ⟨-, held | ⟨held, -⟩ | ⟨held, -⟩⟩ := of_decide_eq_true claims
    · exact ready held
    · exact retry held
    · exact idle held
  refine ⟨?_, fun _ => by simp [claimUpdate]⟩
  have := single.bounded
  simp only [claimUpdate]
  omega

theorem SingleClaim.moved {row new : ProcessRow} (single : SingleClaim row)
    (attempt : new.attempt = row.attempt)
    (held : row.attempt = 1 → new.status ≠ .pending ∧ new.status ≠ .ready ∧
      new.status ≠ .retryWait) : SingleClaim new :=
  ⟨attempt ▸ single.bounded, fun claimed => held (attempt ▸ claimed)⟩

theorem SingleClaim.apply {row : ProcessRow} {action : RowAction} (single : SingleClaim row)
    (enabled : action.Enabled row) (ordinary : action.Ordinary) (unretried : ¬ Retries action)
    (untaken : ∀ c, action = .claim c → row.status ≠ .running) :
    SingleClaim (action.apply row) := by
  cases action with
  | claim c => exact single.claimed enabled.1 (untaken c rfl)
  | expire => exact single.moved rfl fun _ => by simp [RowAction.apply, expireUpdate]
  | transition t output error => exact single.moved rfl fun _ => ⟨ordinary.1, ordinary.2.1, unretried⟩
  | command t output error =>
    obtain ⟨-, expected, guarded⟩ := enabled
    refine single.moved rfl fun claimed => ⟨fun pending => ?_, fun ready => ?_, unretried⟩
    · have pending : t.target = .pending := pending
      simp [pending, expectedCommandType] at expected
    · exact absurd ((t.guard_ok guarded).2.1 ready) (single.spent claimed).1
  | park => exact single.moved rfl fun _ => by simp [RowAction.apply, HomeostatPark.update]
  | resolve t output error =>
    obtain ⟨-, -, -, -, target⟩ := enabled
    refine single.moved rfl fun _ => ?_
    rcases target with same | same | same <;>
      simp [RowAction.apply, HomeostatTransition.update, same]
  | reopen => exact single.moved rfl fun _ => by simp [RowAction.apply, HomeostatReopen.update]
  | promote => exact single.moved rfl fun claimed => absurd enabled (single.spent claimed).1

/-- The process under a key, if it forbids automatic retries, was claimed at most once. -/
def OneShot (k : String × String) (db : Database) : Prop :=
  ∀ row, db.processes.find? k = some row → automaticRetryAllowed row.metadata = false →
    SingleClaim row

theorem unborn {db db' : Database} {w : Write} {k : String × String} (written : Written db w db')
    (absent : db.processes.find? k = none) :
    db'.processes.find? k = none ∨
      ∃ row commands events, w = .schedule row commands events ∧
        db'.processes.find? k = some row := by
  cases written with
  | record processes logged => exact .inl (processes ▸ absent)
  | @schedule row commands events _ inserted logged =>
    rw [Table.find?_insert inserted]
    split
    · exact .inr ⟨row, commands, events, rfl, rfl⟩
    · exact .inl absent
  | act current enabled processes logged =>
    rw [processes]
    split
    · rename_i same
      rw [← same, absent] at current
      cases current
    · exact .inl absent

theorem OneShot.written {k : String × String} {db db' : Database} {w : Write}
    (oneShot : OneShot k db) (written : Written db w db') (ordinary : w.Ordinary)
    (unretried : ∀ action row, w = .act k.1 k.2 action → Retries action →
      db.processes.find? k = some row → automaticRetryAllowed row.metadata = true)
    (untaken : ∀ c row, w = .act k.1 k.2 (.claim c) → db.processes.find? k = some row →
      row.status ≠ .running) : OneShot k db' := by
  intro new found policy
  cases before : db.processes.find? k with
  | none =>
    rcases unborn written before with absent | ⟨row, commands, events, rfl, scheduled⟩
    · simp [found] at absent
    · obtain rfl := Option.some.inj (found.symm.trans scheduled)
      exact ⟨by rw [ordinary.2.1]; decide, fun claimed => by simp [ordinary.2.1] at claimed⟩
  | some row =>
    rcases written.row before with kept | ⟨action, rfl, enabled, moved⟩
    · exact Option.some.inj (found.symm.trans kept) ▸ oneShot row before
        (Option.some.inj (found.symm.trans kept) ▸ policy)
    · obtain rfl := Option.some.inj (found.symm.trans moved)
      rw [metadata_apply] at policy
      refine (oneShot row before policy).apply enabled ordinary (fun retries => ?_)
        fun c same => untaken c row (by rw [same]) before
      rw [unretried action row rfl retries before] at policy
      cases policy

theorem OneShot.queue {k : String × String} {runId : String} {allRuns : Bool} {c : ClaimRequest}
    {db db' : Database} (oneShot : OneShot k db)
    (untaken : ¬ Reclaims k db (.process (.claimNextReady runId allRuns c)))
    (does : Does (c.Selects db runId) db db') : OneShot k db' := by
  intro new found policy
  cases before : db.processes.find? k with
  | none =>
    have absent : db'.processes.find? k = none :=
      does.induct (I := fun db => db.processes.find? k = none) before
        fun selects written absent => by
          rcases unborn written absent with still | ⟨row, commands, events, rfl, -⟩
          · exact still
          · obtain ⟨_, _, -, same⟩ | ⟨-, _, -, same⟩ := selects <;> cases same
    simp [found] at absent
  | some row =>
    -- Once claimed or expired the row is out of the queue, for its new lease ends later.
    let Q (new : ProcessRow) : Prop :=
      new = row ∨ (new.metadata = row.metadata ∧
        (automaticRetryAllowed row.metadata = false → SingleClaim new) ∧
          (claimable row c.now = true → claimable new c.now = false))
    obtain ⟨last, found', kept⟩ := does.row (Q := Q) before (.inl rfl)
      fun current action selects enabled held => by
        obtain ⟨_, _, -, same⟩ | ⟨accepted, head, first, same⟩ := selects
        · obtain rfl := (Write.act.inj same).2.2
          have spent : exhausted current c.now = true := enabled.1
          have single (single : SingleClaim current) :
              SingleClaim (RowAction.apply current (.expire c.workerId c.now)) :=
            single.moved rfl fun _ => by simp [RowAction.apply, expireUpdate]
          have closed : claimable (RowAction.apply current (.expire c.workerId c.now)) c.now =
              false := by simp [RowAction.apply, expireUpdate, claimable]
          rcases held with rfl | ⟨metadata, held, -⟩
          · exact .inr ⟨rfl, fun policy => single (oneShot _ before policy), fun _ => closed⟩
          · exact .inr ⟨metadata, fun policy => single (held policy), fun _ => closed⟩
        · obtain ⟨run, process, same⟩ := Write.act.inj same
          subst same
          have here : head.key = k := Prod.ext run.symm process.symm
          obtain ⟨member, claims, -⟩ := queueHead_some first
          obtain rfl : head = row := Option.some.inj
            ((Table.find?_some.mpr ⟨member, here⟩).symm.trans before)
          have idle : head.status ≠ .running := fun running =>
            untaken ⟨accepted, head, first, here, running⟩
          rcases held with rfl | ⟨-, -, closed⟩
          · refine .inr ⟨rfl, fun policy => (oneShot _ before policy).claimed claims idle, fun _ => ?_⟩
            have later : ¬ c.leaseExpiresAt ≤ c.now := String.not_le.mpr accepted.2.2.1
            simp [RowAction.apply, claimUpdate, claimable, leaseExpired, later]
          · have open' : claimable current c.now = true := enabled.1
            rw [closed claims] at open'
            cases open'
    obtain rfl := Option.some.inj (found.symm.trans found')
    rcases kept with rfl | ⟨metadata, single, -⟩
    · exact oneShot _ before policy
    · exact single (metadata ▸ policy)

/-- The write of a maintenance that found the row running. -/
def Maintains (db : Database) (process : ProcessRow) (w : Write) : Prop :=
  ∃ t output error, (t.runId, t.processId) = process.key ∧
    w = .act process.runId process.id (.transition t output error) ∧ (t.toStatus = .failed ∨ (t.toStatus = .retryWait ∧
      ∃ row, db.processes.find? process.key = some row ∧
        automaticRetryAllowed row.metadata = true))

theorem maintainProcess_settles (process : ProcessRow) (m : Maintenance) (db : Database) :
    (maintainProcess process m).Settles db (Commits (Maintains db process) db) := by
  refine .require fun _ => .afterRead (getProcess_reads _ _) fun current read => .require fun _ => ?_
  obtain ⟨-, found, -⟩ := getProcess_ok.mp read
  have key := Table.find?_key found
  obtain ⟨run, id⟩ : current.runId = process.runId ∧ current.id = process.id :=
    ⟨congrArg Prod.fst key, congrArg Prod.snd key⟩
  split
  · exact .ofReadOnly (.pure _)
  · unfold resolveExpired
    split
    · refine (transitionProcess_settles _ db).imp fun _ commits => commits.imp ?_
      rintro w ⟨output, error, -, -, rfl⟩
      exact ⟨_, output, error, rfl, by rw [run, id], .inl rfl⟩
    · rename_i automatic
      refine .require fun _ => (transitionProcess_settles _ db).imp fun _ commits => commits.imp ?_
      rintro w ⟨output, error, -, -, rfl⟩
      refine ⟨_, output, error, rfl, by rw [run, id], .inr ⟨rfl, current, found, ?_⟩⟩
      simpa using (not_or.mp automatic).2

/-- What every call of the driver keeps. -/
structure Driven (k : String × String) (db : Database) : Prop where
  tallied : Tallied db
  oneShot : OneShot k db

theorem Driven.written {k : String × String} {db db' : Database} {w : Write} (driven : Driven k db)
    (written : Written db w db') (ordinary : w.Ordinary)
    (unretried : ∀ action row, w = .act k.1 k.2 action → Retries action →
      db.processes.find? k = some row → automaticRetryAllowed row.metadata = true)
    (untaken : ∀ c row, w = .act k.1 k.2 (.claim c) → db.processes.find? k = some row →
      row.status ≠ .running) : Driven k db' :=
  ⟨written.tallied ordinary driven.tallied,
    driven.oneShot.written written ordinary unretried untaken⟩

theorem maintainProcess_keeps (process : ProcessRow) (m : Maintenance) (k : String × String) :
    (maintainProcess process m).Keeps (Driven k) := by
  refine .ofSettles fun db driven => (maintainProcess_settles process m db).imp fun db' commits => ?_
  rcases commits with rfl | ⟨w, ⟨t, output, error, -, rfl, target⟩, written⟩
  · exact driven
  · refine driven.written written ?_ (fun action row same retries found => ?_) (by simp)
    · rcases target with target | ⟨target, -⟩ <;>
        simp [Write.Ordinary, RowAction.Ordinary, target]
    · obtain ⟨run, id, rfl⟩ := Write.act.inj same
      have here : process.key = k := Prod.ext run id
      rcases target with target | ⟨-, current, found', allowed⟩
      · exact absurd (target.symm.trans retries) (by decide)
      · rw [here, found] at found'
        exact Option.some.inj found' ▸ allowed

theorem recoverRows_keeps (now due : String) (rows : List ProcessRow) (k : String × String) :
    (recoverRows now due rows).Keeps (Driven k) := by
  induction rows with
  | nil => exact .ofReadOnly (.pure _)
  | cons row rows ih =>
    exact .bind (maintainProcess_keeps _ _ k) fun _ => .bind (.ofReadOnly (.require _ _)) fun _ =>
      .bind ih fun _ => .ofReadOnly (.pure _)

theorem recoverIncompleteProcesses_keeps (workerId now retryAvailableAt : String)
    (k : String × String) :
    (recoverIncompleteProcesses workerId now retryAvailableAt).Keeps (Driven k) :=
  .bind (.ofReadOnly (.require _ _)) fun _ => .bind (.ofReadOnly (.require _ _)) fun _ =>
    .bind (.ofReadOnly (.fetch _)) fun _ => .bind (recoverRows_keeps _ _ _ k) fun _ =>
      .ofReadOnly (.pure _)

theorem retries_transition {call : ProcessCall} {action : RowAction}
    (acts : ActsAs (.process call) action) (retries : Retries action) :
    ∃ t, call = .transitionProcess t := by
  cases acts with
  | transition => exact ⟨_, rfl⟩
  | ready target => exact absurd (target.symm.trans retries) (by decide)
  | _ => exact retries.elim

theorem Driven.process {k : String × String} {call : ProcessCall} {db db' : Database}
    (driven : Driven k db) (does : Does call.Makes db db')
    (claimless : ∀ c, ¬ ActsAs (.process call) (.claim c))
    (unretried : ∀ runId processId action, call.Makes (.act runId processId action) →
      Retries action → (runId, processId) ≠ k) : Driven k db' := by
  refine does.induct driven fun makes written driven => ?_
  refine driven.written written (ProcessCall.ordinary makes) (fun action row same retries _ => ?_)
    fun c row same _ => ?_
  · subst same
    exact absurd rfl (unretried _ _ _ makes retries)
  · subst same
    exact absurd (ProcessCall.makes_act makes) (claimless c)

theorem driverStep_driven (digest : Json → String) {k : String × String} {db : Database}
    (driven : Driven k db) (call : DriverCall × Option Nat)
    (automatic : ¬ call.1.RetriesByHand k) (untaken : ¬ Reclaims k db call.1) :
    Driven k (driverStep digest db call) := by
  obtain ⟨call, faults⟩ := call
  cases call with
  | maintainProcess process m =>
    exact Keeps.bind (maintainProcess_keeps process m k) (fun _ => .ofReadOnly (.pure _))
      ⟨db, faults⟩ driven
  | recoverIncompleteProcesses workerId now retryAvailableAt =>
    exact Keeps.bind (recoverIncompleteProcesses_keeps workerId now retryAvailableAt k)
      (fun _ => .ofReadOnly (.pure _)) ⟨db, faults⟩ driven
  | process call =>
    have consistent := driven.tallied.consistent
    have does : Does call.Makes db (driverStep digest db (.process call, faults)) :=
      step_does digest consistent (.process call, faults)
    have unmoved (same : driverStep digest db (.process call, faults) = db) :
        Driven k (driverStep digest db (.process call, faults)) := same.symm ▸ driven
    cases call with
    | claimProcess runId processId c =>
      rcases (claimProcess_settles runId processId c db).void faults with same | ⟨-, commits⟩
      · exact unmoved same
      rcases commits with same | ⟨w, ⟨accepted, rfl⟩, written⟩
      · exact unmoved same
      refine driven.written written trivial (fun action row same retries _ => ?_)
        fun c row same found running => ?_
      · obtain rfl := (Write.act.inj same).2.2
        exact retries.elim
      · obtain ⟨run, process, action⟩ := Write.act.inj same
        obtain rfl := RowAction.claim.inj action
        have here : (runId, processId) = k := Prod.ext run process
        cases written with
        | act current enabled =>
          obtain rfl := Option.some.inj (current.symm.trans (here ▸ found))
          exact untaken ⟨here, accepted, _, found, running, enabled.1⟩
    | claimNextReady runId allRuns c =>
      rcases (claimNextReady_settles runId allRuns c consistent.manned').void faults with
        same | ⟨-, selects⟩
      · exact unmoved same
      · exact ⟨step_tallied digest driven.tallied (.claimNextReady runId allRuns c, faults),
          driven.oneShot.queue untaken selects⟩
    | transitionProcess t =>
      refine driven.process does (fun c acts => by cases acts) ?_
      rintro runId processId action ⟨output, error, -, -, same⟩ retries here
      obtain ⟨rfl, rfl, rfl⟩ := Write.act.inj same
      exact automatic ⟨retries, here⟩
    | _ =>
      refine driven.process does (fun c acts => by cases acts) fun runId processId action makes retries => ?_
      obtain ⟨t, same⟩ := retries_transition (ProcessCall.makes_act makes) retries
      cases same

theorem Driven.empty (k : String × String) : Driven k .empty :=
  ⟨.empty, fun _ found => nomatch found⟩

/-- A process that forbids automatic retries is claimed at most once in every history without a
    retry by hand in which no claim takes it over from an expired lease. -/
theorem claimed_once (digest : Json → String) (k : String × String)
    (calls : List (DriverCall × Option Nat)) (automatic : ∀ call ∈ calls, ¬ call.1.RetriesByHand k)
    (untaken : Along (driverStep digest) (fun db call => ¬ Reclaims k db call.1) .empty calls)
    (row : ProcessRow) (found : (afterDriving digest calls).processes.find? k = some row)
    (policy : automaticRetryAllowed row.metadata = false) :
    claimsOf (afterDriving digest calls) k ≤ 1 := by
  have driven : Driven k (afterDriving digest calls) :=
    execute_along (I := Driven k) (.empty k)
      (fun db call driven held => driverStep_driven digest driven call held.1 held.2)
      (untaken.each automatic)
  have counted := driven.tallied.counted k
  have single := (driven.oneShot row found policy).bounded
  simp only [found, Option.elim_some] at counted
  omega

/-- A run with one process that forbids automatic retries and may be attempted twice. -/
def unretried : List (DriverCall × Option Nat) :=
  [(.process (.createRun
      { runId := "run", status := "active", metadata := "\x7b\x7d", createdAt := "t0" }), none),
    (.process (.scheduleProcess
      { runId := "run", processId := "work", processType := "manual", createdAt := "t0",
        maxAttempts := 2,
        metadata := .template [("regulation", .template [("retry_policy", .quote "none")])] }), none),
    (.process (.claimProcess "run" "work"
      { workerId := "first", now := "t1", leaseExpiresAt := "t2" }), none)]

theorem claimed_once_held : claimsOf (afterDriving (fun _ => "") unretried) ("run", "work") ≤ 1 := by
  have stored : ∃ row, (afterDriving (fun _ => "") unretried).processes.find? ("run", "work") =
      some row ∧ automaticRetryAllowed row.metadata = false := by decide +kernel
  have idle : ((afterDriving (fun _ => "") (unretried.take 2)).processes.find? ("run", "work")).any
      (fun row => row.status = .running) = false := by decide +kernel
  obtain ⟨row, found, policy⟩ := stored
  refine claimed_once (fun _ => "") ("run", "work") unretried
    (by simp [unretried, DriverCall.RetriesByHand]) ⟨id, id, ?_, trivial⟩ row found policy
  rintro ⟨-, -, current, held, running, -⟩
  have idle : (Option.some current).any (fun row => row.status = .running) = false := held ▸ idle
  simp [running] at idle

/-- A second worker claims the process once the lease of the first has expired. -/
def takenOver : List (DriverCall × Option Nat) :=
  unretried ++ [(.process (.claimProcess "run" "work"
    { workerId := "second", now := "t3", leaseExpiresAt := "t9" }), none)]

/-- Claims alone execute a process twice that forbids automatic retries. -/
theorem claimed_twice :
    ¬ ∀ (k : String × String) (calls : List (DriverCall × Option Nat)),
      (∀ call ∈ calls, ¬ call.1.RetriesByHand k) →
        ∀ row, (afterDriving (fun _ => "") calls).processes.find? k = some row →
          automaticRetryAllowed row.metadata = false →
            claimsOf (afterDriving (fun _ => "") calls) k ≤ 1 := by
  intro once
  have twice : claimsOf (afterDriving (fun _ => "") takenOver) ("run", "work") = 2 ∧
      ∃ row, (afterDriving (fun _ => "") takenOver).processes.find? ("run", "work") = some row ∧
        automaticRetryAllowed row.metadata = false := by decide +kernel
  obtain ⟨counted, row, found, policy⟩ := twice
  have := once ("run", "work") takenOver
    (by simp [takenOver, unretried, DriverCall.RetriesByHand]) row found policy
  omega

end Fala.Driver
