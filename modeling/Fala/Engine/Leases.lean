import Fala.Engine.Actions

/-! Leases over every history of calls. -/

namespace Fala
open Durable Program Journal

namespace Call

/-- The actor that a call names, where the call may move a leased row. -/
def actor : Call → String
  | process (.claimProcess _ _ c) | process (.claimNextReady _ _ c) => c.workerId
  | process (.transitionProcess t) => t.transition.actor
  | process (.parkHomeostatProcess p) => p.actor
  | process (.transitionHomeostatProcess t) => t.actor
  | process (.reopenHomeostatProcess r) => r.actor
  | process (.applyCorrelationChildren c _) => c.actor
  | record (.transitionProcessWithCommand t) => t.command.actor
  | _ => ""

/-- The output that a call submits for a process. -/
def output : Call → Text
  | process (.transitionProcess t) => t.transition.outputJson
  | process (.parkHomeostatProcess p) => p.outputJson
  | process (.transitionHomeostatProcess t) => t.outputJson
  | record (.transitionProcessWithCommand t) => t.outputJson
  | _ => .empty

/-- A claim at whose time the lease of the row has expired. -/
def FindsExpired (row : ProcessRow) : Call → Prop
  | process (.claimProcess _ _ c) | process (.claimNextReady _ _ c) => leaseExpired row c.now = true
  | _ => False

/-- `wait_process` looks at the lease of no one. -/
def Waits : Call → Prop
  | process (.transitionProcess t) => t.transition.toStatus = .waiting
  | _ => False

end Call

/-- What a call may make of a running row. -/
structure LeaseHeld (call : Call) (row new : ProcessRow) : Prop where
  completed : new.status = .succeeded →
    call.actor = row.leaseOwner ∧ call.output.canonical = some new.outputJson
  retried : new.status = .retryWait → call.actor = row.leaseOwner
  failed : new.status = .failed → call.actor = row.leaseOwner ∨ call.FindsExpired row
  parked : new.status = .waiting → call.actor = row.leaseOwner ∨ call.Waits
  taken : new.status = .running → new = row ∨ call.FindsExpired row

theorem LeaseHeld.unmoved (call : Call) {row : ProcessRow} (running : row.status = .running) :
    LeaseHeld call row row := by
  constructor <;> simp [running]

theorem LeaseHeld.expired {call : Call} {row new : ProcessRow} (expired : call.FindsExpired row)
    (moved : new.status = .running ∨ new.status = .failed) : LeaseHeld call row new := by
  rcases moved with same | same <;> constructor <;> simp [same, expired]

theorem claimable_expired {row : ProcessRow} {now : String} (claims : claimable row now = true)
    (running : row.status = .running) : leaseExpired row now = true := by
  obtain ⟨-, ready | ⟨retry, -⟩ | ⟨-, expired⟩⟩ := of_decide_eq_true claims
  · simp [running] at ready
  · simp [running] at retry
  · exact expired

theorem exhausted_expired {row : ProcessRow} {now : String} (spent : exhausted row now = true) :
    leaseExpired row now = true := (of_decide_eq_true spent).2.1

theorem LeaseHeld.act {call : Call} {action : RowAction} {row : ProcessRow}
    (acts : ActsAs call action) (enabled : action.Enabled row) (running : row.status = .running)
    (leased : row.leaseOwner ≠ "") : LeaseHeld call row (action.apply row) := by
  cases acts with
  | claimProcess =>
    exact .expired (claimable_expired enabled.1 running) (.inl rfl)
  | claimNextReady =>
    exact .expired (claimable_expired enabled.1 running) (.inl rfl)
  | expire => exact .expired (exhausted_expired enabled.1) (.inr rfl)
  | @transition t output error printed =>
    have owner : t.transition.checksOwner = true → t.transition.actor = row.leaseOwner :=
      fun checks => ((enabled.2.2.2 checks).resolve_left leased).symm
    refine ⟨fun target => ⟨owner ?_, ?_⟩, fun target => owner ?_, fun target => .inl (owner ?_),
      .inr, fun target => absurd target t.toStatus.2.2⟩
    · exact decide_eq_true (.inl target)
    · have target : t.transition.toStatus = .succeeded := target
      simp [RowAction.apply, ProcessTransition.update, ProcessTransition.storedOutput, target,
        Call.output, printed]
    · exact decide_eq_true (.inr (.inr target))
    · exact decide_eq_true (.inr (.inl target))
  | ready target silent =>
    have pending := (CommandTransition.guard_ok enabled.2.2).2.1 target
    simp [running] at pending
  | @command t output error printed =>
    obtain ⟨-, expected, guarded⟩ := enabled
    have owner : t.command.actor = row.leaseOwner := by
      obtain ⟨-, ready, -, pending | running' | ready' | free | owned⟩ := t.guard_ok guarded
      · simp [pending, expectedCommandType] at expected
      · simp [running', expectedCommandType] at expected
      · exact absurd (ready ready') (by simp [running])
      · exact absurd free leased
      · exact owned.symm
    refine ⟨fun target => ⟨owner, ?_⟩, fun _ => owner, fun _ => .inl owner, fun _ => .inl owner,
      fun target => ?_⟩
    · have target : t.target = .succeeded := target
      simp [RowAction.apply, CommandTransition.update, target, Call.output, printed]
    · have target : t.target = .running := target
      simp [target, expectedCommandType] at expected
  | park =>
    constructor <;> simp [RowAction.apply, HomeostatPark.update, Call.actor, enabled.2.2]
  | resolve => simp [RowAction.Enabled, running] at enabled
  | reopen => simp [RowAction.Enabled, running] at enabled
  | promote => simp [RowAction.Enabled, running] at enabled

theorem LeaseHeld.batch {call : Call} {db db' : Database} (batch : call.Batch)
    (does : Does call.Makes db db') {k : String × String} {row : ProcessRow}
    (found : db.processes.find? k = some row) (running : row.status = .running) :
    ∃ new, db'.processes.find? k = some new ∧ LeaseHeld call row new := by
  let Q (new : ProcessRow) : Prop :=
    new = row ∨ (call.FindsExpired row ∧ (new.status = .running ∨ new.status = .failed))
  obtain ⟨new, found', kept | ⟨expired, moved⟩⟩ := does.row (Q := Q) found (.inl rfl)
    fun current action makes enabled held => by
      have acts := Call.makes_act makes
      cases acts with
      | claimNextReady =>
        refine .inr ⟨?_, .inl rfl⟩
        rcases held with rfl | held
        · exact claimable_expired enabled.1 running
        · exact held.1
      | expire =>
        refine .inr ⟨?_, .inr rfl⟩
        rcases held with rfl | held
        · exact exhausted_expired enabled.1
        · exact held.1
      | promote =>
        have pending : current.status = .pending := enabled
        rcases held with rfl | ⟨-, moved⟩
        · simp [running] at pending
        · simp [pending] at moved
      | _ => exact batch.elim
  · subst kept
    exact ⟨new, found', .unmoved call running⟩
  · exact ⟨new, found', .expired expired moved⟩

/-- The event that records the claim a running row is under. -/
structure ClaimRecord (row : ProcessRow) (e : EventRow) : Prop where
  claim : isClaimOf row.key e = true
  worker : e.actor = row.leaseOwner
  attempt : processAttemptFromPayload e.payload (-1) = row.attempt
  lease : processLeaseFromPayload e.payload "" = row.leaseExpiresAt

/-- A row is running under the lease of a worker whose claim is on record. -/
def Leased (db : Database) : Prop :=
  ∀ k row, db.processes.find? k = some row → row.status = .running →
    row.leaseOwner ≠ "" ∧ ∃ e ∈ db.events.rows, ClaimRecord row e

theorem ActsAs.running {call : Call} {action : RowAction} {row : ProcessRow}
    (acts : ActsAs call action) (enabled : action.Enabled row)
    (running : (action.apply row).status = .running) : ∃ c, action = .claim c := by
  cases acts with
  | claimProcess | claimNextReady => exact ⟨_, rfl⟩
  | @transition t => exact absurd running t.toStatus.2.2
  | ready target => exact absurd (target.symm.trans running) (by decide)
  | @command t =>
    have target : t.target = .running := running
    simp [RowAction.Enabled, target, expectedCommandType] at enabled
  | @resolve t =>
    obtain ⟨-, -, -, -, target⟩ := enabled
    have running : t.processStatus = .running := running
    simp [running] at target
  | _ => cases running

theorem claimRecord_event (c : ClaimRequest) (row : ProcessRow) (commandId : String)
    (sequence : Nat) :
    ClaimRecord (claimUpdate c.workerId c.now c.leaseExpiresAt row)
      ((c.event (claimUpdate c.workerId c.now c.leaseExpiresAt row)).row row.runId commandId
        sequence) where
  claim := by simp [isClaimOf, EventInput.row, ClaimRequest.event, ProcessRow.key, claimUpdate]
  worker := rfl
  attempt := rfl
  lease := rfl

theorem Call.makes_schedule {call : Call} {row : ProcessRow} {commands : List CommandRow}
    {events : List (String × EventInput)} (makes : call.Makes (.schedule row commands events)) :
    row.status = .pending ∨ row.status = .ready := by
  cases call with
  | process c =>
    cases c with
    | scheduleProcess s => obtain ⟨-, _, _, _, -, same⟩ := makes; cases same; exact .inr rfl
    | createRun => cases makes
    | claimProcess => cases makes
    | claimNextReady => obtain ⟨_, _, -, same⟩ | ⟨_, _, -, same⟩ := makes <;> cases same
    | transitionProcess => obtain ⟨_, _, -, -, same⟩ := makes; cases same
    | advanceCorrelationReady => obtain ⟨_, _, _, -, -, same⟩ := makes; cases same
    | applyCorrelationChildren => obtain ⟨_, -, same⟩ := makes; cases same
    | parkHomeostatProcess => obtain ⟨_, _, same⟩ := makes; cases same
    | transitionHomeostatProcess => obtain ⟨_, _, -, same⟩ := makes; cases same
    | reopenHomeostatProcess => obtain ⟨_, same⟩ := makes; cases same
  | record c =>
    cases c with
    | scheduleProcessWithCommand process =>
      obtain ⟨-, opening, _, _, _, same⟩ := makes
      cases same
      exact opening
    | transitionProcessWithCommand => obtain ⟨_, _, -, -, same⟩ := makes; cases same
    | _ => cases makes
  | lifecycle c => cases c <;> cases makes
  | store c => obtain ⟨_, _, _, same⟩ := c.makes_record makes; cases same
  | bridge c => obtain ⟨_, _, _, same⟩ := c.makes_record makes; cases same

theorem Leased.written {db db' : Database} {w : Write} {call : Call} (leased : Leased db)
    (makes : call.Makes w) (written : Written db w db') : Leased db' := by
  have events := written.logged.told.extends.subset
  have kept {row : ProcessRow}
      (held : row.leaseOwner ≠ "" ∧ ∃ e ∈ db.events.rows, ClaimRecord row e) :
      row.leaseOwner ≠ "" ∧ ∃ e ∈ db'.events.rows, ClaimRecord row e := by
    obtain ⟨named, e, member, record⟩ := held
    exact ⟨named, e, events member, record⟩
  intro k row found running
  cases written with
  | record processes logged => exact kept (leased k row (processes ▸ found) running)
  | schedule inserted logged =>
    rw [Table.find?_insert inserted] at found
    split at found
    · cases found
      rcases Call.makes_schedule makes with same | same <;> simp [running] at same
    · exact kept (leased k row found running)
  | @act runId processId action old _ current enabled processes logged =>
    rw [processes] at found
    split at found
    · cases found
      obtain ⟨c, rfl⟩ := (Call.makes_act makes).running enabled running
      obtain ⟨sequence, member⟩ := logged.told.present _ List.mem_cons_self
      have key := Table.find?_key current
      obtain rfl : old.runId = runId := congrArg Prod.fst key
      exact ⟨enabled.2.1, _, member, claimRecord_event c old _ sequence⟩
    · exact kept (leased k row found running)

theorem after_leased (digest : Json → String) (calls : List (Call × Option Nat)) :
    Leased (after digest calls) :=
  (execute_induction (I := fun db => Consistent db ∧ Leased db) ⟨.empty, fun _ _ found => nomatch found⟩
    (fun _ call held => ⟨step_consistent digest held.1 call,
      (step_does digest held.1 call).induct held.2 fun makes written leased =>
        leased.written makes written⟩) calls).2

/-- In every history, a running row is under the lease of the worker whose claim is on record, and
    what the next call makes of it is that worker's to do, or finds the lease expired. -/
theorem lease_safety (digest : Json → String) (calls : List (Call × Option Nat))
    (call : Call × Option Nat) (row : ProcessRow)
    (member : row ∈ (after digest calls).processes.rows) (running : row.status = .running) :
    (∃ e ∈ (after digest calls).events.rows, ClaimRecord row e) ∧
      ∃ new ∈ (after digest (calls ++ [call])).processes.rows,
        new.key = row.key ∧ LeaseHeld call.1 row new := by
  have consistent := after_consistent digest calls
  have found : (after digest calls).processes.find? row.key = some row :=
    Table.find?_some.mpr ⟨member, rfl⟩
  obtain ⟨named, record⟩ := after_leased digest calls _ row found running
  refine ⟨record, ?_⟩
  rw [after_append]
  suffices held : ∃ new, (step digest (after digest calls) call).processes.find? row.key = some new ∧
      LeaseHeld call.1 row new by
    obtain ⟨new, found', held⟩ := held
    obtain ⟨member', key⟩ := Table.find?_some.mp found'
    exact ⟨new, member', key, held⟩
  by_cases batch : call.1.Batch
  · exact LeaseHeld.batch batch (step_does digest consistent call) found running
  · rcases step_row digest consistent call batch found with kept | ⟨action, acts, enabled, moved⟩
    · exact ⟨row, kept, .unmoved call.1 running⟩
    · exact ⟨_, moved, .act acts enabled running named⟩

/-- A run with one process, claimed by a worker. -/
def claimedRun : List (Call × Option Nat) :=
  [(.process (.createRun
      { runId := "run", status := "active", metadata := "\x7b\x7d", createdAt := "t0" }), none),
    (.process (.scheduleProcess
      { runId := "run", processId := "work", processType := "manual", createdAt := "t0" }), none),
    (.process (.claimProcess "run" "work"
      { workerId := "worker", now := "t1", leaseExpiresAt := "t5" }), none)]

theorem lease_safety_claimed :
    ∃ row ∈ (after (fun _ => "") claimedRun).processes.rows, row.status = .running ∧
      (∃ e ∈ (after (fun _ => "") claimedRun).events.rows, ClaimRecord row e) ∧
      ∃ new ∈ (after (fun _ => "") (claimedRun ++
          [(.process (.transitionProcess (.failProcess "run" "work" "worker" "t2" .braces)),
            none)])).processes.rows,
        new.key = row.key ∧ LeaseHeld
          (.process (.transitionProcess (.failProcess "run" "work" "worker" "t2" .braces))) row new := by
  have running : ∃ row ∈ (after (fun _ => "") claimedRun).processes.rows,
      row.status = .running := by decide +kernel
  obtain ⟨row, member, running⟩ := running
  exact ⟨row, member, running, lease_safety (fun _ => "") claimedRun
    (.process (.transitionProcess (.failProcess "run" "work" "worker" "t2" .braces)), none)
    row member running⟩

/-- The worker parks its process at a homeostat. -/
def parkedRun : List (Call × Option Nat) :=
  claimedRun ++ [(.process (.parkHomeostatProcess
    { runId := "run", homeostatId := "gate", processId := "work", actor := "worker", at_ := "t2" }),
    none)]

/-- An operator completes the homeostat with an output of its own. -/
def approval : Call :=
  .process (.transitionHomeostatProcess
    { runId := "run", homeostatId := "gate", processId := "work", homeostatStatus := "completed",
      processStatus := .succeeded, actor := "operator", at_ := "t3",
      outputJson := .quote "approved" })

/-- The output recorded for an attempt need not be one that its claimant submitted: whoever
    completes the homeostat of a parked process submits it. -/
theorem output_of_operator :
    ¬ ∀ (calls : List (Call × Option Nat)) (call : Call × Option Nat),
      ∀ row ∈ (after (fun _ => "") calls).processes.rows,
      ∀ new ∈ (after (fun _ => "") (calls ++ [call])).processes.rows,
        new.key = row.key → new.attempt = row.attempt → new.outputJson ≠ row.outputJson →
          ∀ e ∈ (after (fun _ => "") (calls ++ [call])).events.rows,
            isClaimOf new.key e = true →
              processAttemptFromPayload e.payload (-1) = new.attempt → e.actor = call.1.actor := by
  intro claimants
  have submitted : ∃ row ∈ (after (fun _ => "") parkedRun).processes.rows,
      ∃ new ∈ (after (fun _ => "") (parkedRun ++ [(approval, none)])).processes.rows,
        new.key = row.key ∧ new.attempt = row.attempt ∧ new.outputJson ≠ row.outputJson ∧
          ∃ e ∈ (after (fun _ => "") (parkedRun ++ [(approval, none)])).events.rows,
            isClaimOf new.key e = true ∧
              processAttemptFromPayload e.payload (-1) = new.attempt ∧
                e.actor ≠ approval.actor := by decide +kernel
  obtain ⟨row, member, new, member', key, attempt, output, e, stored, claim, claimed, other⟩ :=
    submitted
  exact other (claimants parkedRun (approval, none) row member new member' key attempt output e
    stored claim claimed)

end Fala
