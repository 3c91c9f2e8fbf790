import Fala.Journal.Consistency

/-! The columns of a process row that every action keeps in step with its status. -/

namespace Fala.Journal
open Durable

/-- The lease and the finish time of a row go with its status, and its attempts are bounded. -/
structure RowFit (row : ProcessRow) : Prop where
  owned : row.status = .running ↔ row.leaseOwner ≠ ""
  expiring : row.status = .running ↔ row.leaseExpiresAt ≠ ""
  finished : row.status.isTerminal = true ↔ row.finishedAt ≠ ""
  bounded : 0 ≤ row.attempt ∧ row.attempt ≤ row.maxAttempts

theorem RowFit.unleased {row : ProcessRow} (fit : RowFit row) (idle : row.status ≠ .running) :
    row.leaseOwner = "" ∧ row.leaseExpiresAt = "" := by
  refine ⟨?_, ?_⟩
  · simpa using mt fit.owned.mpr idle
  · simpa using mt fit.expiring.mpr idle

theorem RowFit.unfinished {row : ProcessRow} (fit : RowFit row)
    (open' : row.status.isTerminal = false) : row.finishedAt = "" := by
  have := mt fit.finished.mpr (by simp [open'])
  simpa using this

theorem RowFit.idle {row : ProcessRow} (idle : row.status ≠ .running)
    (owner : row.leaseOwner = "") (expiry : row.leaseExpiresAt = "")
    (finished : row.status.isTerminal = true ↔ row.finishedAt ≠ "")
    (bounded : 0 ≤ row.attempt ∧ row.attempt ≤ row.maxAttempts) : RowFit row where
  owned := by simp [idle, owner]
  expiring := by simp [idle, expiry]
  finished := finished
  bounded := bounded

theorem claimable_open {row : ProcessRow} {now : String} (claims : claimable row now = true) :
    row.status.isTerminal = false ∧ row.attempt < row.maxAttempts := by
  obtain ⟨left, ready | ⟨retry, -⟩ | ⟨running, -⟩⟩ := of_decide_eq_true claims
  · exact ⟨by rw [ready]; rfl, left⟩
  · exact ⟨by rw [retry]; rfl, left⟩
  · exact ⟨by rw [running]; rfl, left⟩

theorem exhausted_running {row : ProcessRow} {now : String} (spent : exhausted row now = true) :
    row.status = .running := (of_decide_eq_true spent).1

theorem ProcessTransition.legal_open {t : ProcessTransition} {row : ProcessRow}
    (legal : t.legal row = true) :
    row.status.isTerminal = false ∨
      (t.toStatus = .retryWait ∧ row.status = .failed ∧ row.attempt < row.maxAttempts) := by
  unfold ProcessTransition.legal at legal
  split at legal
  · rename_i retry
    exact .inr ⟨retry.1, retry.2, (of_decide_eq_true legal).2⟩
  · exact .inl (canTransitionProcess_terminal legal)

/-- What the guard of a caller-commanded transition has checked: the row is open, or a failed
    one is retried; and unless it becomes ready, it is unowned or owned by the actor. -/
theorem CommandTransition.guard_ok {t : CommandTransition} {row : ProcessRow}
    (guarded : t.guard row = .ok ()) :
    (row.status.isTerminal = false ∨
      (t.target = .retryWait ∧ row.status = .failed ∧ row.attempt < row.maxAttempts)) ∧
    (t.target = .ready → row.status = .pending) ∧
    (t.target = .retryWait → row.attempt < row.maxAttempts) ∧
    (t.target = .pending ∨ t.target = .running ∨ t.target = .ready ∨ row.leaseOwner = "" ∨
      row.leaseOwner = t.command.actor) := by
  unfold CommandTransition.guard at guarded
  cases target : t.target <;>
    simp only [target, Schema.ensure_ok, Schema.ensure_bind_ok, decide_eq_true_eq] at guarded
  case pending | running => simp [guarded]
  case ready => simp [guarded, ProcessStatus.isTerminal]
  case succeeded | failed =>
    obtain ⟨running | waiting, owned⟩ := guarded
    · simp [running, owned, ProcessStatus.isTerminal]
    · simp [waiting, owned, ProcessStatus.isTerminal]
  case waiting => simp [guarded, ProcessStatus.isTerminal]
  case retryWait =>
    obtain ⟨running | failed, owned, left⟩ := guarded
    · simp [running, owned, left, ProcessStatus.isTerminal]
    · simp [failed, owned, left]
  case cancelRequested | skipped | cancelled | timedOut =>
    simp [canTransitionProcess_terminal guarded.1, guarded.2]

namespace RowAction

/-- An action that leaves claiming to the claims: it names no status that opens a row, and no
    event that records a claim. -/
def Ordinary : RowAction → Prop
  | .transition t _ _ => t.toStatus ≠ .pending ∧ t.toStatus ≠ .ready ∧ t.toStatus ≠ .running
  | .command t _ _ => ∀ event ∈ t.events, event.eventType ≠ "process.claimed"
  | _ => True

theorem finished_of_target {target : ProcessStatus} {at_ finishedAt : String} (timed : at_ ≠ "")
    (unfinished : target ≠ .retryWait → target.isTerminal = false → finishedAt = "") :
    target.isTerminal = true ↔
      (if target = .retryWait then "" else if target.isTerminal then at_ else finishedAt) ≠ "" := by
  by_cases retry : target = .retryWait
  · simp [retry, ProcessStatus.isTerminal]
  · cases terminal : target.isTerminal with
    | true => simp [retry, timed]
    | false => simp [retry, unfinished retry terminal]

theorem key_apply (old : ProcessRow) (action : RowAction) : (action.apply old).key = old.key := by
  cases action <;> rfl

theorem fit {old : ProcessRow} {action : RowAction} (enabled : action.Enabled old)
    (ordinary : action.Ordinary) (fit : RowFit old) : RowFit (action.apply old) := by
  cases action with
  | claim c =>
    obtain ⟨claims, worker, lease⟩ := enabled
    obtain ⟨open', left⟩ := claimable_open claims
    refine ⟨by simp [apply, claimUpdate, worker], by simp [apply, claimUpdate, lease], ?_, ?_⟩
    · simp [apply, claimUpdate, fit.unfinished open', ProcessStatus.isTerminal]
    · have := fit.bounded
      simp only [apply, claimUpdate]
      omega
  | expire workerId now =>
    exact .idle (by simp [apply, expireUpdate]) rfl rfl
      (by simp [apply, expireUpdate, ProcessStatus.isTerminal, enabled.2]) fit.bounded
  | transition t output error =>
    obtain ⟨timed, legal, -, -⟩ := enabled
    refine .idle ordinary.2.2 rfl rfl (finished_of_target timed fun retry _ => ?_) fit.bounded
    rcases t.legal_open legal with open' | ⟨retried, -⟩
    · exact fit.unfinished open'
    · exact absurd retried retry
  | command t output error =>
    obtain ⟨timed, expected, guarded⟩ := enabled
    have running : t.target ≠ .running := fun running => by simp [running, expectedCommandType] at expected
    refine .idle running rfl rfl (finished_of_target timed fun retry _ => ?_) fit.bounded
    rcases (t.guard_ok guarded).1 with open' | ⟨retried, -⟩
    · exact fit.unfinished open'
    · exact absurd retried retry
  | park p output metadata =>
    exact .idle (by simp [apply, HomeostatPark.update]) rfl rfl
      (by simp [apply, HomeostatPark.update, ProcessStatus.isTerminal]) fit.bounded
  | resolve t output error =>
    obtain ⟨timed, -, owner, expiry, target⟩ := enabled
    refine .idle ?_ owner expiry ?_ fit.bounded
    · rcases target with same | same | same <;> simp [apply, HomeostatTransition.update, same]
    · rcases target with same | same | same <;>
        simp [apply, HomeostatTransition.update, same, timed, ProcessStatus.isTerminal]
  | reopen r homeostat =>
    exact .idle (by simp [apply, HomeostatReopen.update]) rfl rfl
      (by simp [apply, HomeostatReopen.update, ProcessStatus.isTerminal]) fit.bounded
  | promote c child =>
    have idle : old.status ≠ .running := by rw [show old.status = .pending from enabled]; decide
    have open' : old.status.isTerminal = false := by rw [show old.status = .pending from enabled]; rfl
    refine .idle (by simp [apply, ChildrenCall.update]) (fit.unleased idle).1 (fit.unleased idle).2
      ?_ fit.bounded
    simp [apply, ChildrenCall.update, fit.unfinished open', ProcessStatus.isTerminal]

/-- The actions that take a row out of a terminal status. -/
def Revives (old : ProcessRow) : RowAction → Prop
  | .transition t _ _ =>
    t.toStatus = .retryWait ∧ old.status = .failed ∧ old.attempt < old.maxAttempts
  | .command t _ _ =>
    t.target = .retryWait ∧ old.status = .failed ∧ old.attempt < old.maxAttempts
  | .reopen _ _ => old.status = .succeeded ∨ old.status = .cancelled ∨ old.status = .timedOut
  | _ => False

theorem enabled_terminal {old : ProcessRow} {action : RowAction} (enabled : action.Enabled old)
    (terminal : old.status.isTerminal = true) : action.Revives old := by
  cases action with
  | claim c => simp [(claimable_open enabled.1).1] at terminal
  | expire workerId now =>
    simp [exhausted_running enabled.1, ProcessStatus.isTerminal] at terminal
  | transition t output error => exact (t.legal_open enabled.2.1).resolve_left (by simp [terminal])
  | command t output error =>
    exact (t.guard_ok enabled.2.2).1.resolve_left (by simp [terminal])
  | park p output metadata => simp [enabled.2.1, ProcessStatus.isTerminal] at terminal
  | resolve t output error => simp [enabled.2.1, ProcessStatus.isTerminal] at terminal
  | reopen r homeostat => exact enabled.1
  | promote c child => simp [show old.status = .pending from enabled, ProcessStatus.isTerminal] at terminal

end RowAction
/-- The `process.claimed` events recorded for a process. -/
def isClaimOf (k : String × String) (e : EventRow) : Bool :=
  e.eventType = "process.claimed" ∧ (e.runId, e.processId) = k

def claimsOf (db : Database) (k : String × String) : Nat := db.events.rows.countP (isClaimOf k)

/-- None of the events of a write is a claim. -/
def Unclaimed (events : List (String × EventInput)) : Prop :=
  ∀ entry ∈ events, entry.2.eventType ≠ "process.claimed"

theorem EventsStored.claims {commands : List CommandRow} {runId : String}
    {events : List (String × EventInput)} {rows after : List EventRow}
    (told : EventsStored commands runId events rows after) (unclaimed : Unclaimed events)
    (k : String × String) : after.countP (isClaimOf k) = rows.countP (isClaimOf k) := by
  induction told with
  | nil => rfl
  | cons first _ ih =>
    rw [ih fun entry member => unclaimed entry (.tail _ member)]
    cases first with
    | replayed => rfl
    | appended =>
      have other := unclaimed _ List.mem_cons_self
      simp only at other
      simp [List.countP_append, isClaimOf, EventInput.row, other]

theorem Logged.told_fresh {db db' : Database} {runId : String} {command : CommandRow}
    {event : EventInput} (logged : Logged db runId [command] [(command.id, event)] db')
    (consistent : Consistent db) (here : command.runId = runId) (named : command.id ≠ "") :
    db'.events.rows = db.events.rows ++ [event.row runId command.id
      (nextSequence EventRow.runId EventRow.sequence db.events.rows runId)] := by
  obtain ⟨-, -, stored, told⟩ := logged
  generalize db'.events.rows = after at told ⊢
  cases told with
  | cons first later =>
    cases later
    cases first with
    | appended => rfl
    | replayed sequence member =>
      have distinct := db'.commands.primaryDistinct
      rw [stored, List.map_append, List.nodup_append] at distinct
      have recorded := (consistent.referenced _ member).resolve_left named
      subst here
      exact absurd rfl (distinct.2.2 _ recorded command.key (by simp))

namespace RowAction

theorem unclaimed {old : ProcessRow} {action : RowAction} (enabled : action.Enabled old)
    (ordinary : action.Ordinary) (other : ∀ c, action ≠ .claim c) : Unclaimed (action.events old) := by
  cases action with
  | claim c => exact absurd rfl (other c)
  | expire workerId now => simp [Unclaimed, events, expireEvent]
  | transition t output error =>
    obtain ⟨pending, ready, running⟩ := ordinary
    cases target : t.toStatus <;>
      simp [Unclaimed, events, ProcessTransition.event, transitionEventType, target]
  | command t output error =>
    simpa [Unclaimed, events, EventInput.inherit, Ordinary] using ordinary
  | park p output metadata => simp [Unclaimed, events, HomeostatPark.event]
  | resolve t output error =>
    obtain ⟨-, -, -, -, target⟩ := enabled
    have homeostat : "homeostat." ++ t.homeostatStatus ≠ "process.claimed" := fun same => by
      simpa using congrArg String.toList same
    rcases target with same | same | same <;>
      simp [Unclaimed, events, HomeostatTransition.event, homeostat, same, ProcessStatus.value]
  | reopen r homeostat => simp [Unclaimed, events, HomeostatReopen.event]
  | promote c child => simp [Unclaimed, events, ChildrenCall.event]

end RowAction
/-- A write that leaves claiming to the claims; what it schedules was never claimed. -/
def Write.Ordinary : Write → Prop
  | .record _ _ events => Unclaimed events
  | .schedule row _ events => RowFit row ∧ row.attempt = 0 ∧ Unclaimed events
  | .act _ _ action => action.Ordinary

/-- Every row keeps its columns in step, and its attempts are the claims on record. -/
structure Tallied (db : Database) : Prop where
  consistent : Consistent db
  fit : ∀ k p, db.processes.find? k = some p → RowFit p
  counted : ∀ k, (db.processes.find? k).elim 0 ProcessRow.attempt = claimsOf db k

theorem Tallied.empty : Tallied .empty where
  consistent := .empty
  fit _ _ found := nomatch found
  counted _ := rfl

theorem ClaimRequest.commandId_ne (c : ClaimRequest) (row : ProcessRow) : c.commandId row ≠ "" := by
  unfold ClaimRequest.commandId
  split
  · assumption
  · intro same
    simpa using congrArg String.toList same

theorem claim_counted {db db' : Database} {k : String × String} {c : ClaimRequest}
    {old : ProcessRow} (consistent : Consistent db) (here : old.key = k)
    (logged : Logged db k.1 ((RowAction.claim c).commands old) ((RowAction.claim c).events old) db')
    (other : String × String) :
    claimsOf db' other = claimsOf db other + if other = k then 1 else 0 := by
  subst here
  let row := claimUpdate c.workerId c.now c.leaseExpiresAt old
  have same : row.id = old.id := rfl
  have logged : Logged db old.runId [c.command row] [((c.command row).id, c.event row)] db' := logged
  have told := logged.told_fresh consistent rfl (c.commandId_ne _)
  rw [claimsOf, told, List.countP_append, List.countP_singleton]
  congr 2
  simp [isClaimOf, EventInput.row, ClaimRequest.event, same, ProcessRow.key, eq_comm (a := other)]

theorem Written.tallied {db db' : Database} {w : Write} (written : Written db w db')
    (ordinary : w.Ordinary) (tallied : Tallied db) : Tallied db' := by
  refine ⟨written.consistent tallied.consistent, ?_, ?_⟩
  · intro k p found
    cases written with
    | record processes logged => exact tallied.fit k p (processes ▸ found)
    | schedule inserted logged =>
      rw [Table.find?_insert inserted] at found
      split at found
      · cases found
        exact ordinary.1
      · exact tallied.fit k p found
    | act current enabled processes logged =>
      rw [processes] at found
      split at found
      · cases found
        exact RowAction.fit enabled ordinary (tallied.fit _ _ current)
      · exact tallied.fit k p found
  · intro k
    cases written with
    | record processes logged =>
      rw [processes, tallied.counted, claimsOf, claimsOf, logged.told.claims ordinary]
    | @schedule row _ _ _ inserted logged =>
      obtain ⟨-, unclaimed, events⟩ := ordinary
      rw [Table.find?_insert inserted, claimsOf, logged.told.claims events, ← claimsOf,
        ← tallied.counted]
      split
      · rename_i same
        rw [← same, (Table.insert?_some.mp inserted).1]
        exact unclaimed
      · rfl
    | @act runId processId action old _ current enabled processes logged =>
      have counted := tallied.counted k
      rw [processes]
      cases action with
      | claim c =>
        rw [claim_counted tallied.consistent (Table.find?_key current) logged]
        split
        · rename_i same
          subst same
          rw [current] at counted
          exact congrArg (· + 1) counted
        · simpa using counted
      | _ =>
        rw [claimsOf, logged.told.claims (RowAction.unclaimed enabled ordinary (by simp)), ← claimsOf,
          ← counted]
        split
        · rename_i same
          rw [same, current]
          rfl
        · rfl

end Fala.Journal
