import Fala.Host.Safety

/-! Histories in which the host and the journal take turns. -/

namespace Fala.Host
open Durable Journal Program

theorem runStatus_known {status : String} (terminal : terminalRun status = true) :
    (RunStatus.ofValue status).isKnown = true := by
  unfold terminalRun at terminal
  cases h : RunStatus.ofValue status <;> simp_all [RunStatus.isKnown, RunStatus.isTerminal]

theorem waiting_ends {c : Completion} {status : ProcessStatus}
    (named : processStatus c.processStatus = some status)
    (expected : c.expectedProcess = c.processStatus) :
    canTransitionProcess .waiting status = true := by
  rw [← expected] at named
  unfold Completion.expectedProcess at named
  split at named
  · cases named
    rfl
  · split at named <;> cases named <;> rfl

namespace HostCall

/-- What a call must find for the state machines to allow all that it writes. -/
def Legal : HostCall → Database → Prop
  | completeWaitingProcess c, db => c.Legal db
  | recordProcessFinish f, db => f.Legal db
  | _, _ => True

theorem rollsBack (json : HostJson) (call : HostCall) (db : Database) :
    (call.program json).RollsBack db := by
  cases call with
  | upsertRunMetadata u => exact .require (.require (.transact _ _))
  | transitionRun m => exact .require (.require (.transact _ _))
  | upsertProcess u =>
    refine .require (.require (.require (.require ?_)))
    cases processStatus u.status with
    | none => exact .raise _
    | some status => exact .transact _ _
  | completeWaitingProcess c =>
    refine .void (.require (.require ?_))
    cases (processStatus c.processStatus).filter ProcessStatus.isTerminal with
    | none => exact .raise _
    | some status => exact .require (.require (.require (.require (.transact _ _))))
  | recordProcessStart s => exact .require (.transact _ _)
  | recordProcessFinish f =>
    change (Host.recordProcessFinish f).RollsBack db
    unfold Host.recordProcessFinish
    cases processStatus f.status with
    | none => exact .raise _
    | some status => exact .transact _ _

theorem completes (json : HostJson) {call : HostCall} {db : Database} (terminals : TerminalUnleased db)
    (legal : call.Legal db) : (call.program json).Completes db (Hosted db) := by
  cases call with
  | upsertRunMetadata u =>
    exact .require fun _ => .require fun known => .transact fun _ _ body =>
      upsertRunBody_hosted known body
  | transitionRun m =>
    exact .require fun _ => .require fun known => .transact fun _ _ body =>
      transitionRunBody_hosted known body
  | upsertProcess u =>
    refine .require fun _ => .require fun _ => .require fun _ => .require fun _ => ?_
    cases processStatus u.status with
    | none => exact .raise _
    | some status => exact .transact fun _ _ body => upsertProcessBody_hosted terminals body
  | completeWaitingProcess c =>
    refine .thenRead (.require fun _ => .require fun _ => ?_) fun _ => .pure ()
    cases named : (processStatus c.processStatus).filter ProcessStatus.isTerminal with
    | none => exact .raise _
    | some status =>
      obtain ⟨named, ends⟩ := Option.filter_eq_some_iff.mp named
      refine .require fun terminal => .require fun _ => .require fun expected => .require fun _ => ?_
      have allowed := waiting_ends named (of_decide_eq_true expected)
      exact .transact fun _ _ body =>
        completeWaitingBody_hosted terminals legal (runStatus_known terminal) ends allowed body
  | recordProcessStart s =>
    exact .require fun _ => .transact fun _ _ body => recordStartBody_hosted body
  | recordProcessFinish f =>
    change (Host.recordProcessFinish f).Completes db (Hosted db)
    unfold Host.recordProcessFinish
    cases named : processStatus f.status with
    | none => exact .raise _
    | some status => exact .transact fun _ _ body => recordFinishBody_hosted named legal body

end HostCall

theorem unleased_apply {row : ProcessRow} {action : RowAction} (enabled : action.Enabled row)
    (ended : (action.apply row).status.isTerminal = true) : leased (action.apply row) = false := by
  cases action with
  | claim | park | reopen | promote => cases ended
  | expire | transition | command => rfl
  | resolve =>
    obtain ⟨-, -, owner, expiry, -⟩ := enabled
    simp [leased, RowAction.apply, HomeostatTransition.update, owner, expiry]

namespace TerminalUnleased

variable {db db' : Database}

theorem written {call : Call} {w : Write} (terminals : TerminalUnleased db) (makes : call.Makes w)
    (written : Written db w db') : TerminalUnleased db' := by
  intro k row found ended
  cases written with
  | record processes =>
    rw [processes] at found
    exact terminals k row found ended
  | @schedule new _ _ _ inserted =>
    rw [Table.find?_insert inserted] at found
    split at found
    · cases found
      rcases Call.makes_schedule makes with same | same <;> simp [same, ProcessStatus.isTerminal] at ended
    · exact terminals k row found ended
  | @act _ _ action old _ here enabled processes =>
    rw [processes] at found
    split at found
    · cases found
      exact unleased_apply enabled ended
    · exact terminals k row found ended

theorem hosted (terminals : TerminalUnleased db) (hosted : Hosted db db') : TerminalUnleased db' := by
  intro k row found ended
  by_cases same : db.processes.find? k = some row
  · exact terminals k row same ended
  · exact hosted.obeys.unleased k row found same (.inl ended)

end TerminalUnleased

theorem Hosted.consistent {db db' : Database} (hosted : Hosted db db') (consistent : Consistent db) :
    Consistent db' := by
  have kept : ∀ id, (db.runs.find? id).isSome = true → (db'.runs.find? id).isSome = true := by
    intro id known
    rcases hosted.runs id with same | ⟨new, there, -⟩
    · rw [same, known]
    · rw [there]
      rfl
  constructor
  · rw [hosted.events]
    exact consistent.numbered
  · intro e member
    rw [hosted.events] at member
    exact kept _ (consistent.housed e member)
  · intro k row found
    refine kept _ ?_
    rcases hosted.manned k row found with there | known
    · obtain ⟨old, there⟩ := Option.isSome_iff_exists.mp there
      exact consistent.manned k old there
    · exact known
  · rw [hosted.events, hosted.commands]
    exact consistent.referenced

/-- A call of the journal, or of the host beside it. -/
inductive Entry where
  | journal (call : Call)
  | host (call : HostCall)
  deriving DecidableEq

namespace Entry

def program (digest : Json → String) (json : HostJson) : Entry → Sql Unit
  | journal call => call.program digest
  | host call => call.program json

/-- A call of the host is legal where it is made. -/
def Legal (db : Database) : Entry × Option Nat → Prop
  | (journal _, _) => True
  | (host call, _) => call.Legal db

end Entry

/-- The rows after a call whose statements fail where the faults say. -/
def turn (digest : Json → String) (json : HostJson) (db : Database) (entry : Entry × Option Nat) :
    Database :=
  ((entry.1.program digest json).run ⟨db, entry.2⟩).2.store

/-- A call of the host obeys the state machines, and changes nothing when it raises. -/
def Entry.Safe (json : HostJson) (db : Database) : Entry × Option Nat → Prop
  | (journal _, _) => True
  | (host call, faults) =>
    Obeys db ((call.program json).run ⟨db, faults⟩).2.store ∧
      ∀ message c, (call.program json).run ⟨db, faults⟩ = (.error message, c) → c.store = db

/-- What the journal and the host keep between them. -/
structure Sound (db : Database) : Prop where
  consistent : Consistent db
  terminals : TerminalUnleased db

theorem Sound.empty : Sound .empty where
  consistent := .empty
  terminals _ _ found := nomatch found

theorem Sound.hosted {db db' : Database} (sound : Sound db) (hosted : Hosted db db') : Sound db' where
  consistent := hosted.consistent sound.consistent
  terminals := sound.terminals.hosted hosted

theorem host_turn (json : HostJson) {call : HostCall} {db : Database} (sound : Sound db)
    (legal : call.Legal db) (faults : Option Nat) :
    Hosted db ((call.program json).run ⟨db, faults⟩).2.store := by
  rcases (call.completes json sound.terminals legal).leaves faults with same | hosted
  · rw [same]
    exact .refl db
  · exact hosted

theorem turn_sound (digest : Json → String) (json : HostJson) {db : Database}
    (entry : Entry × Option Nat) (sound : Sound db) (legal : Entry.Legal db entry) :
    Sound (turn digest json db entry) := by
  obtain ⟨called, faults⟩ := entry
  cases called with
  | journal call =>
    have consistent := step_consistent digest sound.consistent (call, faults)
    have terminals := (step_does digest sound.consistent (call, faults)).induct sound.terminals
      fun makes written terminals => terminals.written makes written
    exact ⟨consistent, terminals⟩
  | host call => exact sound.hosted (host_turn json sound legal faults)

theorem Entry.safe (json : HostJson) {db : Database} (entry : Entry × Option Nat) (sound : Sound db)
    (legal : Entry.Legal db entry) : Entry.Safe json db entry := by
  obtain ⟨called, faults⟩ := entry
  cases called with
  | journal call => trivial
  | host call =>
    exact ⟨(host_turn json sound legal faults).obeys, fun message c raised =>
      call.rollsBack json db faults message c raised⟩

/-- In every history of the journal and the host whose host calls are legal where they are made,
    every call of the host obeys the state machines and changes nothing when it raises. -/
theorem host_safe (digest : Json → String) (json : HostJson) (history : List (Entry × Option Nat))
    (legal : Along (turn digest json) Entry.Legal .empty history) :
    Along (turn digest json) (Entry.Safe json) .empty history :=
  legal.under .empty (fun _ entry sound here => turn_sound digest json entry sound here)
    fun _ entry sound here => Entry.safe json entry sound here

/-- A JSON library for the samples, which merge no metadata. -/
def plainJson : HostJson where
  parse _ := none
  print _ := ""

def hostedRun (status : String) : HostCall :=
  .upsertRunMetadata
    { runId := "r", status, metadata := "{}", now := "1", title := none }

def waitingProcess : HostCall :=
  .upsertProcess
    { runId := "r", processId := "p", status := "waiting", processType := "t", attempt := 1,
      inputJson := .braces, outputJson := .braces, errorJson := .braces, metadata := .braces,
      now := "2" }

def completion : Completion where
  runId := "r"
  processId := "p"
  processStatus := "succeeded"
  runStatus := "completed"
  blockerId := none
  blockerStatus := "completed"
  outputJson := .braces
  now := "3"

def runningProcess : HostCall :=
  .recordProcessStart
    { runId := "r", processId := "p", processType := "t", inputJson := .braces, metadata := .braces,
      now := "2" }

def finish (status : String) : ProcessFinish where
  runId := "r"
  processId := "p"
  status
  outputJson := .braces
  errorJson := .braces
  now := "3"

/-- A history of host calls in which no statement fails. -/
def unfaulted (calls : List HostCall) : List (Entry × Option Nat) :=
  calls.map fun call => (.host call, none)

def completed : List (Entry × Option Nat) :=
  unfaulted [hostedRun "active", waitingProcess, .completeWaitingProcess completion]

theorem host_safe_completed : Along (turn (fun _ => "") plainJson) (Entry.Safe plainJson) .empty completed := by
  refine host_safe (fun _ => "") plainJson completed ⟨trivial, trivial, ?_, trivial⟩
  intro row run _ _ _ _ found _
  have before : ((Durable.execute (turn (fun _ => "") plainJson) .empty
      (unfaulted [hostedRun "active", waitingProcess])).runs.find? "r").all
        (fun run => run.status = "active") = true := by decide +kernel
  have active : run.status = "active" :=
    of_decide_eq_true ((Option.all_eq_true _ _).mp before run found)
  rw [active]
  decide

theorem Obeys.run_edge {db db' : Database} (obeys : Obeys db db') (id : String) :
    ((db.runs.find? id).all fun old => (db'.runs.find? id).all fun new =>
      old.status = new.status || canTransitionRun (.ofValue old.status) (.ofValue new.status)) = true := by
  cases found : db.runs.find? id with
  | none => rfl
  | some old =>
    cases found' : db'.runs.find? id with
    | none => rfl
    | some new =>
      by_cases same : old.status = new.status
      · simp [same]
      · simp [obeys.runs id old new found found' same]

theorem Obeys.process_edge {db db' : Database} (obeys : Obeys db db') (k : String × String) :
    ((db.processes.find? k).all fun old => (db'.processes.find? k).all fun new =>
      old.status = new.status || canTransitionProcess old.status new.status) = true := by
  cases found : db.processes.find? k with
  | none => rfl
  | some old =>
    cases found' : db'.processes.find? k with
    | none => rfl
    | some new =>
      by_cases same : old.status = new.status
      · simp [same]
      · simp [obeys.processes k old new found found' same]

/-- A finish puts a running process back to ready, and a completion completes a run whose
    cancellation was requested. -/
theorem host_unsafe :
    ¬ Along (turn (fun _ => "") plainJson) (Entry.Safe plainJson) .empty
        (unfaulted [hostedRun "active", runningProcess, .recordProcessFinish (finish "ready")]) ∧
      ¬ Along (turn (fun _ => "") plainJson) (Entry.Safe plainJson) .empty
        (unfaulted [hostedRun "cancel_requested", waitingProcess,
          .completeWaitingProcess completion]) := by
  constructor
  · rintro ⟨-, -, ⟨obeys, -⟩, -⟩
    exact absurd (obeys.process_edge ("r", "p")) (by decide +kernel)
  · rintro ⟨-, -, ⟨obeys, -⟩, -⟩
    exact absurd (obeys.run_edge "r") (by decide +kernel)

end Fala.Host
