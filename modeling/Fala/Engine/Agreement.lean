import Fala.Engine.Calls
import Fala.Journal.Recording
import Fala.Journal.RowInvariant

/-! The two transitions of a process, with and without a command of the caller. -/

namespace Fala.Journal
open Durable Program

/-- The two calls ask for the same transition of the same row. -/
structure CommandTransition.Asks (c : CommandTransition) (t : ProcessTransition) (db : Database) :
    Prop where
  run : c.runId = t.runId
  process : c.processId = t.processId
  target : c.target = t.toStatus
  actor : c.command.actor = t.actor
  at_ : c.command.createdAt = t.at_
  output : c.outputJson = t.outputJson
  error : c.errorJson = t.errorJson
  available : c.availableAt = t.availableAt
  silent : c.events = []
  commandRun : c.command.runId = c.runId
  named : c.command.id ≠ "" ∧ c.command.idempotencyKey ≠ ""
  type : expectedCommandType c.target = some c.command.commandType
  payload : processIdFromPayload c.command.payload "" = c.processId
  attempt : ∀ row, db.processes.find? (c.runId, c.processId) = some row →
    processAttemptFromPayload c.command.payload (-1) < 0 ∨
      row.attempt = processAttemptFromPayload c.command.payload (-1)

/-- The columns that a transition assigns. -/
structure SameColumns (left right : ProcessRow) : Prop where
  status : left.status = right.status
  outputJson : left.outputJson = right.outputJson
  errorJson : left.errorJson = right.errorJson
  availableAt : left.availableAt = right.availableAt
  leaseOwner : left.leaseOwner = right.leaseOwner
  leaseExpiresAt : left.leaseExpiresAt = right.leaseExpiresAt
  finishedAt : left.finishedAt = right.finishedAt

/-- Both calls are rejected, or both are accepted and leave the same row. -/
def Agree (db : Database) (t : ProcessTransition) (c : CommandTransition) : Prop :=
  ((∃ row db', (transitionProcess t).eval db = (.ok row, db')) ↔
      ∃ result db', (transitionProcessWithCommand c).eval db = (.ok result, db')) ∧
    ∀ row left result right, (transitionProcess t).eval db = (.ok row, left) →
      (transitionProcessWithCommand c).eval db = (.ok result, right) →
      ∃ a b, left.processes.find? (t.runId, t.processId) = some a ∧
        right.processes.find? (t.runId, t.processId) = some b ∧ SameColumns a b

namespace ProcessTransition

/-- What both calls check first. -/
structure Posed (t : ProcessTransition) (db : Database) (current : ProcessRow)
    (output error : Text) : Prop where
  named : t.processId ≠ ""
  timed : t.at_ ≠ ""
  known : RunKnown db t.runId
  found : db.processes.find? (t.runId, t.processId) = some current
  output : t.outputJson.canonical = some output
  error : t.errorJson.canonical = some error

/-- The transitions that only `_transition_process` allows. -/
def Widened (t : ProcessTransition) (row : ProcessRow) : Prop :=
  (t.toStatus = .failed ∧ row.status = .cancelRequested ∧ Owned row t.actor) ∨
    (t.toStatus = .ready ∧ row.status = .retryWait) ∨
    ((t.toStatus = .waiting ∨ t.toStatus = .cancelRequested ∨ t.toStatus = .skipped ∨
        t.toStatus = .cancelled ∨ t.toStatus = .timedOut) ∧
      canTransitionProcess row.status t.toStatus = true ∧ ¬ Owned row t.actor)

/-- The transition that only the call with a command allows. -/
def Narrowed (t : ProcessTransition) (row : ProcessRow) : Prop :=
  t.toStatus = .retryWait ∧ row.status = .failed ∧ row.leaseOwner ≠ "" ∧
    row.leaseOwner = t.actor ∧ row.attempt < row.maxAttempts

/-- The row takes neither of the ways on which the two calls part. -/
def Aligned (t : ProcessTransition) (c : CommandTransition) (row : ProcessRow) : Prop :=
  if t.actor ≠ "" ∧ Counted row then
    ¬ t.Widened row ∧ ¬ t.Narrowed row ∧
      (c.guard row = .ok () → t.toStatus = .succeeded ∨ t.toStatus = .waiting →
        row.errorJson = .braces)
  else c.guard row ≠ .ok ()

variable {t : ProcessTransition} {c : CommandTransition} {db db' : Database} {row : ProcessRow}
  {output error : Text}

theorem Posed.admits (posed : t.Posed db row output error) (acting : t.actor ≠ "") :
    t.Admits db row output error :=
  ⟨posed.named, posed.timed, acting, posed.known, posed.found, posed.output, posed.error⟩

theorem Admits.posed (admits : t.Admits db row output error) : t.Posed db row output error :=
  ⟨admits.named, admits.timed, admits.known, admits.found, admits.output, admits.error⟩

theorem permits_iff (row : ProcessRow) (target : c.target = t.toStatus) (actor : c.command.actor = t.actor)
    (type : expectedCommandType c.target ≠ none) (counted : Counted row) :
    t.Permits row ↔ (c.guard row = .ok () ∧ ¬ t.Narrowed row) ∨ t.Widened row := by
  have permits : t.Permits row ↔ t.legal row = true ∧
      (t.toStatus = .retryWait → row.attempt < row.maxAttempts) ∧
      (t.checksOwner = true → Owned row t.actor) :=
    ⟨fun p => ⟨p.legal, p.left, p.owned⟩, fun p => ⟨counted, p.1, p.2.1, p.2.2⟩⟩
  rw [permits]
  cases into : t.toStatus <;> rw [into] at target
  case pending | running => simp [target, expectedCommandType] at type
  all_goals
    simp only [legal, checksOwner, CommandTransition.guard, Widened, Narrowed, Owned, into, target,
      actor, Schema.ensure_ok, Schema.ensure_bind_ok, decide_eq_true_eq, canTransitionProcess_succeeded,
      canTransitionProcess_failed, canTransitionProcess_waiting, canTransitionProcess_ready,
      reduceCtorEq, false_or, or_false, false_and, if_false, or_true, true_and,
      not_false_eq_true, and_true, false_imp_iff, true_imp_iff]
  case failed => rw [← or_assoc, or_and_right]
  case waiting | skipped | cancelRequested | cancelled | timedOut =>
    rw [← and_or_left]
    exact (and_iff_left (em _)).symm
  case retryWait =>
    by_cases failed : row.status = .failed
    · simp only [failed, if_true, decide_eq_true_eq, reduceCtorEq, false_or, true_and]
      tauto
    · simp only [failed, if_false, canTransitionProcess_retryWait, or_false, false_and,
        not_false_eq_true, and_true]
      tauto

theorem Widened.unguarded (widened : t.Widened row) (target : c.target = t.toStatus)
    (actor : c.command.actor = t.actor) : c.guard row ≠ .ok () := by
  intro guarded
  unfold CommandTransition.guard at guarded
  rcases widened with ⟨into, status, -⟩ | ⟨into, status⟩ | ⟨into | into | into | into | into, -, other⟩
  all_goals
    simp only [target, into, actor, Schema.ensure_ok, Schema.ensure_bind_ok, decide_eq_true_eq] at guarded
  · simp [status] at guarded
  · simp [status] at guarded
  all_goals exact other guarded.2

theorem sameColumns_iff (target : c.target = t.toStatus) (at_ : c.command.createdAt = t.at_)
    (available : c.availableAt = t.availableAt) (type : expectedCommandType c.target ≠ none) :
    SameColumns (t.moved output error row) (c.update output error row) ↔
      (t.toStatus = .succeeded ∨ t.toStatus = .waiting → row.errorJson = .braces) := by
  have due : t.due = if c.availableAt = "" then c.command.createdAt else c.availableAt := by
    rw [ProcessTransition.due, available, at_]
    by_cases given : t.availableAt = "" <;> simp [given]
  have columns : SameColumns (t.moved output error row) (c.update output error row) ↔
      (t.moved output error row).errorJson = (c.update output error row).errorJson := by
    refine ⟨fun same => same.errorJson, fun same => ⟨target.symm, ?_, same, ?_, rfl, rfl, ?_⟩⟩
    · simp only [moved, update, CommandTransition.update, storedOutput, target]
      cases t.toStatus <;> rfl
    · simp only [moved, update, CommandTransition.update, target, due]
    · simp only [moved, update, CommandTransition.update, target, at_]
  rw [columns]
  cases into : t.toStatus
  case pending | running => simp [target, into, expectedCommandType] at type
  case retryWait =>
    by_cases silent : error = .braces
    · by_cases kept : row.errorJson = .braces <;>
        simp [moved, update, CommandTransition.update, storedError, target, into, silent, kept]
    · simp [moved, update, CommandTransition.update, storedError, target, into, silent]
  case succeeded | waiting =>
    simp only [moved, update, CommandTransition.update, target, into, true_or, or_true,
      true_imp_iff]
    exact eq_comm
  all_goals simp [moved, update, CommandTransition.update, storedError, target, into]

theorem Posed.same {row' : ProcessRow} {output' error' : Text}
    (posed : t.Posed db row output error) (posed' : t.Posed db row' output' error') :
    row' = row ∧ output' = output ∧ error' = error :=
  ⟨Option.some.inj (posed'.found.symm.trans posed.found),
    Option.some.inj (posed'.output.symm.trans posed.output),
    Option.some.inj (posed'.error.symm.trans posed.error)⟩

theorem Posed.transition_iff (posed : t.Posed db row output error) (fresh : t.Fresh db) :
    (∃ result db', (transitionProcess t).eval db = (.ok result, db')) ↔
      t.actor ≠ "" ∧ t.Permits row := by
  constructor
  · rintro ⟨result, db', h⟩
    obtain ⟨row', output', error', admits, permits, -⟩ := of_ok fresh.key h
    obtain ⟨rfl, -, -⟩ := posed.same admits.posed
    exact ⟨admits.acting, permits⟩
  · rintro ⟨acting, permits⟩
    obtain ⟨db', h, -⟩ := of_fresh (posed.admits acting) fresh permits
    exact ⟨_, db', h⟩

end ProcessTransition

open ProcessTransition

namespace CommandTransition.Asks

variable {c : CommandTransition} {t : ProcessTransition} {db : Database} {row : ProcessRow}
  {output error : Text}

theorem admits (asks : c.Asks t db) (posed : t.Posed db row output error) :
    c.Admits db row output error where
  run := asks.commandRun
  named := ⟨asks.named.1, asks.named.2, asks.at_ ▸ posed.timed⟩
  expected := asks.type
  known := asks.run ▸ posed.known
  found := by rw [asks.run, asks.process]; exact posed.found
  process := ⟨by rw [asks.payload, asks.process]; exact posed.named, asks.payload⟩
  attempt := asks.attempt row (by rw [asks.run, asks.process]; exact posed.found)
  output := asks.output ▸ posed.output
  error := asks.error ▸ posed.error

theorem posed (asks : c.Asks t db) (admits : c.Admits db row output error) :
    t.Posed db row output error where
  named := by rw [← asks.process, ← asks.payload]; exact admits.process.1
  timed := asks.at_ ▸ admits.named.2.2
  known := asks.run ▸ admits.known
  found := by rw [← asks.run, ← asks.process]; exact admits.found
  output := asks.output ▸ admits.output
  error := asks.error ▸ admits.error

theorem command_iff (asks : c.Asks t db) (fresh : c.Fresh db)
    (posed : t.Posed db row output error) :
    (∃ result db', (transitionProcessWithCommand c).eval db = (.ok result, db')) ↔
      c.guard row = .ok () := by
  constructor
  · rintro ⟨result, db', h⟩
    obtain ⟨row', output', error', admits, guarded, -⟩ := CommandTransition.of_ok fresh.key h
    obtain ⟨rfl, -, -⟩ := posed.same (asks.posed admits)
    exact guarded
  · intro guarded
    obtain ⟨result, db', h, -⟩ :=
      CommandTransition.of_fresh (asks.admits posed) fresh asks.silent guarded
    exact ⟨result, db', h⟩

end CommandTransition.Asks

/-- A transition under fresh ids is accepted with and without a command of the caller alike, and
    leaves the same row, exactly when the row takes none of the ways on which the calls part. -/
theorem agree_iff {db : Database} {t : ProcessTransition} {c : CommandTransition}
    (asks : c.Asks t db) (fresh : t.Fresh db) (fresh' : c.Fresh db) :
    Agree db t c ↔ ∀ row output error, t.Posed db row output error → t.Aligned c row := by
  have type : expectedCommandType c.target ≠ none := by rw [asks.type]; exact nofun
  constructor
  · intro agree row output error posed
    have accepts := agree.1
    rw [posed.transition_iff fresh, asks.command_iff fresh' posed] at accepts
    unfold Aligned
    split
    · rename_i sound
      have permits := permits_iff row asks.target asks.actor type sound.2
      refine ⟨fun widened => ?_, fun narrowed => ?_, fun guarded => ?_⟩
      · exact widened.unguarded asks.target asks.actor
          (accepts.mp ⟨sound.1, permits.mpr (.inr widened)⟩)
      · have guarded : c.guard row = .ok () := by
          unfold CommandTransition.guard
          simp [asks.target, asks.actor, narrowed.1, narrowed.2.1, narrowed.2.2.2.1,
            narrowed.2.2.2.2, Schema.ensure_ok, Schema.ensure_bind_ok]
        rcases permits.mp (accepts.mpr guarded).2 with met | widened
        · exact met.2 narrowed
        · exact widened.unguarded asks.target asks.actor guarded
      · obtain ⟨left, moved, stored⟩ :=
          ProcessTransition.of_fresh (posed.admits sound.1) fresh (accepts.mpr guarded).2
        obtain ⟨result, right, commanded, stored'⟩ :=
          CommandTransition.of_fresh (asks.admits posed) fresh' asks.silent guarded
        obtain ⟨a, b, found, found', same⟩ := agree.2 _ _ _ _ moved commanded
        rw [asks.run, asks.process] at stored'
        obtain rfl := Option.some.inj (found.symm.trans stored)
        obtain rfl := Option.some.inj (found'.symm.trans stored')
        exact (sameColumns_iff asks.target asks.at_ asks.available type).mp same
    · rename_i unsound
      exact fun guarded => unsound ⟨(accepts.mpr guarded).1, (accepts.mpr guarded).2.counted⟩
  · intro aligned
    have accepts : ∀ {row output error}, t.Posed db row output error →
        (t.actor ≠ "" ∧ t.Permits row ↔ c.guard row = .ok ()) := by
      intro row output error posed
      have here := aligned row output error posed
      unfold Aligned at here
      split at here
      · rename_i sound
        rw [permits_iff _ asks.target asks.actor type sound.2]
        exact ⟨fun met => (met.2.resolve_right here.1).1,
          fun guarded => ⟨sound.1, .inl ⟨guarded, here.2.1⟩⟩⟩
      · rename_i unsound
        exact iff_of_false (fun met => unsound ⟨met.1, met.2.counted⟩) here
    refine ⟨⟨?_, ?_⟩, ?_⟩
    · rintro ⟨result, db', h⟩
      obtain ⟨row, output, error, admits, permits, -⟩ := ProcessTransition.of_ok fresh.key h
      exact (asks.command_iff fresh' admits.posed).mpr
        ((accepts admits.posed).mp ⟨admits.acting, permits⟩)
    · rintro ⟨result, db', h⟩
      obtain ⟨row, output, error, admits, guarded, -⟩ := CommandTransition.of_ok fresh'.key h
      exact ((asks.posed admits).transition_iff fresh).mpr
        ((accepts (asks.posed admits)).mpr guarded)
    · intro row left result right moved commanded
      obtain ⟨current, output, error, admits, permits, stored⟩ :=
        ProcessTransition.of_ok fresh.key moved
      obtain ⟨current', output', error', admits', guarded, stored'⟩ :=
        CommandTransition.of_ok fresh'.key commanded
      obtain ⟨rfl, rfl, rfl⟩ := admits.posed.same (asks.posed admits')
      rw [asks.run, asks.process] at stored'
      refine ⟨_, _, stored, stored', ?_⟩
      have here := aligned _ _ _ admits.posed
      rw [Aligned, if_pos ⟨admits.acting, permits.counted⟩] at here
      exact (sameColumns_iff asks.target asks.at_ asks.available type).mpr (here.2.2 guarded)

/-- A process in the hands of a worker. -/
def claimedWork : List (Call × Option Nat) :=
  [(.process (.createRun
      { runId := "run", status := "active", metadata := "\x7b\x7d", createdAt := "t0" }), none),
    (.process (.scheduleProcess
      { runId := "run", processId := "work", processType := "manual", createdAt := "t0" }), none),
    (.process (.claimProcess "run" "work" ⟨"worker", "t1", "t9", ""⟩), none)]

/-- The cancellation of that process under the name of an actor. -/
def cancellation (actor : String) : ProcessTransition :=
  { runId := "run", processId := "work", toStatus := .cancelled, actor, at_ := "t2" }

def cancelCommand (actor : String) : CommandTransition where
  runId := "run"
  processId := "work"
  target := .cancelled
  command :=
    { runId := "run", id := "cancel", commandType := "process.cancel", idempotencyKey := "cancel",
      actor, correlationId := "", causationId := "",
      payload := .template [("process_id", .quote "work")], createdAt := "t2" }

theorem cancelCommand_asks (actor : String) (db : Database) :
    (cancelCommand actor).Asks (cancellation actor) db where
  run := rfl
  process := rfl
  target := rfl
  actor := rfl
  at_ := rfl
  output := rfl
  error := rfl
  available := rfl
  silent := rfl
  commandRun := rfl
  named := ⟨by simp [cancelCommand], by simp [cancelCommand]⟩
  type := rfl
  payload := by simp only [cancelCommand]; decide
  attempt _ _ := .inl (by simp only [cancelCommand]; decide)

theorem cancellation_fresh (actor : String) :
    (cancellation actor).Fresh (after (fun _ => "") claimedWork) where
  key := show (after (fun _ => "") claimedWork).commandByKey "run" (cancellation "").effectiveKey =
    none by decide +kernel
  command := show ("run", (cancellation "").effectiveKey) ∉ _ by decide +kernel
  event := show ("run", (cancellation "").effectiveKey ++ ":event") ∉ _ by decide +kernel

theorem cancelCommand_fresh (actor : String) :
    (cancelCommand actor).Fresh (after (fun _ => "") claimedWork) where
  key := show (after (fun _ => "") claimedWork).commandByKey "run" "cancel" = none by
    decide +kernel
  command := show ("run", "cancel") ∉ _ by decide +kernel

/-- The worker's own cancellation. -/
theorem agree_iff_worker :
    Agree (after (fun _ => "") claimedWork) (cancellation "worker") (cancelCommand "worker") := by
  refine (agree_iff (cancelCommand_asks _ _) (cancellation_fresh _) (cancelCommand_fresh _)).mpr
    fun row output error posed => ?_
  have held : ((after (fun _ => "") claimedWork).processes.find? ("run", "work")).any
      (fun r => r.leaseOwner = "worker" ∧ Counted r) = true := by decide +kernel
  have found : (after (fun _ => "") claimedWork).processes.find? ("run", "work") = some row :=
    posed.found
  rw [found, Option.any_some, decide_eq_true_eq] at held
  rw [Aligned, if_pos ⟨by decide, held.2⟩]
  refine ⟨?_, nofun, fun _ => nofun⟩
  rintro (⟨into, -⟩ | ⟨into, -⟩ | ⟨-, -, other⟩)
  · cases into
  · cases into
  · exact other (.inr held.1)

/-- An operator's cancellation is accepted without a command only. -/
theorem operator_cancels :
    ¬ ∀ (calls : List (Call × Option Nat)) (t : ProcessTransition) (c : CommandTransition),
      c.Asks t (after (fun _ => "") calls) → t.Fresh (after (fun _ => "") calls) →
        c.Fresh (after (fun _ => "") calls) → Agree (after (fun _ => "") calls) t c := by
  intro agree
  have accepted : ((transitionProcess (cancellation "operator")).eval
      (after (fun _ => "") claimedWork)).1.isOk = true := by decide +kernel
  have rejected : ((transitionProcessWithCommand (cancelCommand "operator")).eval
      (after (fun _ => "") claimedWork)).1.isOk = false := by decide +kernel
  obtain ⟨both, -⟩ := agree claimedWork _ _ (cancelCommand_asks "operator" _)
    (cancellation_fresh "operator") (cancelCommand_fresh "operator")
  rw [returns_iff, returns_iff] at both
  have returned := both.mp accepted
  rw [rejected] at returned
  cases returned

end Fala.Journal
