import Fala.Engine.Calls
import Fala.Journal.Repeat
import Fala.Bridge.Repeat

/-! When a transition that returns has moved its row. -/

namespace Fala
open Durable Program Journal

namespace Journal.TransitionCall

/-- What the method checks before it hands its arguments on. -/
def Checked (digest : Json → String) (current : ProcessRow) : TransitionCall → Prop
  | completeProcess _ _ _ _ outputJson _ =>
    checkOutput digest current.outputSchemaJson outputJson = .ok ()
  | _ => True

/-- The checks that a call passes before its key is looked up. -/
structure Admits (digest : Json → String) (call : TransitionCall) (db : Database)
    (current : ProcessRow) (output error : Text) : Prop where
  transition : call.transition.Admits db current output error
  checked : call.Checked digest current

variable {digest : Json → String} {call : TransitionCall} {db db' : Database}
  {current row : ProcessRow} {output error : Text}

theorem Admits.eval (admits : call.Admits digest db current output error) :
    (call.program digest).eval db =
      (call.transition.settle current output error
        (db.commandByKey call.transition.runId call.transition.effectiveKey)).eval db := by
  obtain ⟨transition, checked⟩ := admits
  cases call with
  | completeProcess =>
    exact (ok_bind (requireRun_ok (u := ()).mpr ⟨transition.known, rfl⟩)).trans <|
      (ok_bind (getProcess_ok.mpr ⟨transition.known, transition.found, rfl⟩)).trans <|
        (ok_bind (ofExcept_ok.mpr ⟨checked, rfl⟩)).trans transition.eval
  | _ => exact transition.eval

theorem admits_of_ok (h : (call.program digest).eval db = (.ok row, db')) :
    ∃ current output error, call.Admits digest db current output error := by
  cases call with
  | completeProcess =>
    simp only [TransitionCall.program, Journal.completeProcess, bind_ok, requireRun_ok,
      getProcess_ok, ofExcept_ok] at h
    obtain ⟨_, _, ⟨-, rfl⟩, here, _, ⟨-, found, rfl⟩, _, _, ⟨checked, rfl⟩, h⟩ := h
    obtain ⟨current, output, error, admits⟩ := ProcessTransition.admits_of_ok h
    obtain rfl := Option.some.inj (found.symm.trans admits.found)
    exact ⟨_, output, error, admits, checked⟩
  | _ =>
    obtain ⟨current, output, error, admits⟩ := ProcessTransition.admits_of_ok h
    exact ⟨current, output, error, admits, trivial⟩

theorem checkOutput_unraised (schemaJson outputJson : Text) :
    checkOutput digest schemaJson outputJson ≠ .error transitionConflict := by
  have differs (detail : String) : outputInvalid detail ≠ transitionConflict :=
    append_ne detail (by decide)
  unfold checkOutput
  split
  · simp
  · split
    · simp [differs]
    · split
      · simp [differs]
      · split <;> simp [differs]

theorem admits_of_conflict
    (h : (call.program digest).eval db = (.error transitionConflict, db')) :
    ∃ current output error, call.Admits digest db current output error := by
  cases call with
  | completeProcess =>
    unfold TransitionCall.program Journal.completeProcess at h
    obtain ⟨_, _, known, h⟩ := (requireRun_unraised _ (by decide) (by decide)).rest h
    obtain ⟨here, _, found, h⟩ :=
      (getProcess_unraised _ _ (by decide) (by decide) (by decide)).rest h
    obtain ⟨_, _, checked, h⟩ := (Unraised.ofExcept (checkOutput_unraised _ _)).rest h
    obtain ⟨-, rfl⟩ := requireRun_ok.mp known
    obtain ⟨-, found', rfl⟩ := getProcess_ok.mp found
    obtain ⟨checked', rfl⟩ := ofExcept_ok.mp checked
    obtain ⟨current, output, error, admits⟩ := ProcessTransition.admits_of_conflict h
    obtain rfl := Option.some.inj (found'.symm.trans admits.found)
    exact ⟨_, output, error, admits, checked'⟩
  | _ =>
    obtain ⟨current, output, error, admits⟩ := ProcessTransition.admits_of_conflict h
    exact ⟨current, output, error, admits, trivial⟩

/-- A call that returns left the row in its target status, or replays a command of the attempt; one
    that raises the conflict found another command of the attempt under its key. -/
structure Faithful (digest : Json → String) (db : Database) (call : TransitionCall) : Prop where
  landed : ∀ row db', (call.program digest).eval db = (.ok row, db') →
    (∃ new, db'.processes.find? (call.transition.runId, call.transition.processId) = some new ∧
      new.status = call.transition.toStatus) ∨
    ∃ current, db.processes.find? (call.transition.runId, call.transition.processId) =
      some current ∧ call.transition.Genuine db current
  disputed : ∀ db', (call.program digest).eval db = (.error transitionConflict, db') →
    ∃ current prior output error stored,
      db.processes.find? (call.transition.runId, call.transition.processId) = some current ∧
      db.commandByKey call.transition.runId call.transition.effectiveKey = some prior ∧
      call.transition.RecordsAttempt current.attempt prior ∧
      call.transition.sameCommand output error stored prior = false

/-- A command under the key of an admitted call was recorded in the current attempt, or the call
    repeats it and the row is in the target status, or was brought there in this attempt. -/
def KeyCurrent (digest : Json → String) (db : Database) (call : TransitionCall) : Prop :=
  ∀ current output error prior stored, call.Admits digest db current output error →
    db.commandByKey call.transition.runId call.transition.effectiveKey = some prior →
      prior.payload.canonical = some stored →
        call.transition.RecordsAttempt current.attempt prior ∨
          (call.transition.sameCommand output error stored prior = true ∧
            (current.status = call.transition.toStatus ∨ call.transition.Genuine db current))

theorem Faithful.keyCurrent (faithful : Faithful digest db call) : KeyCurrent digest db call := by
  intro current output error prior stored admits found read
  have eval := admits.eval
  rw [found] at eval
  cases same : call.transition.sameCommand output error stored prior with
  | true =>
    rw [ProcessTransition.settle_same admits.transition read same] at eval
    refine .inr ⟨rfl, ?_⟩
    rcases faithful.landed _ _ eval with ⟨new, here, status⟩ | ⟨new, here, genuine⟩ <;>
      obtain rfl := Option.some.inj (admits.transition.found.symm.trans here)
    · exact .inl status
    · exact .inr genuine
  | false =>
    rw [ProcessTransition.settle_other read same] at eval
    obtain ⟨here, prior', _, _, _, found', key, records, -⟩ := faithful.disputed _ eval
    obtain rfl := Option.some.inj (admits.transition.found.symm.trans found')
    obtain rfl := Option.some.inj (found.symm.trans key)
    exact .inl records

theorem KeyCurrent.faithful (keyed : KeyCurrent digest db call) : Faithful digest db call := by
  constructor
  · intro row db' h
    obtain ⟨current, output, error, admits⟩ := admits_of_ok h
    rw [admits.eval] at h
    cases found : db.commandByKey call.transition.runId call.transition.effectiveKey with
    | none => exact .inl (ProcessTransition.settle_fresh admits.transition (found ▸ h))
    | some prior =>
      rw [found] at h
      simp only [ProcessTransition.settle, bind_ok, ofExcept_ok, canonicalJsonField_ok, require_ok,
        getProcess_ok] at h
      obtain ⟨stored, _, ⟨read, rfl⟩, _, _, ⟨same, rfl⟩, -, -, rfl⟩ := h
      rcases keyed _ _ _ _ _ admits found read with records | ⟨-, landed | genuine⟩
      · exact .inr ⟨current, admits.transition.found,
          ProcessTransition.genuine_of_same rfl found same records⟩
      · exact .inl ⟨current, admits.transition.found, landed⟩
      · exact .inr ⟨current, admits.transition.found, genuine⟩
  · intro db' h
    obtain ⟨current, output, error, admits⟩ := admits_of_conflict h
    rw [admits.eval] at h
    obtain ⟨prior, stored, found, read, other⟩ := ProcessTransition.conflict_of_settle _ h
    rcases keyed _ _ _ _ _ admits found read with records | ⟨same, -⟩
    · exact ⟨current, prior, output, error, stored, admits.transition.found, found, records, other⟩
    · simp [other] at same

theorem faithful_iff : Faithful digest db call ↔ KeyCurrent digest db call :=
  ⟨Faithful.keyCurrent, KeyCurrent.faithful⟩

end Journal.TransitionCall

/-- A transition of the history meets a condition in the state that it is made in. -/
def OnTransition (C : Database → TransitionCall → Prop) (db : Database)
    (call : Call × Option Nat) : Prop :=
  ∀ t, call.1 = .process (.transitionProcess t) → C db t

/-- A transition, in any history, moves its row or replays the attempt exactly when what its key
    finds was recorded in the attempt. -/
theorem transitions_faithful (digest : Json → String) (calls : List (Call × Option Nat)) :
    (Along (step digest) (OnTransition (TransitionCall.Faithful digest)) .empty calls ↔
      Along (step digest) (OnTransition (TransitionCall.KeyCurrent digest)) .empty calls) ∧
    ∀ call : TransitionCall, call.Faithful digest (after digest calls) ↔
      call.KeyCurrent digest (after digest calls) :=
  ⟨⟨fun along => along.imp fun _ _ each t same => (each t same).keyCurrent,
      fun along => along.imp fun _ _ each t same => (each t same).faithful⟩,
    fun _ => TransitionCall.faithful_iff⟩

/-- A process whose first two attempts fail alike, each within the same second. -/
def retriedRun : List (Call × Option Nat) :=
  let claim (now lease : String) : Call :=
    .process (.claimProcess "run" "work" { workerId := "worker", now, leaseExpiresAt := lease })
  [(.process (.createRun
      { runId := "run", status := "active", metadata := "\x7b\x7d", createdAt := "t0" }), none),
    (.process (.scheduleProcess
      { runId := "run", processId := "work", processType := "manual", maxAttempts := 3,
        createdAt := "t0" }), none),
    (claim "t1" "t5", none),
    (.process (.transitionProcess (.retryProcess "run" "work" "worker" "t1" "" .braces)), none),
    (claim "t1" "t5", none)]

/-- The retry of the second attempt. -/
def secondRetry : TransitionCall := .retryProcess "run" "work" "worker" "t1" "" .braces

/-- The second retry returns the running row as it is: it found the command of the first one. -/
theorem retry_swallowed :
    ¬ secondRetry.Faithful (fun _ => "") (after (fun _ => "") retriedRun) := by
  intro faithful
  have swallowed : ∃ row ∈ (after (fun _ => "") retriedRun).processes.rows,
      row.status = .running ∧ row.attempt = 2 ∧
      (secondRetry.program (fun _ => "")).eval (after (fun _ => "") retriedRun) =
        (.ok row, after (fun _ => "") retriedRun) ∧
      (after (fun _ => "") retriedRun).processes.find? ("run", "work") = some row ∧
      ∀ c ∈ (after (fun _ => "") retriedRun).commands.rows, c.commandType = "process.retry" →
        processAttemptFromPayload c.payload (-1) = 1 := by decide +kernel
  obtain ⟨row, -, running, second, replayed, found, first⟩ := swallowed
  rcases faithful.landed _ _ replayed with ⟨new, here, status⟩ |
    ⟨current, here, c, member, -, type, -, attempt⟩
  · obtain rfl := Option.some.inj (found.symm.trans here)
    exact absurd (running.symm.trans status) (by decide)
  · obtain rfl := Option.some.inj (found.symm.trans here)
    exact absurd ((first c member type).symm.trans (attempt.trans second)) (by decide)

end Fala

/-! When the repetition of an accepted call replays, whatever happened since. -/

namespace Fala
open Durable Program Journal Bridge Domain

namespace Journal.TransitionCall

variable {digest : Json → String} {call : TransitionCall} {db db' : Database}
  {current row : ProcessRow} {output error : Text}

theorem Admits.grown (admits : call.Admits digest db current output error) (grown : Grown db db') :
    ∃ current', call.Admits digest db' current' output error := by
  obtain ⟨⟨named, timed, acting, known, found, printed, printed'⟩, checked⟩ := admits
  obtain ⟨current', found', schema⟩ := grown.processes _ _ found
  have known' : RunKnown db' call.transition.runId := ⟨known.1, grown.runs _ known.2⟩
  refine ⟨current', ⟨named, timed, acting, known', found', printed, printed'⟩, ?_⟩
  cases call with
  | completeProcess => exact (congrArg (checkOutput digest · _) schema).trans checked
  | _ => trivial

/-- The command under the key of an accepted call is the one of the call, if it can be read. -/
def Recorded (digest : Json → String) (call : TransitionCall) (db : Database) : Prop :=
  ∃ current output error prior, call.Admits digest db current output error ∧
    db.commandByKey call.transition.runId call.transition.effectiveKey = some prior ∧
      ∀ stored, prior.payload.canonical = some stored →
        call.transition.sameCommand output error stored prior = true

theorem Recorded.grown (recorded : call.Recorded digest db) (grown : Grown db db') :
    call.Recorded digest db' := by
  obtain ⟨_, output, error, prior, admits, found, same⟩ := recorded
  obtain ⟨current, admits⟩ := admits.grown grown
  exact ⟨current, output, error, prior, admits, grown.commandByKey found, same⟩

theorem recorded_of_ok (h : (call.program digest).eval db = (.ok row, db')) :
    call.Recorded digest db' := by
  obtain ⟨current, output, error, admits⟩ := admits_of_ok h
  rw [admits.eval] at h
  cases found : db.commandByKey call.transition.runId call.transition.effectiveKey with
  | some prior =>
    rw [found] at h
    simp only [ProcessTransition.settle, bind_ok, ofExcept_ok, canonicalJsonField_ok, require_ok,
      getProcess_ok] at h
    obtain ⟨stored, _, ⟨read, rfl⟩, _, _, ⟨same, rfl⟩, -, -, rfl⟩ := h
    refine ⟨current, output, error, prior, admits, found, fun stored' read' => ?_⟩
    obtain rfl := Option.some.inj (read.symm.trans read')
    exact same
  | none =>
    rw [found] at h
    obtain ⟨counted, written⟩ := ProcessTransition.settle_written admits.transition h
    have logged : (Write.act call.transition.runId call.transition.processId
        (.transition call.transition output error)).log db = (call.transition.runId,
          (RowAction.transition call.transition output error).commands current,
          (RowAction.transition call.transition output error).events current) := by
      simp only [Write.log, admits.transition.found]
    have stored := written.command (c := call.transition.command
      (call.transition.payload output error current)) (by
        rw [logged]
        exact List.mem_singleton_self _)
    obtain ⟨current', admits'⟩ := admits.grown (Grown.written written)
    exact ⟨current', output, error, _, admits', stored, fun _ read =>
      ProcessTransition.payload_same admits.transition.named counted admits.transition.output
        admits.transition.error read⟩

theorem repeats_iff (recorded : call.Recorded digest db) :
    (∃ row, (call.program digest).eval db = (.ok row, db)) ↔
      (db.commandByKey call.transition.runId call.transition.effectiveKey).any
        (fun prior => prior.payload.canonical.isSome) = true := by
  obtain ⟨current, output, error, prior, admits, found, same⟩ := recorded
  rw [admits.eval, found, Option.any_some, Option.isSome_iff_exists]
  constructor
  · rintro ⟨row, h⟩
    simp only [ProcessTransition.settle, bind_ok, ofExcept_ok, canonicalJsonField_ok] at h
    obtain ⟨stored, _, ⟨read, -⟩, -⟩ := h
    exact ⟨stored, read⟩
  · rintro ⟨stored, read⟩
    exact ⟨current, ProcessTransition.settle_same admits.transition read (same stored read)⟩

end Journal.TransitionCall

/-- The calls whose repetition is to replay. -/
inductive RepeatedCall where
  | createRun (r : RunCreation)
  | scheduleProcess (s : ProcessSchedule)
  | transitionRunStatus (t : RunTransition)
  | transitionProcess (t : TransitionCall)
  | saveHomeostat (row : Homeostat) (c : DomainCall)
  | acceptImpulse (a : ImpulseAcceptance)
  | deliverBridgeDelivery (c : DeliveryCall)
  | retryBridgeDelivery (c : DeliveryCall)

namespace RepeatedCall

def call : RepeatedCall → Call
  | createRun r => .process (.createRun r)
  | scheduleProcess s => .process (.scheduleProcess s)
  | transitionRunStatus t => .record (.transitionRunStatus t)
  | transitionProcess t => .process (.transitionProcess t)
  | saveHomeostat row c => .store (.saveHomeostat row c)
  | acceptImpulse a => .store (.acceptImpulse a)
  | deliverBridgeDelivery c => .bridge (.deliverBridgeDelivery c)
  | retryBridgeDelivery c => .bridge (.retryBridgeDelivery c)

/-- The call has an idempotency key; only the bridge operations do without one. -/
def Keyed : RepeatedCall → Prop
  | deliverBridgeDelivery c | retryBridgeDelivery c => c.idempotencyKey ≠ ""
  | _ => True

/-- What an accepted call has left on record. -/
def Recorded (digest : Json → String) (db : Database) : RepeatedCall → Prop
  | createRun r => r.Accepted ∧ r.Recorded db
  | scheduleProcess s => s.Recorded db
  | transitionRunStatus t => t.Recorded db
  | transitionProcess t => t.Recorded digest db
  | saveHomeostat row c => HomeostatRecorded row c db
  | acceptImpulse a => a.Recorded db
  | deliverBridgeDelivery c | retryBridgeDelivery c => c.Recorded db

/-- The rows that a replay compares beside the record are as the call asks for them. -/
def StillMatches (db : Database) : RepeatedCall → Prop
  | createRun r => (db.runs.find? r.runId).any r.sameRun = true
  | scheduleProcess _ | transitionRunStatus _ => True
  | transitionProcess t =>
    (db.commandByKey t.transition.runId t.transition.effectiveKey).any
      (fun prior => prior.payload.canonical.isSome) = true
  | saveHomeostat row _ =>
    (db.homeostats.find? (row.runId, row.id)).any (fun h => h.toJson = row.toJson) = true
  | acceptImpulse a =>
    (db.impulses.find? (a.impulse.runId, a.impulse.id)).any (· = a.impulse) = true
  | deliverBridgeDelivery c => c.DeliveryCurrent db
  | retryBridgeDelivery c => c.RetryCurrent db

variable {digest : Json → String} {call : RepeatedCall} {db db' : Database}

theorem Recorded.grown (recorded : call.Recorded digest db) (grown : Grown db db') :
    call.Recorded digest db' := by
  cases call with
  | createRun r => exact ⟨recorded.1, recorded.2.grown grown⟩
  | scheduleProcess s => exact ProcessSchedule.Recorded.grown recorded grown
  | transitionRunStatus t => exact RunTransition.Recorded.grown recorded grown
  | transitionProcess t => exact TransitionCall.Recorded.grown recorded grown
  | saveHomeostat row c =>
    exact ⟨recorded.type, recorded.valid, recorded.submission.grown grown⟩
  | acceptImpulse a => exact ImpulseAcceptance.Recorded.grown recorded grown
  | deliverBridgeDelivery c | retryBridgeDelivery c =>
    exact DeliveryCall.Recorded.grown recorded grown

theorem recorded_of_ok (consistent : Consistent db) (keyed : call.Keyed)
    (h : (call.call.program digest).eval db = (.ok (), db')) : call.Recorded digest db' := by
  cases call with
  | createRun r =>
    obtain ⟨row, h⟩ := void_ok.mp h
    exact RunCreation.recorded_of_ok consistent.housed h
  | scheduleProcess s =>
    obtain ⟨row, h⟩ := void_ok.mp h
    exact ProcessSchedule.recorded_of_ok h
  | transitionRunStatus t =>
    obtain ⟨result, h⟩ := void_ok.mp h
    exact RunTransition.recorded_of_ok h
  | transitionProcess t =>
    obtain ⟨row, h⟩ := void_ok.mp h
    exact TransitionCall.recorded_of_ok h
  | saveHomeostat row c =>
    obtain ⟨submission, h⟩ := void_ok.mp h
    exact saveHomeostat_recorded h
  | acceptImpulse a =>
    obtain ⟨result, h⟩ := void_ok.mp h
    exact ImpulseAcceptance.recorded_of_ok h
  | deliverBridgeDelivery c =>
    obtain ⟨row, h⟩ := void_ok.mp h
    exact DeliveryCall.deliver_recorded keyed h
  | retryBridgeDelivery c =>
    obtain ⟨row, h⟩ := void_ok.mp h
    exact DeliveryCall.retry_recorded keyed h

theorem Recorded.repeats_iff (recorded : call.Recorded digest db) (consistent : Consistent db) :
    (call.call.program digest).eval db = (.ok (), db) ↔ call.StillMatches db := by
  cases call with
  | createRun r =>
    exact void_ok.trans (RunCreation.repeats_iff recorded.1 recorded.2 consistent.housed)
  | scheduleProcess s =>
    exact void_ok.trans (iff_of_true (ProcessSchedule.repeats recorded) trivial)
  | transitionRunStatus t =>
    exact void_ok.trans (iff_of_true (RunTransition.repeats recorded) trivial)
  | transitionProcess t => exact void_ok.trans (TransitionCall.repeats_iff recorded)
  | saveHomeostat row c => exact void_ok.trans (saveHomeostat_repeats_iff recorded)
  | acceptImpulse a => exact void_ok.trans (ImpulseAcceptance.repeats_iff recorded)
  | deliverBridgeDelivery c => exact void_ok.trans (DeliveryCall.deliver_repeats_iff recorded)
  | retryBridgeDelivery c => exact void_ok.trans (DeliveryCall.retry_repeats_iff recorded)

end RepeatedCall

/-- An accepted call, made again after any history, replays exactly when the rows that the replay
    compares are still as the call asks for them. -/
theorem repetition_replays (digest : Json → String) (before later : List (Call × Option Nat))
    (call : RepeatedCall) (keyed : call.Keyed)
    (accepted : ((call.call.program digest).eval (after digest before)).1 = .ok ()) :
    ((call.call.program digest).eval (after digest (before ++ (call.call, none) :: later)) =
        (.ok (), after digest (before ++ (call.call, none) :: later))) ↔
      call.StillMatches (after digest (before ++ (call.call, none) :: later)) := by
  have consistent := after_consistent digest before
  have made : (call.call.program digest).eval (after digest before) =
      (.ok (), step digest (after digest before) (call.call, none)) := Prod.ext accepted rfl
  have first := RepeatedCall.recorded_of_ok consistent keyed made
  have consistent' := step_consistent digest consistent (call.call, none)
  have reached : Consistent (after digest (before ++ (call.call, none) :: later)) ∧
      call.Recorded digest (after digest (before ++ (call.call, none) :: later)) := by
    rw [after, execute_append]
    exact execute_induction (I := fun db => Consistent db ∧ call.Recorded digest db)
      ⟨consistent', first⟩ (fun db next held => ⟨step_consistent digest held.1 next,
        held.2.grown (Grown.does (step_does digest held.1 next))⟩) later
  exact reached.2.repeats_iff reached.1

/-- A run that was created, and then moved on. -/
def movedRun : RunCreation :=
  { runId := "run", status := "created", metadata := "\x7b\x7d", createdAt := "t0" }

def activation : Call := .record (.transitionRunStatus ⟨"run", "active", "t1", "start", ""⟩)

theorem repetition_replays_created :
    ((RepeatedCall.createRun movedRun).call.program fun _ => "").eval
        (after (fun _ => "") ([] ++ ((RepeatedCall.createRun movedRun).call, none) :: [])) =
      (.ok (), after (fun _ => "") ([] ++ ((RepeatedCall.createRun movedRun).call, none) :: [])) := by
  have created : (RepeatedCall.createRun movedRun).StillMatches
      (after (fun _ => "") ([] ++ ((RepeatedCall.createRun movedRun).call, none) :: [])) := by
    simp only [RepeatedCall.StillMatches]
    decide +kernel
  exact (repetition_replays (fun _ => "") [] [] (.createRun movedRun) trivial
    (by decide +kernel)).mpr created

/-- Creating the run again raises once the run has another status. -/
theorem creation_raises :
    ¬ ∀ (before later : List (Call × Option Nat)) (call : RepeatedCall), call.Keyed →
      ((call.call.program fun _ => "").eval (after (fun _ => "") before)).1 = .ok () →
        ((call.call.program fun _ => "").eval
            (after (fun _ => "") (before ++ (call.call, none) :: later))).1 = .ok () := by
  intro replays
  have raised : ((((RepeatedCall.createRun movedRun).call.program fun _ => "").eval
      (after (fun _ => "") ([] ++ ((RepeatedCall.createRun movedRun).call, none) ::
        [(activation, none)])))).1 = .error runDiffers := by decide +kernel
  have returned := replays [] [(activation, none)] (.createRun movedRun) trivial (by decide +kernel)
  rw [raised] at returned
  cases returned

end Fala
