import Fala.Journal.Calls
import Fala.Journal.Consistency
import Fala.Journal.Effects
import Fala.Journal.Actions

/-! What a process transition returns when its key is already recorded. -/

namespace Fala.Journal
open Durable Program

/-- The checks that a transition passes before it looks its key up. -/
structure ProcessTransition.Admits (t : ProcessTransition) (db : Database) (current : ProcessRow)
    (output error : Text) : Prop where
  named : t.processId ≠ ""
  timed : t.at_ ≠ ""
  acting : t.actor ≠ ""
  known : RunKnown db t.runId
  found : db.processes.find? (t.runId, t.processId) = some current
  output : t.outputJson.canonical = some output
  error : t.errorJson.canonical = some error

namespace ProcessTransition

variable {t : ProcessTransition} {db db' : Database} {current : ProcessRow} {output error : Text}
  {prior : CommandRow}

/-- The last part of a transition, once its key was looked up. -/
def settle (t : ProcessTransition) (current : ProcessRow) (output error : Text) :
    Option CommandRow → Sql ProcessRow
  | some prior => do
    let stored ← .ofExcept (canonicalJsonField prior.payload "stored process command")
    .require (t.sameCommand output error stored prior) transitionConflict
    getProcess t.runId (processIdFromPayload stored "")
  | none => do
    .require (0 ≤ current.attempt ∧ 1 ≤ current.maxAttempts ∧
      current.attempt ≤ current.maxAttempts) "journal: invalid process attempts"
    .require (t.legal current) (illegalTransition current.status t.toStatus)
    .require (¬ (t.toStatus = .retryWait ∧ current.maxAttempts ≤ current.attempt))
      attemptsExhausted
    .require (¬ (t.checksOwner ∧ current.leaseOwner ≠ "" ∧ current.leaseOwner ≠ t.actor)) leaseHeld
    .transact ("journal: process transition failed: " ++ ·) (transitionBody t output error current)
    getProcess t.runId t.processId

theorem Admits.eval (admits : t.Admits db current output error) :
    (transitionProcess t).eval db =
      (t.settle current output error (db.commandByKey t.runId t.effectiveKey)).eval db := by
  unfold transitionProcess
  rw [ok_bind (require_met (decide_eq_true admits.named)),
    ok_bind (require_met (decide_eq_true admits.timed)),
    ok_bind (requireRun_ok (u := ()).mpr ⟨admits.known, rfl⟩),
    ok_bind (getProcess_ok.mpr ⟨admits.known, admits.found, rfl⟩),
    ok_bind (require_met (decide_eq_true admits.acting)),
    ok_bind (ofExcept_ok.mpr ⟨canonicalJsonField_ok.mpr admits.output, rfl⟩),
    ok_bind (ofExcept_ok.mpr ⟨canonicalJsonField_ok.mpr admits.error, rfl⟩),
    ok_bind (commandByKey_ok.mpr ⟨rfl, rfl⟩)]
  rfl

theorem admits_of_ok {row : ProcessRow}
    (h : (transitionProcess t).eval db = (.ok row, db')) :
    ∃ current output error, t.Admits db current output error := by
  unfold transitionProcess at h
  simp only [bind_ok, require_ok, requireRun_ok, getProcess_ok, ofExcept_ok, canonicalJsonField_ok,
    decide_eq_true_eq] at h
  obtain ⟨_, _, ⟨named, rfl⟩, _, _, ⟨timed, rfl⟩, _, _, ⟨known, rfl⟩, current, _, ⟨-, found, rfl⟩,
    _, _, ⟨acting, rfl⟩, output, _, ⟨printed, rfl⟩, error, _, ⟨printed', rfl⟩, -⟩ := h
  exact ⟨current, output, error, named, timed, acting, known, found, printed, printed'⟩

end ProcessTransition

section
variable {message : String}

theorem requireRun_unraised (runId : String) (empty : runEmpty ≠ message)
    (unknown : unknownRun ≠ message) : Unraised (requireRun runId) message :=
  .bind (.require empty) fun _ => .bind (.fetch _) fun _ => .require unknown

theorem getProcess_unraised (runId processId : String) (empty : runEmpty ≠ message)
    (unknown : unknownRun ≠ message) (missing : processNotFound ≠ message) :
    Unraised (getProcess runId processId) message := by
  refine .bind (requireRun_unraised runId empty unknown) fun _ => .query fun db => ?_
  cases db.processes.find? (runId, processId) <;> simp [missing]

theorem canonicalJsonField_unraised (value : Text) (field : String)
    (invalid : "journal: invalid " ++ field ++ " JSON" ≠ message) :
    canonicalJsonField value field ≠ .error message := by
  unfold canonicalJsonField
  cases value.canonical <;> simp [invalid]

end

namespace ProcessTransition

variable {t : ProcessTransition} {db db' : Database} {current : ProcessRow} {output error : Text}

theorem admits_of_conflict
    (h : (transitionProcess t).eval db = (.error transitionConflict, db')) :
    ∃ current output error, t.Admits db current output error := by
  unfold transitionProcess at h
  obtain ⟨_, _, named, h⟩ := (Unraised.require (by decide)).rest h
  obtain ⟨_, _, timed, h⟩ := (Unraised.require (by decide)).rest h
  obtain ⟨_, _, known, h⟩ := (requireRun_unraised _ (by decide) (by decide)).rest h
  obtain ⟨current, _, here, h⟩ :=
    (getProcess_unraised _ _ (by decide) (by decide) (by decide)).rest h
  obtain ⟨_, _, acting, h⟩ := (Unraised.require (by decide)).rest h
  obtain ⟨output, _, printed, h⟩ :=
    (Unraised.ofExcept (canonicalJsonField_unraised _ _ (by decide))).rest h
  obtain ⟨error, _, printed', -⟩ :=
    (Unraised.ofExcept (canonicalJsonField_unraised _ _ (by decide))).rest h
  obtain ⟨named', rfl⟩ := require_ok.mp named
  obtain ⟨timed', rfl⟩ := require_ok.mp timed
  obtain ⟨known', rfl⟩ := requireRun_ok.mp known
  obtain ⟨-, found, rfl⟩ := getProcess_ok.mp here
  obtain ⟨acting', rfl⟩ := require_ok.mp acting
  obtain ⟨output', rfl⟩ := ofExcept_ok.mp printed
  obtain ⟨error', rfl⟩ := ofExcept_ok.mp printed'
  exact ⟨current, output, error, of_decide_eq_true named', of_decide_eq_true timed',
    of_decide_eq_true acting', known', found, canonicalJsonField_ok.mp output',
    canonicalJsonField_ok.mp error'⟩

theorem illegalTransition_ne (current target : ProcessStatus) :
    illegalTransition current target ≠ transitionConflict := by
  unfold illegalTransition
  rw [String.append_assoc, String.append_assoc]
  exact append_ne _ (by decide)

theorem conflict_of_settle (found : Option CommandRow)
    (h : (t.settle current output error found).eval db = (.error transitionConflict, db')) :
    ∃ prior stored, found = some prior ∧ prior.payload.canonical = some stored ∧
      t.sameCommand output error stored prior = false := by
  cases found with
  | some prior =>
    unfold settle at h
    obtain ⟨stored, _, read, h⟩ :=
      (Unraised.ofExcept (canonicalJsonField_unraised _ _ (by decide))).rest h
    refine ⟨prior, stored, rfl, canonicalJsonField_ok.mp (ofExcept_ok.mp read).1, ?_⟩
    cases same : t.sameCommand output error stored prior with
    | false => rfl
    | true =>
      rw [ok_bind (require_met same)] at h
      exact absurd h (getProcess_unraised _ _ (by decide) (by decide) (by decide) _ _)
  | none =>
    refine absurd h (Unraised.bind (.require (by decide)) (fun _ => .bind (.require
      (illegalTransition_ne _ _)) fun _ => .bind (.require (by decide)) fun _ =>
      .bind (.require (by decide)) fun _ => .bind (.transact fun detail => append_ne detail
        (by decide)) fun _ => getProcess_unraised _ _ (by decide) (by decide) (by decide)) _ _)

theorem settle_written {row : ProcessRow} (admits : t.Admits db current output error)
    (h : (t.settle current output error none).eval db = (.ok row, db')) :
    0 ≤ current.attempt ∧
      Written db (.act t.runId t.processId (.transition t output error)) db' := by
  simp only [settle, bind_ok, require_ok, transact_ok, getProcess_ok, decide_eq_true_eq] at h
  obtain ⟨_, _, ⟨counted, rfl⟩, _, _, ⟨legal, rfl⟩, _, _, ⟨attempts, rfl⟩, _, _, ⟨owner, rfl⟩,
    _, _, body, -, -, rfl⟩ := h
  have enabled : (RowAction.transition t output error).Enabled current := by
    refine ⟨admits.timed, legal, fun retried => ?_, fun checks => ?_⟩
    · simp only [not_and, Int.not_le] at attempts
      exact attempts retried
    · by_cases free : current.leaseOwner = ""
      · exact .inl free
      · exact .inr (by simpa only [checks, free, true_and, ne_eq, not_not, not_false_eq_true]
          using owner)
  exact ⟨counted.1, transitionBody_written admits.known.2 admits.found enabled body⟩

theorem settle_fresh {row : ProcessRow} (admits : t.Admits db current output error)
    (h : (t.settle current output error none).eval db = (.ok row, db')) :
    ∃ new, db'.processes.find? (t.runId, t.processId) = some new ∧ new.status = t.toStatus := by
  obtain ⟨-, written⟩ := settle_written admits h
  cases written with
  | act found _ processes _ => exact ⟨_, by rw [processes, if_pos rfl], rfl⟩

end ProcessTransition

namespace ProcessTransition

variable {t : ProcessTransition} {db db' : Database} {current : ProcessRow} {output error : Text}
  {prior : CommandRow}

/-- The command was recorded for the process in this attempt. -/
def RecordsAttempt (t : ProcessTransition) (attempt : Int) (c : CommandRow) : Prop :=
  processIdFromPayload c.payload "" = t.processId ∧
    processAttemptFromPayload c.payload (-1) = attempt

instance (t : ProcessTransition) (attempt : Int) (c : CommandRow) :
    Decidable (t.RecordsAttempt attempt c) := inferInstanceAs (Decidable (_ ∧ _))

/-- A command into the target status is on record for the current attempt. -/
def Genuine (t : ProcessTransition) (db : Database) (current : ProcessRow) : Prop :=
  ∃ c ∈ db.commands.rows, c.runId = t.runId ∧
    c.commandType = transitionCommandType t.toStatus ∧ t.RecordsAttempt current.attempt c

theorem settle_same {stored : Text} (admits : t.Admits db current output error)
    (read : prior.payload.canonical = some stored)
    (same : t.sameCommand output error stored prior = true) :
    (t.settle current output error (some prior)).eval db = (.ok current, db) := by
  have named : processIdFromPayload stored "" = t.processId := (of_decide_eq_true same).1
  simp only [settle, eval_bind, eval_ofExcept, canonicalJsonField_ok.mpr read, eval_require, same,
    if_true, named]
  exact getProcess_ok.mpr ⟨admits.known, admits.found, rfl⟩

theorem settle_other {stored : Text} (read : prior.payload.canonical = some stored)
    (other : t.sameCommand output error stored prior = false) :
    (t.settle current output error (some prior)).eval db = (.error transitionConflict, db) := by
  simp [settle, eval_bind, eval_ofExcept, canonicalJsonField_ok.mpr read, eval_require, other]

theorem genuine_of_same {stored : Text} {attempt : Int} (attempted : current.attempt = attempt)
    (found : db.commandByKey t.runId t.effectiveKey = some prior)
    (same : t.sameCommand output error stored prior = true)
    (records : t.RecordsAttempt attempt prior) : t.Genuine db current := by
  obtain ⟨member, key⟩ := Ledger.find?_some.mp found
  exact ⟨prior, member, congrArg Prod.fst key, (of_decide_eq_true same).2.1, attempted ▸ records⟩

end ProcessTransition
end Fala.Journal

/-! What an accepted call leaves on record, and when its repetition replays. -/

namespace Fala.Journal
open Durable Program

theorem prior_grown {db db' : Database} {runId key : String} {p : CommandRow → Bool}
    (grown : Grown db db') (found : (db.commandByKey runId key).any p = true) :
    (db'.commandByKey runId key).any p = true := by
  obtain ⟨prior, found, holds⟩ := (Option.any_eq_true _ _).mp found
  rw [grown.commandByKey found, Option.any_some, holds]

theorem Written.command {db db' : Database} {w : Write} {c : CommandRow}
    (written : Written db w db') (listed : c ∈ (w.log db).2.1) :
    db'.commandByKey c.runId c.idempotencyKey = some c := by
  refine Ledger.find?_some.mpr ⟨?_, rfl⟩
  rw [written.logged.stored]
  exact List.mem_append_right _ listed

theorem Written.changes {db : Database} {w : Write} {c : CommandRow} {rest : List CommandRow}
    (recorded : (w.log db).2.1 = c :: rest) : ¬ Written db w db := by
  intro written
  have stored := written.logged.stored
  rw [recorded] at stored
  simpa using congrArg List.length stored

namespace RunCreation

variable {r : RunCreation} {db db' : Database} {row : RunRow}

structure Accepted (r : RunCreation) : Prop where
  named : r.runId ≠ "" ∧ r.status ≠ ""
  timed : r.createdAt ≠ ""

theorem Recorded.grown (recorded : r.Recorded db) (grown : Grown db db') : r.Recorded db' where
  command := prior_grown grown recorded.command
  event := by
    obtain ⟨e, found, same⟩ := (Option.any_eq_true _ _).mp recorded.event
    rw [grown.firstEvent found, Option.any_some, same]

theorem recorded_of_fresh (written : Written db (.record r.runId [r.command]
      [(r.commandId, r.event)]) db') (unheard : streamRows EventRow.runId db.events.rows r.runId = []) :
    r.Recorded db' := by
  constructor
  · have found := written.command (c := r.command) (List.mem_singleton_self _)
    rw [show db'.commandByKey r.runId r.key = some r.command from found, Option.any_some]
    exact decide_eq_true ⟨rfl, rfl, rfl, rfl, rfl⟩
  · have told := written.logged.told
    have none_before : db.events.rows.find?
        (fun e => decide (e.runId = r.runId ∧ e.commandId = r.commandId)) = none := by
      refine List.find?_eq_none.mpr fun e member same => ?_
      have here : e ∈ streamRows EventRow.runId db.events.rows r.runId :=
        List.mem_filter.mpr ⟨member, decide_eq_true (of_decide_eq_true same).1⟩
      simp [unheard] at here
    generalize db'.events.rows = after at told ⊢
    cases told with
    | cons first later =>
      cases later
      cases first with
      | replayed sequence stored =>
        have here : r.event.row r.runId r.commandId sequence ∈
            streamRows EventRow.runId db.events.rows r.runId :=
          List.mem_filter.mpr ⟨stored, decide_eq_true rfl⟩
        simp [unheard] at here
      | appended =>
        rw [List.find?_append, none_before]
        simp [EventInput.row, sameEvent, event, Write.log]

theorem recorded_of_ok (housed : EventsHoused db) (h : (createRun r).eval db = (.ok row, db')) :
    r.Accepted ∧ r.Recorded db' := by
  simp only [createRun, bind_ok, require_ok, transact_ok, RunTransition.readRunRow_ok,
    decide_eq_true_eq] at h
  obtain ⟨_, _, ⟨named, rfl⟩, _, _, ⟨timed, rfl⟩, _, _, body, -, rfl⟩ := h
  refine ⟨⟨named, timed⟩, ?_⟩
  rcases createRunBody_ok housed body with ⟨-, recorded, rfl⟩ | ⟨written, -, unheard⟩
  · exact recorded
  · exact recorded_of_fresh written unheard

theorem repeats_iff (accepted : r.Accepted) (recorded : r.Recorded db) (housed : EventsHoused db) :
    (∃ row, (createRun r).eval db = (.ok row, db)) ↔
      (db.runs.find? r.runId).any r.sameRun = true := by
  constructor
  · rintro ⟨row, h⟩
    simp only [createRun, bind_ok, require_ok, transact_ok, RunTransition.readRunRow_ok] at h
    obtain ⟨_, _, ⟨-, rfl⟩, _, _, ⟨-, rfl⟩, _, _, body, -, rfl⟩ := h
    rcases createRunBody_ok housed body with ⟨same, -, -⟩ | ⟨written, -, -⟩
    · exact same
    · exact absurd written (Written.changes rfl)
  · intro same
    obtain ⟨run, found, same⟩ := (Option.any_eq_true _ _).mp same
    have read : (Program.fetch fun db : Database => db.runs.find? r.runId).eval db =
        (.ok (some run), db) := fetch_ok.mpr ⟨found, rfl⟩
    have body : (createRunBody r).eval db = (.ok (), db) :=
      (ok_bind read).trans <| (ok_bind (require_met same)).trans <|
        (ok_bind (commandByKey_ok.mpr ⟨rfl, rfl⟩)).trans <|
        (ok_bind (require_met recorded.command)).trans <|
        (ok_bind (fetch_ok.mpr ⟨rfl, rfl⟩)).trans (require_met recorded.event)
    refine ⟨.ofRecord run, ?_⟩
    unfold createRun
    rw [ok_bind (require_met (decide_eq_true accepted.named)),
      ok_bind (require_met (decide_eq_true accepted.timed)), ok_bind (transact_ok.mpr body)]
    exact RunTransition.readRunRow_ok.mpr ⟨⟨run, found, rfl⟩, rfl⟩

end RunCreation

namespace ProcessSchedule

variable {s : ProcessSchedule} {db db' : Database} {row : ProcessRow}

/-- The schedule is on record, and the process that its command names is there. -/
structure Recorded (s : ProcessSchedule) (db : Database) : Prop where
  valid : s.processId ≠ "" ∧ s.processType ≠ "" ∧ s.createdAt ≠ "" ∧ 1 ≤ s.maxAttempts
  known : RunKnown db s.runId
  scheduled : ∃ prior process, db.commandByKey s.runId s.key = some prior ∧
    processIdFromPayload prior.payload "" ≠ "" ∧
      db.processes.find? (s.runId, processIdFromPayload prior.payload "") = some process

theorem Recorded.grown (recorded : s.Recorded db) (grown : Grown db db') : s.Recorded db' where
  valid := recorded.valid
  known := ⟨recorded.known.1, grown.runs _ recorded.known.2⟩
  scheduled := by
    obtain ⟨prior, process, found, named, stored⟩ := recorded.scheduled
    obtain ⟨process', stored', -⟩ := grown.processes _ _ stored
    exact ⟨prior, process', grown.commandByKey found, named, stored'⟩

theorem payload_processId {input metadata : Text} (printed : s.inputJson.canonical = some input)
    (printed' : s.metadata.canonical = some metadata) (named : s.processId ≠ "") :
    processIdFromPayload (s.payload input metadata) "" = s.processId := by
  obtain ⟨value, -, rfl⟩ := Text.canonical_some printed
  obtain ⟨value', -, rfl⟩ := Text.canonical_some printed'
  simp [processIdFromPayload, payload, Text.parse_template, Text.parsedMembers, Text.quote,
    Json.member, Json.lookup, named]

theorem recorded_of_ok (h : (scheduleProcess s).eval db = (.ok row, db')) : s.Recorded db' := by
  simp only [scheduleProcess, bind_ok, requireRun_ok, require_ok, transact_ok, getProcess_ok,
    decide_eq_true_eq] at h
  obtain ⟨_, _, ⟨known, rfl⟩, _, _, ⟨valid, rfl⟩, id, _, body, known', stored, rfl⟩ := h
  rcases scheduleBody_ok known.2 body with ⟨⟨prior, found, rfl, named⟩, rfl⟩ |
    ⟨rfl, w, ⟨input, metadata, schema, ⟨printed, printed'⟩, rfl⟩, written⟩
  · exact ⟨valid, known, prior, row, found, named, stored⟩
  · have found := written.command (c := s.command (s.payload input metadata))
      (List.mem_singleton_self _)
    have here := payload_processId printed printed' valid.1
    refine ⟨valid, known', _, row, found, ?_, ?_⟩
    · exact fun empty => valid.1 (here.symm.trans empty)
    · rw [show processIdFromPayload (s.command (s.payload input metadata)).payload "" = _ from here]
      exact stored

theorem repeats (recorded : s.Recorded db) : ∃ row, (scheduleProcess s).eval db = (.ok row, db) := by
  obtain ⟨valid, known, prior, process, found, named, stored⟩ := recorded
  have body : (scheduleBody s).eval db = (.ok (processIdFromPayload prior.payload ""), db) := by
    unfold scheduleBody
    rw [ok_bind (commandByKey_ok.mpr ⟨found, rfl⟩)]
    exact ok_bind (require_met (decide_eq_true named))
  refine ⟨process, ?_⟩
  unfold scheduleProcess
  rw [ok_bind (requireRun_ok (u := ()).mpr ⟨known, rfl⟩), ok_bind (require_met (decide_eq_true valid)),
    ok_bind (transact_ok.mpr body)]
  exact getProcess_ok.mpr ⟨known, stored, rfl⟩

end ProcessSchedule

namespace RunTransition

variable {t : RunTransition} {db db' : Database} {result : RunTransitionResult}

structure Recorded (t : RunTransition) (db : Database) : Prop where
  named : t.Named
  known : RunKnown db t.runId
  command : (db.commandByKey t.runId t.idempotencyKey).any t.sameCommand = true

theorem Recorded.grown (recorded : t.Recorded db) (grown : Grown db db') : t.Recorded db' where
  named := recorded.named
  known := ⟨recorded.known.1, grown.runs _ recorded.known.2⟩
  command := prior_grown grown recorded.command

theorem recorded_of_ok (h : (transitionRunStatus t).eval db = (.ok result, db')) :
    t.Recorded db' := by
  have checked := h
  simp only [transitionRunStatus, bind_ok, requireRun_ok, require_ok, decide_eq_true_eq] at checked
  obtain ⟨_, _, ⟨known, rfl⟩, _, _, ⟨named, rfl⟩, -⟩ := checked
  obtain ⟨run, found⟩ := Option.isSome_iff_exists.mp known.2
  rcases of_ok found h with ⟨⟨prior, key, same⟩, rfl⟩ | ⟨-, -, moved, key⟩
  · exact ⟨named, known, by rw [key, Option.any_some, same]⟩
  · refine ⟨named, ⟨known.1, Option.isSome_of_eq_some moved⟩, ?_⟩
    rw [key, Option.any_some]
    exact decide_eq_true ⟨rfl, rfl, rfl⟩

theorem repeats (recorded : t.Recorded db) :
    ∃ result, (transitionRunStatus t).eval db = (.ok result, db) := by
  obtain ⟨named, known, command⟩ := recorded
  obtain ⟨prior, found, same⟩ := (Option.any_eq_true _ _).mp command
  obtain ⟨run, here⟩ := Option.isSome_iff_exists.mp known.2
  refine ⟨⟨.ofRecord run, true⟩, ?_⟩
  unfold transitionRunStatus
  rw [ok_bind (requireRun_ok (u := ()).mpr ⟨known, rfl⟩),
    ok_bind (require_met (decide_eq_true ⟨named.1, named.2⟩)),
    ok_bind (readRunRow_ok.mpr ⟨⟨run, here, rfl⟩, rfl⟩),
    ok_bind (commandByKey_ok.mpr ⟨found, rfl⟩)]
  exact ok_bind (require_met same)

end RunTransition

namespace ProcessTransition

variable {t : ProcessTransition} {output error stored : Text} {current : ProcessRow}

theorem field_canonical {value : Json} {text : Text} (parsed : text.parse = some value)
    (printed : ∃ given : Text, given.canonical = some text) :
    Text.printed value.canonical.canonical = text := by
  obtain ⟨given, printed⟩ := printed
  obtain ⟨value', -, rfl⟩ := Text.canonical_some printed
  cases parsed
  rw [Json.canonical_canonical, Json.canonical_canonical]

theorem payload_same (named : t.processId ≠ "") (counted : 0 ≤ current.attempt)
    (printed : t.outputJson.canonical = some output) (printed' : t.errorJson.canonical = some error)
    (read : (t.payload output error current).canonical = some stored) :
    t.sameCommand output error stored (t.command (t.payload output error current)) = true := by
  obtain ⟨_, here, process⟩ := Text.member_template read "process_id" rfl
  obtain ⟨_, here', attempt⟩ := Text.member_template read "attempt" rfl
  obtain ⟨outputValue, output', outputField⟩ := Text.member_template read "output" rfl
  obtain ⟨errorValue, error', errorField⟩ := Text.member_template read "error" rfl
  cases here
  cases here'
  have identified : processIdFromPayload stored "" = t.processId := by
    simp [processIdFromPayload, process, Json.canonical, named]
  have numbered : processAttemptFromPayload stored (-1) = current.attempt := by
    simp [processAttemptFromPayload, attempt, Json.canonical]
  have sent : t.hasOutput = true → jsonFieldFromPayload stored "output" .empty = output := by
    intro has
    have same : t.storedOutput output current = output := by
      rcases of_decide_eq_true has with target | target | target <;>
        simp [storedOutput, target]
    rw [same] at output'
    simp only [jsonFieldFromPayload, outputField]
    exact field_canonical output' ⟨_, printed⟩
  have failed : t.hasError = true → jsonFieldFromPayload stored "error" .empty = error := by
    intro has
    have same : t.storedError error current = error := by
      rcases of_decide_eq_true has with target | target | target | target <;>
        simp [storedError, target]
    rw [same] at error'
    simp only [jsonFieldFromPayload, errorField]
    exact field_canonical error' ⟨_, printed'⟩
  have retried : t.toStatus = .retryWait →
      jsonFieldFromPayload stored "available_at" .empty = .quote t.due ∧
        (error ≠ .braces → jsonFieldFromPayload stored "error" .empty = error) := by
    intro target
    constructor
    · obtain ⟨_, here, due⟩ := Text.member_template read "available_at"
        (by simp only [target, if_true]; rfl)
      cases here
      simp [jsonFieldFromPayload, due, Json.canonical, Text.quote]
    · intro given
      have same : t.storedError error current = error := by simp [storedError, target, given]
      rw [same] at error'
      simp only [jsonFieldFromPayload, errorField]
      exact field_canonical error' ⟨_, printed'⟩
  refine decide_eq_true ⟨identified, rfl, rfl, rfl, ?_⟩
  rw [payloadConflict, decide_eq_true_eq]
  rintro (⟨-, negative⟩ | ⟨has, differs⟩ | ⟨has, differs⟩ | ⟨target, differs⟩)
  · omega
  · exact differs (sent has)
  · exact differs (failed has)
  · obtain ⟨due, given⟩ := retried target
    rcases differs with late | ⟨some, other⟩
    · exact late due
    · exact other (given some)

end ProcessTransition
end Fala.Journal

/-! An operation that raises leaves the rows as they were. -/

namespace Fala.Journal
open Durable Program

variable {db db' : Database}

theorem submitCommand_restores (c : CommandAppend) (events : List EventInput) (db : Database) :
    (submitCommand c events).Restores db := .transact _ _

theorem createRun_restores (r : RunCreation) (db : Database) : (createRun r).Restores db := by
  refine .require fun _ => .require fun _ => .followed (.transact _ _) fun _ db' body => ?_
  obtain ⟨run, found⟩ : ∃ run, db'.runs.find? r.runId = some run := by
    simp only [transact_ok, createRunBody, bind_ok, fetch_ok] at body
    obtain ⟨_, _, ⟨rfl, rfl⟩, body⟩ := body
    cases found : db.runs.find? r.runId with
    | some existing =>
      simp only [found, bind_ok, require_ok, commandByKey_ok, fetch_ok] at body
      obtain ⟨_, _, ⟨-, rfl⟩, _, _, ⟨-, rfl⟩, _, _, ⟨-, rfl⟩, _, _, ⟨-, rfl⟩, -, rfl⟩ := body
      exact ⟨existing, found⟩
    | none =>
      simp only [found, bind_ok, insertRun_ok, insertEvent_ok] at body
      obtain ⟨_, _, ⟨runs, inserted, rfl⟩, _, _, command, -, events, -, rfl⟩ := body
      obtain ⟨commands, -, rfl⟩ := insertCommand_rows command
      exact ⟨r.row, (Table.find?_insert inserted _).trans (if_pos rfl)⟩
  rw [RunTransition.readRunRow_ok.mpr ⟨⟨run, found, rfl⟩, rfl⟩]
  rfl

theorem restores_bind {α β : Type} {p : Sql α} {f : α → Sql β} (first : p.Restores db)
    (rest : ∀ a db', p.eval db = (.ok a, db') →
      db' = db ∧ (f a).Restores db ∨ ((f a).eval db').1.isOk = true) : (p >>= f).Restores db := by
  intro message s' raised
  rw [eval_bind] at raised
  cases h : p.eval db with
  | mk result middle =>
    rw [h] at raised
    cases result with
    | error other =>
      cases raised
      exact first _ _ h
    | ok a =>
      rcases rest a middle h with ⟨rfl, restores⟩ | returned
      · exact restores message s' raised
      · rw [show (f a).eval middle = (.error message, s') from raised] at returned
        cases returned

theorem scheduleProcess_restores (s : ProcessSchedule) (db : Database) :
    (scheduleProcess s).Restores db := by
  refine .afterRead (requireRun_reads _) fun _ known => .require fun _ =>
    restores_bind (.transact _ _) fun id db' body => ?_
  obtain ⟨known, -⟩ := requireRun_ok.mp known
  rcases scheduleBody_ok known.2 (transact_ok.mp body) with ⟨-, rfl⟩ | ⟨rfl, w, ⟨_, _, _, -, rfl⟩, written⟩
  · exact .inl ⟨rfl, .ofReadOnly (getProcess_reads _ _)⟩
  · refine .inr ?_
    cases written with
    | schedule inserted logged =>
      have found := (Table.find?_insert inserted (s.runId, s.processId)).trans (if_pos rfl)
      rw [getProcess_ok.mpr ⟨⟨known.1, logged.known⟩, found, rfl⟩]
      rfl

theorem transitionProcess_restores (transition : ProcessTransition) (db : Database) :
    (transitionProcess transition).Restores db := by
  refine .require fun named => .require fun timed => .afterRead (requireRun_reads _) fun _ known =>
    .afterRead (getProcess_reads _ _) fun current found => .require fun acting =>
    .afterRead (.ofExcept _) fun output printed => .afterRead (.ofExcept _) fun error printed' =>
    .afterRead (commandByKey_reads _ _) fun prior _ => ?_
  cases prior with
  | some stored =>
    exact .ofReadOnly (.bind (.ofExcept _) fun _ => .bind (.require _ _) fun _ => getProcess_reads _ _)
  | none =>
    refine .require fun counted => .require fun legal => .require fun attempts => .require fun owner =>
      .followed (.transact _ _) fun _ db' body => ?_
    obtain ⟨known, -, -⟩ := getProcess_ok.mp found
    have kept : ∃ row, db'.processes.find? (transition.runId, transition.processId) = some row ∧
        db'.runs = db.runs := by
      simp only [transact_ok, transitionBody, bind_ok, getProcess_ok, require_ok, decide_eq_true_eq,
        pure_ok] at body
      obtain ⟨_, _, ⟨-, -, rfl⟩, _, _, ⟨-, rfl⟩, _, _, update, _, _, ⟨changed, rfl⟩, _, _, command,
        _, _, event, -, rfl⟩ := body
      obtain ⟨old, stored, -, rfl⟩ := updateProcess_one update changed
      obtain ⟨commands, -, rfl⟩ := insertCommand_rows command
      obtain ⟨after, -, rfl⟩ := appendEventInTx_rows event
      exact ⟨_, Table.find?_modified stored (transition.update
        (transition.storedOutput output current) (transition.storedError error current) output)
        fun _ => rfl, rfl⟩
    obtain ⟨row, here, runs⟩ := kept
    have known' : RunKnown db' transition.runId := ⟨known.1, runs ▸ known.2⟩
    rw [getProcess_ok.mpr ⟨known', here, rfl⟩]
    rfl

theorem completeProcess_restores (digest : Json → String)
    (runId processId workerId completedAt : String) (outputJson errorJson : Text) (db : Database) :
    (completeProcess digest runId processId workerId completedAt outputJson errorJson).Restores db :=
  .afterRead (requireRun_reads _) fun _ _ => .afterRead (getProcess_reads _ _) fun _ _ =>
    .afterRead (.ofExcept _) fun _ _ => transitionProcess_restores _ db

end Fala.Journal
