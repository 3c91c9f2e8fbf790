import Fala.Journal.Repeat

/-! Operations of which nothing is recorded yet. -/

namespace Fala.Journal
open Durable Program

variable {db db' : Database}

theorem insertCommand_fresh (db : Database) (row : CommandRow)
    (id : row.key ∉ db.commands.rows.map CommandRow.key)
    (key : db.commandByKey row.runId row.idempotencyKey = none) :
    ∃ commands, (insertCommand row).eval db = (.ok (), db.setCommands commands) ∧
      commands.rows = db.commands.rows ++ [row] := by
  have unique : row.unique ∉ db.commands.rows.map CommandRow.unique := Ledger.find?_none.mp key
  obtain ⟨commands, appended, stored⟩ := Ledger.append?_of_fresh id unique
  exact ⟨commands, insertCommand_ok.mpr ⟨commands, appended, rfl⟩, stored⟩

theorem insertEvent_fresh (db : Database) {runId commandId : String} (event : EventInput)
    (fresh : (runId, event.id) ∉ db.events.rows.map EventRow.unique)
    (recorded : commandId = "" ∨ (runId, commandId) ∈ db.commands.rows.map CommandRow.key) :
    ∃ events, (insertEvent (event.row runId commandId (db.nextSequence runId))).eval db =
        (.ok (), db.setEvents events) ∧
      events.rows = db.events.rows ++ [event.row runId commandId (db.nextSequence runId)] := by
  let row := event.row runId commandId (db.nextSequence runId)
  have unused : row.key ∉ db.events.rows.map EventRow.key := by
    intro member
    obtain ⟨e, member, same⟩ := List.mem_map.mp member
    have below : e.sequence < db.nextSequence runId :=
      nextSequence_fresh db.events.rows runId member (congrArg Prod.fst same)
    exact absurd (congrArg Prod.snd same) (Nat.ne_of_lt below)
  obtain ⟨events, appended, stored⟩ := Ledger.append?_of_fresh unused fresh
  exact ⟨events, insertEvent_ok.mpr ⟨recorded, events, appended, rfl⟩, stored⟩

theorem appendEventInTx_fresh (db : Database) {runId commandId : String} (event : EventInput)
    (named : event.id ≠ "" ∧ event.eventType ≠ "" ∧ event.createdAt ≠ "")
    (version : 1 ≤ event.schemaVersion)
    (fresh : (runId, event.id) ∉ db.events.rows.map EventRow.unique)
    (recorded : commandId = "" ∨ (runId, commandId) ∈ db.commands.rows.map CommandRow.key) :
    ∃ row events, (appendEventInTx runId commandId event).eval db = (.ok row, db.setEvents events) ∧
      events.rows = db.events.rows ++ [event.row runId commandId (db.nextSequence runId)] := by
  obtain ⟨events, inserted, stored⟩ := insertEvent_fresh db event fresh recorded
  have absent : db.eventById runId event.id = none := Ledger.find?_none.mpr fresh
  have present : (db.setEvents events).eventById runId event.id =
      some (event.row runId commandId (db.nextSequence runId)) :=
    Ledger.find?_some.mpr ⟨stored ▸ List.mem_append_right _ (List.mem_singleton_self _), rfl⟩
  have looked : (fetch fun db => db.eventById runId event.id : Sql _).eval db = (.ok none, db) :=
    fetch_ok.mpr ⟨absent, rfl⟩
  refine ⟨event.row runId commandId (db.nextSequence runId), events, ?_, stored⟩
  unfold appendEventInTx
  rw [ok_bind (require_met (decide_eq_true named)), ok_bind (require_met (decide_eq_true version))]
  refine (ok_bind looked).trans <| (ok_bind (fetch_ok.mpr ⟨rfl, rfl⟩)).trans <|
    (ok_bind inserted).trans ?_
  exact query_ok.mpr ⟨by rw [present], rfl⟩

theorem appendEventInTx_free (db : Database) {runId commandId : String} (event : EventInput)
    (named : event.id ≠ "" ∧ event.eventType ≠ "" ∧ event.createdAt ≠ "")
    (version : 1 ≤ event.schemaVersion)
    (free : ∀ e, db.eventById runId event.id = some e → e = event.row runId commandId e.sequence)
    (recorded : commandId = "" ∨ (runId, commandId) ∈ db.commands.rows.map CommandRow.key) :
    ∃ row events, (appendEventInTx runId commandId event).eval db = (.ok row, db.setEvents events) := by
  cases stored : db.eventById runId event.id with
  | none =>
    obtain ⟨row, events, appended, -⟩ := appendEventInTx_fresh db event named version (Ledger.find?_none.mp stored) recorded
    exact ⟨row, events, appended⟩
  | some existing =>
    have looked : (fetch fun db => db.eventById runId event.id : Sql _).eval db = (.ok (some existing), db) :=
      fetch_ok.mpr ⟨stored, rfl⟩
    refine ⟨existing, db.events, ?_⟩
    unfold appendEventInTx
    rw [ok_bind (require_met (decide_eq_true named)), ok_bind (require_met (decide_eq_true version))]
    exact (ok_bind looked).trans ((ok_bind (require_met (decide_eq_true (free existing stored)))).trans rfl)

/-- Nothing is recorded under the ids that the transition would use. -/
structure ProcessTransition.Fresh (t : ProcessTransition) (db : Database) : Prop where
  key : db.commandByKey t.runId t.effectiveKey = none
  command : (t.runId, t.effectiveKey) ∉ db.commands.rows.map CommandRow.key
  event : (t.runId, t.effectiveKey ++ ":event") ∉ db.events.rows.map EventRow.unique

/-- Nothing is recorded under the ids that the transition would use, but for an event of the same contents. -/
structure ProcessTransition.Recordable (t : ProcessTransition) (db : Database) (payload : Text) (current : ProcessRow) :
    Prop where
  key : db.commandByKey t.runId t.effectiveKey = none
  command : (t.runId, t.effectiveKey) ∉ db.commands.rows.map CommandRow.key
  event : ∀ e, db.eventById t.runId (t.effectiveKey ++ ":event") = some e →
    e = (t.event payload current).row t.runId t.effectiveKey e.sequence

theorem ProcessTransition.Fresh.recordable {t : ProcessTransition} (fresh : t.Fresh db) (payload : Text)
    (current : ProcessRow) : t.Recordable db payload current where
  key := fresh.key
  command := fresh.command
  event e stored := by
    have absent : db.eventById t.runId (t.effectiveKey ++ ":event") = none := Ledger.find?_none.mpr fresh.event
    rw [absent] at stored
    cases stored

/-- The attempts of a row are within its bounds. -/
def Counted (row : ProcessRow) : Prop :=
  0 ≤ row.attempt ∧ 1 ≤ row.maxAttempts ∧ row.attempt ≤ row.maxAttempts

instance (row : ProcessRow) : Decidable (Counted row) := inferInstanceAs (Decidable (_ ∧ _ ∧ _))

/-- The lease of a row, when there is one, is the actor's. -/
def Owned (row : ProcessRow) (actor : String) : Prop := row.leaseOwner = "" ∨ row.leaseOwner = actor

/-- The checks that a transition under a fresh key makes on the row. -/
structure ProcessTransition.Permits (t : ProcessTransition) (row : ProcessRow) : Prop where
  counted : Counted row
  legal : t.legal row = true
  left : t.toStatus = .retryWait → row.attempt < row.maxAttempts
  owned : t.checksOwner = true → Owned row t.actor

namespace ProcessTransition

variable {t : ProcessTransition} {current row : ProcessRow} {output error : Text}

/-- The row that a transition leaves. -/
def moved (t : ProcessTransition) (output error : Text) (current : ProcessRow) : ProcessRow :=
  t.update (t.storedOutput output current) (t.storedError error current) output current

theorem eventId_ne (t : ProcessTransition) : t.effectiveKey ++ ":event" ≠ "" := by
  intro same
  have letters := congrArg String.toList same
  simp at letters

theorem of_recordable (admits : t.Admits db current output error)
    (recordable : t.Recordable db (t.payload output error current) current) (permits : t.Permits current) :
    ∃ db', (transitionProcess t).eval db = (.ok (t.moved output error current), db') ∧
      db'.processes.find? (t.runId, t.processId) = some (t.moved output error current) := by
  let f := t.update (t.storedOutput output current) (t.storedError error current) output
  let updated := db.setProcesses (db.processes.modify (t.runId, t.processId) f fun _ => rfl)
  have changed : updated.processes.find? (t.runId, t.processId) = some (f current) :=
    Table.find?_modified admits.found f fun _ => rfl
  obtain ⟨commands, inserted, stored⟩ := insertCommand_fresh updated
    (t.command (t.payload output error current)) recordable.command recordable.key
  have recorded : (t.runId, t.effectiveKey) ∈ commands.rows.map CommandRow.key :=
    List.mem_map.mpr ⟨_, stored ▸ List.mem_append_right _ (List.mem_singleton_self _), rfl⟩
  obtain ⟨event, events, appended⟩ := appendEventInTx_free (updated.setCommands commands)
    (t.event (t.payload output error current) current)
    ⟨t.eventId_ne, by cases h : t.toStatus <;> simp [ProcessTransition.event, h,
      transitionEventType], admits.timed⟩ le_rfl recordable.event (.inr recorded)
  have same : ProcessTransition.unchanged current current = true := by
    simp [ProcessTransition.unchanged]
  have body : (transitionBody t output error current).eval db =
      (.ok (), (updated.setCommands commands).setEvents events) :=
    (ok_bind (getProcess_ok.mpr ⟨admits.known, admits.found, rfl⟩)).trans <|
      (ok_bind (require_met same)).trans <|
      (ok_bind (updateProcess_met _ f _ admits.found (decide_eq_true rfl))).trans <|
      (ok_bind (require_met (decide_eq_true rfl))).trans <| (ok_bind inserted).trans <|
      (ok_bind appended).trans rfl
  refine ⟨(updated.setCommands commands).setEvents events, ?_, changed⟩
  rw [admits.eval, recordable.key]
  have attempts : ¬ (t.toStatus = .retryWait ∧ current.maxAttempts ≤ current.attempt) :=
    fun spent => absurd (permits.left spent.1) (Int.not_lt.mpr spent.2)
  have owner : ¬ (t.checksOwner ∧ current.leaseOwner ≠ "" ∧ current.leaseOwner ≠ t.actor) :=
    fun held => (permits.owned held.1).elim held.2.1 held.2.2
  exact (ok_bind (require_met (decide_eq_true permits.counted))).trans <|
    (ok_bind (require_met permits.legal)).trans <|
    (ok_bind (require_met (decide_eq_true attempts))).trans <|
    (ok_bind (require_met (decide_eq_true owner))).trans <|
    (ok_bind (transact_ok.mpr body)).trans (getProcess_ok.mpr ⟨admits.known, changed, rfl⟩)

theorem of_fresh (admits : t.Admits db current output error) (fresh : t.Fresh db)
    (permits : t.Permits current) :
    ∃ db', (transitionProcess t).eval db = (.ok (t.moved output error current), db') ∧
      db'.processes.find? (t.runId, t.processId) = some (t.moved output error current) :=
  of_recordable admits (fresh.recordable _ _) permits

theorem of_ok (unused : db.commandByKey t.runId t.effectiveKey = none)
    (h : (transitionProcess t).eval db = (.ok row, db')) :
    ∃ current output error, t.Admits db current output error ∧ t.Permits current ∧
      db'.processes.find? (t.runId, t.processId) = some (t.moved output error current) := by
  obtain ⟨current, output, error, admits⟩ := admits_of_ok h
  rw [admits.eval, unused] at h
  have written := (settle_written admits h).2
  simp only [settle, bind_ok, require_ok, decide_eq_true_eq] at h
  obtain ⟨_, _, ⟨counted, rfl⟩, _, _, ⟨legal, rfl⟩, _, _, ⟨attempts, rfl⟩, _, _, ⟨owner, rfl⟩,
    -⟩ := h
  refine ⟨current, output, error, admits, ⟨counted, legal, fun retried => ?_, fun checks => ?_⟩, ?_⟩
  · by_contra spent
    exact attempts ⟨retried, Int.not_lt.mp spent⟩
  · by_cases free : current.leaseOwner = ""
    · exact .inl free
    · exact .inr (not_not.mp fun other => owner ⟨checks, free, other⟩)
  · cases written with
    | act found _ processes _ =>
      obtain rfl := Option.some.inj (found.symm.trans admits.found)
      rw [processes, if_pos rfl]
      rfl

/-- A transition that moves its row. -/
structure Movable (t : ProcessTransition) (db : Database) (current : ProcessRow) (output error : Text) : Prop where
  admits : t.Admits db current output error
  permits : t.Permits current
  recordable : t.Recordable db (t.payload output error current) current

theorem recordable_of_settle {row : ProcessRow} (unused : db.commandByKey t.runId t.effectiveKey = none)
    (h : (t.settle current output error none).eval db = (.ok row, db')) :
    t.Recordable db (t.payload output error current) current := by
  simp only [settle, transitionBody, bind_ok, require_ok, transact_ok, getProcess_ok, pure_ok] at h
  obtain ⟨_, _, ⟨-, rfl⟩, _, _, ⟨-, rfl⟩, _, _, ⟨-, rfl⟩, _, _, ⟨-, rfl⟩, _, _,
    ⟨_, _, ⟨-, -, rfl⟩, _, _, ⟨-, rfl⟩, _, _, update, _, _, ⟨changed, rfl⟩, _, _, command, _, _, event, -, rfl⟩, -⟩ := h
  obtain ⟨old, stored, -, rfl⟩ := updateProcess_one update (of_decide_eq_true changed)
  obtain ⟨commands, appended, rfl⟩ := insertCommand_ok.mp command
  obtain ⟨⟨fresh, -⟩, -⟩ := Ledger.append?_some.mp appended
  refine ⟨unused, fresh, fun e found => ?_⟩
  simp only [appendEventInTx, bind_ok, require_ok, fetch_ok] at event
  obtain ⟨_, _, ⟨-, rfl⟩, _, _, ⟨-, rfl⟩, _, _, ⟨rfl, rfl⟩, event⟩ := event
  split at event
  · rename_i existing stored
    obtain rfl : existing = e := Option.some.inj (stored.symm.trans found)
    simp only [bind_ok, require_ok, decide_eq_true_eq] at event
    obtain ⟨_, _, ⟨same, -⟩, -⟩ := event
    exact same
  · rename_i absent
    cases absent.symm.trans found

end ProcessTransition

/-- The checks that the transition under a caller's command passes before its row is judged. -/
structure CommandTransition.Admits (t : CommandTransition) (db : Database) (current : ProcessRow)
    (output error : Text) : Prop where
  run : t.command.runId = t.runId
  named : t.command.id ≠ "" ∧ t.command.idempotencyKey ≠ "" ∧ t.command.createdAt ≠ ""
  expected : expectedCommandType t.target = some t.command.commandType
  known : RunKnown db t.runId
  found : db.processes.find? (t.runId, t.processId) = some current
  process : processIdFromPayload t.command.payload "" ≠ "" ∧
    processIdFromPayload t.command.payload "" = t.processId
  attempt : processAttemptFromPayload t.command.payload (-1) < 0 ∨
    current.attempt = processAttemptFromPayload t.command.payload (-1)
  output : t.outputJson.canonical = some output
  error : t.errorJson.canonical = some error

structure CommandTransition.Fresh (t : CommandTransition) (db : Database) : Prop where
  key : db.commandByKey t.runId t.command.idempotencyKey = none
  command : (t.runId, t.command.id) ∉ db.commands.rows.map CommandRow.key

namespace CommandTransition

variable {t : CommandTransition} {current : ProcessRow} {output error : Text}

theorem payload_canonical {payload : Text} (named : processIdFromPayload payload "" ≠ "") :
    payload ≠ .empty ∧ payload.canonical.isSome = true := by
  cases payload with
  | printed value => exact ⟨nofun, rfl⟩
  | other spelling value =>
    cases value with
    | none => exact absurd rfl named
    | some value => exact ⟨fun same => (by cases same), rfl⟩

theorem of_fresh (admits : t.Admits db current output error) (fresh : t.Fresh db)
    (silent : t.events = []) (guarded : t.guard current = .ok ()) :
    ∃ result db', (transitionProcessWithCommand t).eval db = (.ok result, db') ∧
      db'.processes.find? (t.runId, t.processId) = some (t.update output error current) := by
  let f := t.update output error
  obtain ⟨written, read⟩ := payload_canonical admits.process.1
  have payload : t.storedCommand.payload = t.command.payload := if_pos written
  obtain ⟨text, printed⟩ := Option.isSome_iff_exists.mp (payload ▸ read)
  obtain ⟨commands, inserted, -⟩ := insertCommand_fresh db t.storedCommand
    (by simpa [CommandRow.key, storedCommand, admits.run] using fresh.command)
    (by simpa [storedCommand, admits.run] using fresh.key)
  let recorded := db.setCommands commands
  let updated := recorded.setProcesses (recorded.processes.modify (t.runId, t.processId) f
    fun _ => rfl)
  have here : recorded.processes.find? (t.runId, t.processId) = some current := admits.found
  have changed : updated.processes.find? (t.runId, t.processId) = some (f current) :=
    Table.find?_modified here f fun _ => rfl
  have known : RunKnown updated t.runId := admits.known
  have body : (commandTransitionBody t).eval db = (.ok ⟨t.command, [], false⟩, updated) := by
    refine (ok_bind (commandByKey_ok.mpr ⟨fresh.key, rfl⟩)).trans <|
      (ok_bind (requireRun_ok (u := ()).mpr ⟨admits.known, rfl⟩)).trans <|
      (ok_bind (getProcess_ok.mpr ⟨admits.known, admits.found, rfl⟩)).trans <|
      (ok_bind (require_met (decide_eq_true admits.process))).trans <|
      (ok_bind (require_met (decide_eq_true admits.attempt))).trans <|
      (ok_bind (ofExcept_ok.mpr ⟨guarded, rfl⟩)).trans <|
      (ok_bind (ofExcept_ok.mpr ⟨canonicalJsonField_ok.mpr admits.output, rfl⟩)).trans <|
      (ok_bind (ofExcept_ok.mpr ⟨canonicalJsonField_ok.mpr admits.error, rfl⟩)).trans <|
      (ok_bind (ofExcept_ok.mpr ⟨canonicalJsonField_ok.mpr printed, rfl⟩)).trans <|
      (ok_bind inserted).trans <|
      (ok_bind (updateProcess_met (fun r => r.status = current.status) f (fun _ => rfl) here
        (decide_eq_true rfl))).trans <| (ok_bind (require_met (decide_eq_true rfl))).trans ?_
    rw [silent]
    rfl
  refine ⟨⟨f current, ⟨t.command, [], false⟩⟩, updated, ?_, changed⟩
  exact (ok_bind (require_met (decide_eq_true admits.run))).trans <|
    (ok_bind (require_met (decide_eq_true admits.named))).trans <|
    (ok_bind (require_met (decide_eq_true admits.expected))).trans <|
    (ok_bind (transact_ok.mpr body)).trans <|
    (ok_bind (getProcess_ok.mpr ⟨known, changed, rfl⟩)).trans rfl

theorem of_ok {result : ProcessTransitionResult}
    (unused : db.commandByKey t.runId t.command.idempotencyKey = none)
    (h : (transitionProcessWithCommand t).eval db = (.ok result, db')) :
    ∃ current output error, t.Admits db current output error ∧ t.guard current = .ok () ∧
      db'.processes.find? (t.runId, t.processId) = some (t.update output error current) := by
  simp only [transitionProcessWithCommand, bind_ok, require_ok, transact_ok, getProcess_ok,
    pure_ok, decide_eq_true_eq] at h
  obtain ⟨_, _, ⟨run, rfl⟩, _, _, ⟨named, rfl⟩, _, _, ⟨expected, rfl⟩, _, _, body, _, _,
    ⟨-, -, rfl⟩, -, rfl⟩ := h
  simp only [commandTransitionBody, bind_ok, commandByKey_ok, unused] at body
  obtain ⟨_, _, ⟨rfl, rfl⟩, body⟩ := body
  simp only [bind_ok, requireRun_ok, getProcess_ok, require_ok, ofExcept_ok,
    canonicalJsonField_ok, decide_eq_true_eq, pure_ok] at body
  obtain ⟨_, _, ⟨known, rfl⟩, current, _, ⟨-, found, rfl⟩, _, _, ⟨process, rfl⟩, _, _,
    ⟨attempt, rfl⟩, _, _, ⟨guarded, rfl⟩, output, _, ⟨printed, rfl⟩, error, _, ⟨printed', rfl⟩,
    _, _, ⟨-, rfl⟩, _, _, command, _, _, update, _, _, ⟨changed, rfl⟩, _, _, batch, -, rfl⟩ := body
  obtain ⟨commands, -, rfl⟩ := insertCommand_rows command
  obtain ⟨-, -, -, rfl⟩ := updateProcess_one update changed
  obtain ⟨after, -, rfl⟩ := appendEvents_rows batch
  exact ⟨current, output, error,
    ⟨run, named, expected, known, found, process, attempt, printed, printed'⟩, guarded,
    Table.find?_modified found (t.update output error) fun _ => rfl⟩

end CommandTransition

end Fala.Journal
