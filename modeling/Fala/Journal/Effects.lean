import Fala.Journal.Writes

/-! What the operations that only record, and those that schedule, commit. -/

namespace Fala.Journal
open Durable Program

/-- The rows a transaction leaves: it replayed, or made one write. -/
def Commits (P : Write → Prop) (db db' : Database) : Prop :=
  db' = db ∨ ∃ w, P w ∧ Written db w db'

/-- The same, with what the write leaves in the tables beside the processes. -/
def CommitsWith (P : Write → Prop) (R : Database → Prop) (db db' : Database) : Prop :=
  db' = db ∨ ∃ w, P w ∧ Written db w db' ∧ R db'

theorem Commits.does {P : Write → Prop} {db db' : Database} (commits : Commits P db db') :
    Does P db db' := by
  rcases commits with rfl | ⟨w, permitted, written⟩
  · exact .refl _
  · exact .one permitted written

theorem Commits.imp {P Q : Write → Prop} {db db' : Database} (commits : Commits P db db')
    (weaker : ∀ w, P w → Q w) : Commits Q db db' := by
  rcases commits with same | ⟨w, permitted, written⟩
  · exact .inl same
  · exact .inr ⟨w, weaker w permitted, written⟩

/-- Every event is recorded under a run that exists. -/
def EventsHoused (db : Database) : Prop :=
  ∀ e ∈ db.events.rows, (db.runs.find? e.runId).isSome = true

theorem EventsHoused.streamRows_unknown {db : Database} (housed : EventsHoused db) {runId : String}
    (unknown : db.runs.find? runId = none) :
    streamRows EventRow.runId db.events.rows runId = [] := by
  rw [streamRows, List.filter_eq_nil_iff]
  intro e member here
  have found := housed e member
  rw [of_decide_eq_true here, unknown] at found
  cases found

theorem Logged.intro {db db' : Database} {runId : String} {commands : List CommandRow}
    {events : List (String × EventInput)} (runs : db'.runs = db.runs)
    (known : (db.runs.find? runId).isSome = true)
    (stored : db'.commands.rows = db.commands.rows ++ commands)
    (told : EventsStored db'.commands.rows runId events db.events.rows db'.events.rows) :
    Logged db runId commands events db' :=
  ⟨fun id found => by rw [runs]; exact found, by rw [runs]; exact known, stored, told⟩

/-- The rows that a replay of a run creation compares. -/
structure RunCreation.Recorded (r : RunCreation) (db : Database) : Prop where
  command : (db.commandByKey r.runId r.key).any r.sameCommand = true
  event : (db.events.rows.find? fun e => e.runId = r.runId ∧ e.commandId = r.commandId).any
    r.sameEvent = true

theorem createRunBody_ok {r : RunCreation} {u : Unit} {db db' : Database}
    (housed : EventsHoused db) (h : (createRunBody r).eval db = (.ok u, db')) :
    ((db.runs.find? r.runId).any r.sameRun = true ∧ r.Recorded db ∧ db' = db) ∨
      (Written db (.record r.runId [r.command] [(r.commandId, r.event)]) db' ∧
        db'.runs.find? r.runId = some r.row ∧
        streamRows EventRow.runId db.events.rows r.runId = []) := by
  simp only [createRunBody, bind_ok, fetch_ok] at h
  obtain ⟨_, _, ⟨rfl, rfl⟩, h⟩ := h
  cases found : db.runs.find? r.runId with
  | some existing =>
    simp only [found, bind_ok, require_ok, commandByKey_ok, fetch_ok] at h
    obtain ⟨_, _, ⟨same, rfl⟩, _, _, ⟨rfl, rfl⟩, _, _, ⟨command, rfl⟩, _, _, ⟨rfl, rfl⟩, event,
      rfl⟩ := h
    exact .inl ⟨same, ⟨command, event⟩, rfl⟩
  | none =>
    simp only [found, bind_ok, insertRun_ok, insertEvent_ok] at h
    obtain ⟨_, _, ⟨runs, inserted, rfl⟩, _, _, command, referenced, events, appended, rfl⟩ := h
    obtain ⟨commands, stored, rfl⟩ := insertCommand_rows command
    have unheard := housed.streamRows_unknown found
    have first : nextSequence EventRow.runId EventRow.sequence db.events.rows r.runId = 1 := by
      rw [nextSequence, unheard]
      rfl
    obtain ⟨⟨-, fresh⟩, rows⟩ := Ledger.append?_some.mp appended
    have created : runs.find? r.runId = some r.row :=
      (Table.find?_insert inserted _).trans (if_pos rfl)
    refine .inr ⟨.record rfl ⟨fun id known => ?_, ?_, stored, .one ?_⟩, created, unheard⟩
    · simp only [Database.setRuns, Database.setCommands, Database.setEvents,
        Table.find?_insert inserted]
      split
      · rfl
      · exact known
    · exact Option.isSome_of_eq_some created
    · simp only [Database.setEvents, rows]
      rw [← first]
      exact .appended fresh referenced

theorem createRun_settles (r : RunCreation) {db : Database} (housed : EventsHoused db) :
    (createRun r).Settles db
      (CommitsWith (· = .record r.runId [r.command] [(r.commandId, r.event)])
        (fun db' => db'.runs.find? r.runId = some r.row) db) := by
  refine .require fun _ => .require fun _ => .thenRead (.transact fun _ db' h => ?_)
    fun _ => .query _
  rcases createRunBody_ok housed h with ⟨-, -, same⟩ | ⟨written, created, -⟩
  · exact .inl same
  · exact .inr ⟨_, rfl, written, created⟩

theorem appendCommand_settles (c : CommandAppend) (db : Database) :
    (appendCommand c).Settles db (Commits (· = .record c.runId [c.row] []) db) := by
  refine .afterRead (requireRun_reads _) fun _ known => .require fun _ => .transact fun _ db' h => ?_
  obtain ⟨⟨-, known⟩, -⟩ := requireRun_ok.mp known
  simp only [bind_ok, commandByKey_ok] at h
  obtain ⟨_, _, ⟨rfl, rfl⟩, h⟩ := h
  cases found : db.commandByKey c.runId c.idempotencyKey with
  | some stored =>
    simp only [found, bind_ok, require_ok, pure_ok] at h
    obtain ⟨_, _, ⟨-, rfl⟩, -, rfl⟩ := h
    exact .inl rfl
  | none =>
    simp only [found, bind_ok, pure_ok] at h
    obtain ⟨_, _, command, -, rfl⟩ := h
    obtain ⟨commands, stored, rfl⟩ := insertCommand_rows command
    exact .inr ⟨_, rfl, .record rfl (.intro rfl known stored .nil)⟩

theorem submitCommand_settles (c : CommandAppend) (events : List EventInput) (db : Database) :
    (submitCommand c events).Settles db
      (Commits (· = .record c.runId [c.row]
        (events.map fun event => (c.commandId, event.inherit c.row))) db) := by
  refine .transact fun _ db' h => ?_
  simp only [bind_ok, commandByKey_ok] at h
  obtain ⟨_, _, ⟨rfl, rfl⟩, h⟩ := h
  cases found : db.commandByKey c.runId c.idempotencyKey with
  | some stored =>
    simp only [found, pure_ok] at h
    obtain ⟨-, rfl⟩ := h
    exact .inl rfl
  | none =>
    simp only [found, bind_ok, require_ok, requireRun_ok, fetch_ok, pure_ok] at h
    obtain ⟨_, _, ⟨-, rfl⟩, _, _, ⟨⟨-, known⟩, rfl⟩, _, _, ⟨-, rfl⟩, _, _, ⟨-, rfl⟩, _, _, ⟨-, rfl⟩,
      _, _, command, _, _, batch, -, rfl⟩ := h
    obtain ⟨commands, stored, rfl⟩ := insertCommand_rows command
    obtain ⟨after, told, rfl⟩ := appendEvents_rows batch
    exact .inr ⟨_, rfl, .record rfl (.intro rfl known stored told)⟩

theorem appendEvent_settles (runId commandId : String) (event : EventInput) (db : Database) :
    (appendEvent runId commandId event).Settles db
      (Commits (· = .record runId [] [(commandId, event)]) db) := by
  refine .afterRead (requireRun_reads _) fun _ known => .transact fun _ db' h => ?_
  obtain ⟨⟨-, known⟩, -⟩ := requireRun_ok.mp known
  obtain ⟨after, told, rfl⟩ := appendEventInTx_rows h
  exact .inr ⟨_, rfl, .record rfl (.intro rfl known (List.append_nil _).symm (.one told))⟩

theorem transitionRunStatus_settles (t : RunTransition) (db : Database) :
    (transitionRunStatus t).Settles db
      (CommitsWith (· = .record t.runId [t.command] [(t.idempotencyKey, t.event)])
        (fun db' => (db'.runs.find? t.runId).any fun r => r.status = t.target) db) := by
  refine .afterRead (requireRun_reads _) fun _ known => .require fun _ =>
    .afterRead (.query _) fun current _ => .afterRead (commandByKey_reads _ _) fun found _ => ?_
  obtain ⟨⟨-, known⟩, -⟩ := requireRun_ok.mp known
  cases found with
  | some prior => exact .ofReadOnly (.bind (.require _ _) fun _ => .pure _)
  | none =>
    refine .require fun _ => .thenRead (.transact fun _ db' h => ?_)
      fun _ => .bind (.query _) fun _ => .pure _
    simp only [bind_ok, require_ok, fetch_ok, insertEvent_ok, decide_eq_true_eq] at h
    obtain ⟨_, _, command, _, _, update, _, _, ⟨changed, rfl⟩, _, _, ⟨rfl, rfl⟩,
      referenced, events, appended, rfl⟩ := h
    obtain ⟨commands, stored, rfl⟩ := insertCommand_rows command
    obtain ⟨found, rfl⟩ := updateWhere_one update changed
    obtain ⟨row, found, -⟩ := (Option.any_eq_true _ _).mp found
    obtain ⟨⟨-, fresh⟩, rows⟩ := Ledger.append?_some.mp appended
    have moved := Table.any_modify (p := fun r => r.status = t.target) found t.update
      (fun _ => rfl) (decide_eq_true rfl)
    have runs (id : String) :
        ((db.runs.modify t.runId t.update fun _ => rfl).find? id).isSome =
          (db.runs.find? id).isSome := Table.isSome_modify ..
    refine .inr ⟨_, rfl, .record rfl
      ⟨fun id found => (runs id).trans found, (runs _).trans known, stored, .one ?_⟩, moved⟩
    · simp only [Database.setEvents, rows]
      exact .appended fresh referenced

/-- The row that a schedule inserts, and the log of it. -/
def ProcessSchedule.Inserts (s : ProcessSchedule) (w : Write) : Prop :=
  ∃ input metadata schema : Text,
    (s.inputJson.canonical = some input ∧ s.metadata.canonical = some metadata) ∧
      w = .schedule (s.row input metadata schema)
        [s.command (s.payload input metadata)] [(s.key, s.event (s.payload input metadata))]

theorem scheduleBody_ok {s : ProcessSchedule} {id : String} {db db' : Database}
    (known : (db.runs.find? s.runId).isSome = true)
    (h : (scheduleBody s).eval db = (.ok id, db')) :
    ((∃ prior, db.commandByKey s.runId s.key = some prior ∧
        processIdFromPayload prior.payload "" = id ∧ id ≠ "") ∧ db' = db) ∨
      (id = s.processId ∧ ∃ w, s.Inserts w ∧ Written db w db') := by
  simp only [scheduleBody, bind_ok, commandByKey_ok] at h
  obtain ⟨_, _, ⟨rfl, rfl⟩, h⟩ := h
  cases found : db.commandByKey s.runId s.key with
  | some prior =>
    simp only [found, bind_ok, require_ok, pure_ok, decide_eq_true_eq] at h
    obtain ⟨_, _, ⟨named, rfl⟩, rfl, rfl⟩ := h
    exact .inl ⟨⟨prior, rfl, rfl, named⟩, rfl⟩
  | none =>
    simp only [found, bind_ok, ofExcept_ok, canonicalJsonField_ok, fetch_ok] at h
    obtain ⟨input, _, ⟨printed, rfl⟩, metadata, _, ⟨printed', rfl⟩, schema, _, ⟨-, rfl⟩, _, _,
      ⟨rfl, rfl⟩, h⟩ := h
    cases taken : db.processes.find? (s.runId, s.processId) with
    | some existing =>
      simp only [taken, bind_ok, raise_ok, and_false, exists_false] at h
    | none =>
      simp only [taken, bind_ok, pure_ok, insertProcess_ok] at h
      obtain ⟨_, _, ⟨-, processes, inserted, rfl⟩, _, _, command, _, _, event, rfl, rfl⟩ := h
      obtain ⟨commands, stored, rfl⟩ := insertCommand_rows command
      obtain ⟨after, told, rfl⟩ := appendEventInTx_rows event
      exact .inr ⟨rfl, _, ⟨input, metadata, schema, ⟨printed, printed'⟩, rfl⟩,
        .schedule inserted (.intro rfl known stored (.one told))⟩

theorem scheduleProcess_settles (s : ProcessSchedule) (db : Database) :
    (scheduleProcess s).Settles db
      (Commits (fun w => 1 ≤ s.maxAttempts ∧ s.Inserts w) db) := by
  refine .afterRead (requireRun_reads _) fun _ known => .require fun valid =>
    .thenRead (.transact fun _ db' h => ?_) fun _ => getProcess_reads _ _
  obtain ⟨⟨-, known⟩, -⟩ := requireRun_ok.mp known
  rcases scheduleBody_ok known h with ⟨-, same⟩ | ⟨-, w, inserts, written⟩
  · exact .inl same
  · exact .inr ⟨w, ⟨(of_decide_eq_true valid).2.2.2, inserts⟩, written⟩

/-- The row that `schedule_process_with_command` inserts, and the log of it. -/
def SuppliedBy (process : ProcessRow) (command : CommandRow) (events : List EventInput)
    (w : Write) : Prop :=
  ∃ input metadata schema : Text,
    w = .schedule { process with inputJson := input, metadata, outputSchemaJson := schema }
      [command] (events.map fun event => (command.id, event.inherit command))

theorem scheduleProcessWithCommand_settles (process : ProcessRow) (command : CommandRow)
    (events : List EventInput) (db : Database) :
    (scheduleProcessWithCommand process command events).Settles db
      (Commits (fun w => 1 ≤ process.maxAttempts ∧
        (process.status = .pending ∨ process.status = .ready) ∧
          SuppliedBy process command events w) db) := by
  refine .require fun _ => .require fun _ => .require fun _ => .transact fun _ db' h => ?_
  simp only [bind_ok, commandByKey_ok] at h
  obtain ⟨_, _, ⟨rfl, rfl⟩, h⟩ := h
  cases found : db.commandByKey command.runId command.idempotencyKey with
  | some stored =>
    simp only [found, pure_ok] at h
    obtain ⟨-, rfl⟩ := h
    exact .inl rfl
  | none =>
    simp only [found, bind_ok, require_ok, requireRun_ok, ofExcept_ok, fetch_ok, pure_ok,
      insertProcess_ok, decide_eq_true_eq] at h
    obtain ⟨_, _, ⟨⟨-, known⟩, rfl⟩, _, _, ⟨⟨-, -, -, attempts⟩, rfl⟩, _, _, ⟨opening, rfl⟩,
      input, _, ⟨-, rfl⟩, metadata, _, ⟨-, rfl⟩, schema, _, ⟨-, rfl⟩, _, _, ⟨-, rfl⟩,
      _, _, ⟨-, rfl⟩, _, _, ⟨-, processes, inserted, rfl⟩, _, _, insertion, _, _, batch, -, rfl⟩ := h
    obtain ⟨commands, stored, rfl⟩ := insertCommand_rows insertion
    obtain ⟨after, told, rfl⟩ := appendEvents_rows batch
    exact .inr ⟨_, ⟨attempts, opening, input, metadata, schema, rfl⟩,
      .schedule inserted (.intro rfl known stored told)⟩

end Fala.Journal

/-! When a transition of a run returns, and what it leaves. -/

namespace Fala.Journal
open Durable Program

namespace RunTransition

variable {t : RunTransition} {db db' : Database} {run : RunRecord}

def Named (t : RunTransition) : Prop := t.target ≠ "" ∧ t.at_ ≠ "" ∧ t.idempotencyKey ≠ ""

/-- Nothing is recorded under the ids that the transition would use. -/
structure Fresh (t : RunTransition) (db : Database) : Prop where
  key : db.commandByKey t.runId t.idempotencyKey = none
  command : (t.runId, t.idempotencyKey) ∉ db.commands.rows.map CommandRow.key
  event : (t.runId, t.idempotencyKey ++ ":event") ∉ db.events.rows.map EventRow.unique

theorem readRunRow_ok {runId missing : String} {row : RunRow} :
    (readRunRow runId missing).eval db = (.ok row, db') ↔
      (∃ run, db.runs.find? runId = some run ∧ row = .ofRecord run) ∧ db = db' := by
  simp only [readRunRow, query_ok]
  cases db.runs.find? runId <;> simp [eq_comm]

theorem of_ok {result : RunTransitionResult} (found : db.runs.find? t.runId = some run)
    (h : (transitionRunStatus t).eval db = (.ok result, db')) :
    ((∃ prior, db.commandByKey t.runId t.idempotencyKey = some prior ∧
        t.sameCommand prior = true) ∧ db' = db) ∨
      t.Fresh db ∧ canTransitionRun (.ofValue run.status) (.ofValue t.target) = true ∧
        db'.runs.find? t.runId = some (t.update run) ∧
        db'.commandByKey t.runId t.idempotencyKey = some t.command := by
  unfold transitionRunStatus at h
  simp only [bind_ok, requireRun_ok, require_ok, readRunRow_ok, commandByKey_ok] at h
  obtain ⟨_, _, ⟨-, rfl⟩, _, _, ⟨-, rfl⟩, _, _, ⟨⟨current, here, rfl⟩, rfl⟩, prior, _, ⟨key, rfl⟩,
    h⟩ := h
  obtain rfl := Option.some.inj (found.symm.trans here)
  cases prior with
  | some prior =>
    simp only [bind_ok, require_ok, pure_ok] at h
    obtain ⟨_, _, ⟨same, rfl⟩, -, rfl⟩ := h
    exact .inl ⟨⟨prior, key, same⟩, rfl⟩
  | none =>
    simp only [bind_ok, require_ok, transact_ok, fetch_ok, insertEvent_ok, insertCommand_ok,
      readRunRow_ok, pure_ok, decide_eq_true_eq] at h
    obtain ⟨_, _, ⟨legal, rfl⟩, _, _, ⟨_, _, ⟨commands, recorded, rfl⟩, _, _, update, _, _,
      ⟨changed, rfl⟩, _, _, ⟨-, rfl⟩, -, events, appended, rfl⟩, _, _, ⟨-, rfl⟩, -, rfl⟩ := h
    obtain ⟨-, rfl⟩ := updateWhere_one update changed
    refine .inr ⟨⟨key, (Ledger.append?_some.mp recorded).1.1,
      (Ledger.append?_some.mp appended).1.2⟩, legal,
      Table.find?_modified found t.update fun _ => rfl, Ledger.find?_some.mpr ⟨?_, rfl⟩⟩
    have rows := (Ledger.append?_some.mp recorded).2
    exact (congrArg (t.command ∈ ·) rows).mpr (List.mem_append_right _ (List.mem_singleton_self _))

theorem of_fresh (named : t.Named) (known : t.runId ≠ "")
    (found : db.runs.find? t.runId = some run) (fresh : t.Fresh db)
    (legal : canTransitionRun (.ofValue run.status) (.ofValue t.target) = true) :
    ∃ result db', (transitionRunStatus t).eval db = (.ok result, db') ∧
      db'.runs.find? t.runId = some (t.update run) := by
  have exists_ : RunKnown db t.runId := ⟨known, Option.isSome_of_eq_some found⟩
  have unique : t.command.unique ∉ db.commands.rows.map CommandRow.unique :=
    Ledger.find?_none.mp fresh.key
  obtain ⟨commands, recorded, stored⟩ := Ledger.append?_of_fresh fresh.command unique
  let event := t.event.row t.runId t.idempotencyKey (db.nextSequence t.runId)
  have unused : event.key ∉ db.events.rows.map EventRow.key := by
    intro member
    obtain ⟨e, member, same⟩ := List.mem_map.mp member
    have below : e.sequence < db.nextSequence t.runId :=
      nextSequence_fresh db.events.rows t.runId member (congrArg Prod.fst same)
    exact absurd (congrArg Prod.snd same) (Nat.ne_of_lt below)
  obtain ⟨events, appended, -⟩ := Ledger.append?_of_fresh unused fresh.event
  have moved : (db.runs.modify t.runId t.update fun _ => rfl).find? t.runId =
      some (t.update run) := Table.find?_modified found t.update fun _ => rfl
  refine ⟨⟨.ofRecord (t.update run), false⟩,
    ((db.setCommands commands).setRuns (db.runs.modify t.runId t.update fun _ => rfl)).setEvents
      events, ?_, moved⟩
  unfold transitionRunStatus
  rw [ok_bind (requireRun_ok (u := ()).mpr ⟨exists_, rfl⟩),
    ok_bind (require_met (decide_eq_true ⟨named.1, named.2⟩)),
    ok_bind (readRunRow_ok.mpr ⟨⟨run, found, rfl⟩, rfl⟩),
    ok_bind (commandByKey_ok.mpr ⟨fresh.key, rfl⟩)]
  refine (ok_bind (require_met legal)).trans <| (ok_bind (a := ()) (transact_ok.mpr ?_)).trans
    (ok_bind (readRunRow_ok.mpr ⟨⟨_, moved, rfl⟩, rfl⟩))
  refine (ok_bind (insertCommand_ok (u := ()).mpr ⟨commands, recorded, rfl⟩)).trans <|
    (ok_bind (updateWhere_met ?_)).trans <| (ok_bind (require_met (decide_eq_true rfl))).trans <|
      (ok_bind (fetch_ok.mpr ⟨rfl, rfl⟩)).trans
        (insertEvent_ok.mpr ⟨.inr ?_, events, appended, rfl⟩)
  · simp [Database.setCommands, found, RunRow.ofRecord]
  · exact List.mem_map_of_mem (stored ▸ List.mem_append_right _ (List.mem_singleton_self _))

theorem known_of_ok {result : RunTransitionResult}
    (h : (transitionRunStatus t).eval db = (.ok result, db')) :
    t.Named ∧ t.runId ≠ "" ∧ ∃ run, db.runs.find? t.runId = some run := by
  unfold transitionRunStatus at h
  simp only [bind_ok, requireRun_ok, require_ok, readRunRow_ok, decide_eq_true_eq] at h
  obtain ⟨_, _, ⟨⟨known, -⟩, rfl⟩, _, _, ⟨named, rfl⟩, _, _, ⟨⟨run, found, -⟩, rfl⟩, -⟩ := h
  exact ⟨named, known, run, found⟩

theorem restores (t : RunTransition) (db : Database) : (transitionRunStatus t).Restores db := by
  refine .afterRead (requireRun_reads _) fun _ _ => .require fun _ =>
    .afterRead (.query _) fun current known => .afterRead (commandByKey_reads _ _) fun found _ => ?_
  obtain ⟨⟨run, here, -⟩, -⟩ := readRunRow_ok.mp known
  cases found with
  | some prior => exact .ofReadOnly (.bind (.require _ _) fun _ => .pure _)
  | none =>
    refine .require fun _ => .followed (.transact _ _) fun _ db' body => ?_
    simp only [transact_ok, bind_ok, require_ok, fetch_ok, insertEvent_ok, insertCommand_ok,
      decide_eq_true_eq] at body
    obtain ⟨_, _, ⟨commands, -, rfl⟩, _, _, update, _, _, ⟨changed, rfl⟩, _, _, ⟨-, rfl⟩, -, events,
      -, rfl⟩ := body
    obtain ⟨-, rfl⟩ := updateWhere_one update changed
    have moved : (db.runs.modify t.runId t.update fun _ => rfl).find? t.runId =
        some (t.update run) := Table.find?_modified here t.update fun _ => rfl
    rw [ok_bind (readRunRow_ok.mpr ⟨⟨_, moved, rfl⟩, rfl⟩)]
    rfl

end RunTransition
end Fala.Journal
