import Fala.Engine.Repeats
import Fala.Journal.Repeat
import Fala.Port.Sqlite
import Fala.Memory.Journal

/-! What an answered batch recorded under its key. -/

namespace Fala.Port
open Durable Journal Program Memory

variable {digest : Json → String} {db db' : Database}

/-- A call recorded its command under a key, or found that key in use and wrote nothing. -/
inductive Took (k : String × String) (db : Database) : Database → Prop
  | again (found : (db.commandByKey k.1 k.2).isSome = true) : Took k db db
  | first {db' : Database} (row : CommandRow) (here : (row.runId, row.idempotencyKey) = k)
      (rows : db'.commands.rows = db.commands.rows ++ [row]) : Took k db db'

theorem Took.of_written {w : Write} {row : CommandRow} (written : Written db w db')
    (recorded : (w.log db).2.1 = [row]) : Took (row.runId, row.idempotencyKey) db db' :=
  .first row rfl (by rw [written.logged.stored, recorded])

namespace Took

variable {k : String × String}

theorem held (took : Took k db db') : (db'.commandByKey k.1 k.2).isSome = true := by
  cases took with
  | again found => exact found
  | first row here rows =>
    have stored : db'.commandByKey k.1 k.2 = some row :=
      Ledger.find?_some.mpr ⟨rows ▸ List.mem_append_right _ (List.mem_singleton_self row), here⟩
    rw [stored]
    rfl

theorem fresh {row : CommandRow} (rows : db'.commands.rows = db.commands.rows ++ [row]) :
    db.commandByKey row.runId row.idempotencyKey = none := by
  have distinct := db'.commands.uniqueDistinct
  rw [rows, List.map_append, List.nodup_append] at distinct
  refine Ledger.find?_none.mpr fun member => ?_
  exact distinct.2.2 _ member _ (List.mem_singleton_self _) rfl

theorem keys (took : Took k db db') (runId key : String) :
    (db'.commandByKey runId key).isSome = true ↔
      (db.commandByKey runId key).isSome = true ∨ (runId, key) = k := by
  cases took with
  | again found =>
    refine ⟨.inl, ?_⟩
    rintro (held | rfl)
    · exact held
    · exact found
  | first row here rows =>
    subst here
    by_cases same : (runId, key) = (row.runId, row.idempotencyKey)
    · obtain ⟨rfl, rfl⟩ := Prod.mk.inj same
      have stored : db'.commandByKey row.runId row.idempotencyKey = some row :=
        Ledger.find?_some.mpr ⟨rows ▸ List.mem_append_right _ (List.mem_singleton_self row), rfl⟩
      simp [stored]
    · have kept : db'.commandByKey runId key = db.commandByKey runId key :=
        Ledger.find?_append rows (runId, key) (.inr fun here => same here.symm)
      simp [kept, same]

theorem unchanged (took : Took k db db') (found : (db.commandByKey k.1 k.2).isSome = true) : db' = db := by
  cases took with
  | again => rfl
  | first row here rows =>
    subst here
    rw [fresh rows] at found
    cases found

end Took

/-- The run and the key that a call records its command under. -/
def PortCall.key : PortCall → String × String
  | .createRun r => (r.runId, r.key)
  | .scheduleProcess s => (s.runId, s.key)
  | .completeProcess runId processId workerId completedAt outputJson errorJson =>
    (runId, (TransitionCall.completeProcess runId processId workerId completedAt outputJson
      errorJson).transition.effectiveKey)
  | .submitCommand c _ => (c.runId, c.idempotencyKey)

theorem createRun_took {r : RunCreation} {row : Journal.RunRow} (h : (createRun r).eval db = (.ok row, db')) :
    Took (r.runId, r.key) db db' ∧
      ((db.runs.find? r.runId).isSome = true ↔ (db.commandByKey r.runId r.key).isSome = true) := by
  simp only [createRun, bind_ok, require_ok, transact_ok, RunTransition.readRunRow_ok] at h
  obtain ⟨_, _, ⟨-, rfl⟩, _, _, ⟨-, rfl⟩, _, _, body, -, rfl⟩ := h
  simp only [createRunBody, bind_ok, fetch_ok] at body
  obtain ⟨_, _, ⟨rfl, rfl⟩, body⟩ := body
  cases found : db.runs.find? r.runId with
  | some existing =>
    simp only [found, bind_ok, require_ok, commandByKey_ok, fetch_ok] at body
    obtain ⟨_, _, ⟨-, rfl⟩, _, _, ⟨rfl, rfl⟩, _, _, ⟨command, rfl⟩, _, _, ⟨rfl, rfl⟩, -, rfl⟩ := body
    have held : (db.commandByKey r.runId r.key).isSome = true := by
      obtain ⟨prior, found, -⟩ := (Option.any_eq_true _ _).mp command
      exact Option.isSome_of_eq_some found
    exact ⟨.again held, by simp [held]⟩
  | none =>
    simp only [found, bind_ok, insertRun_ok, insertEvent_ok] at body
    obtain ⟨_, _, ⟨runs, -, rfl⟩, _, _, command, -, events, -, rfl⟩ := body
    obtain ⟨commands, stored, rfl⟩ := insertCommand_rows command
    refine ⟨.first r.command rfl stored, ?_⟩
    have free : db.commandByKey r.command.runId r.command.idempotencyKey = none :=
      @Took.fresh db (((db.setRuns runs).setCommands commands).setEvents events) r.command stored
    have free : db.commandByKey r.runId r.key = none := free
    simp [free]

theorem scheduleProcess_took {s : ProcessSchedule} {row : ProcessRow}
    (h : (scheduleProcess s).eval db = (.ok row, db')) :
    Took (s.runId, s.key) db db' ∧
      hasCommand db s.runId s.key = (db.commandByKey s.runId s.key).isSome := by
  simp only [scheduleProcess, bind_ok, requireRun_ok, require_ok, transact_ok, getProcess_ok] at h
  obtain ⟨_, _, ⟨known, rfl⟩, _, _, ⟨-, rfl⟩, id, _, body, -, -, rfl⟩ := h
  have held : hasCommand db s.runId s.key = (db.commandByKey s.runId s.key).isSome := by
    simp [hasCommand, known.1, known.2]
  refine ⟨?_, held⟩
  rcases scheduleBody_ok known.2 body with ⟨⟨prior, found, -⟩, rfl⟩ |
    ⟨-, w, ⟨input, metadata, schema, -, rfl⟩, written⟩
  · exact .again (Option.isSome_of_eq_some found)
  · exact .of_written written rfl

theorem submitCommand_took {c : CommandAppend} {events : List EventInput} {s : CommandSubmission}
    (h : (submitCommand c events).eval db = (.ok s, db')) :
    Took (c.runId, c.idempotencyKey) db db' ∧
      s.replayed = (db.commandByKey c.runId c.idempotencyKey).isSome ∧
        db'.commandByKey c.runId c.idempotencyKey = some s.command := by
  simp only [submitCommand, transact_ok, bind_ok, commandByKey_ok] at h
  obtain ⟨_, _, ⟨rfl, rfl⟩, h⟩ := h
  cases found : db.commandByKey c.runId c.idempotencyKey with
  | some stored =>
    simp only [found, pure_ok] at h
    obtain ⟨rfl, rfl⟩ := h
    exact ⟨.again (Option.isSome_of_eq_some found), rfl, found⟩
  | none =>
    simp only [found, bind_ok, require_ok, requireRun_ok, fetch_ok, pure_ok] at h
    obtain ⟨_, _, ⟨-, rfl⟩, _, _, ⟨-, rfl⟩, _, _, ⟨-, rfl⟩, _, _, ⟨-, rfl⟩, _, _, ⟨-, rfl⟩, _, _,
      command, _, _, appended, rfl, rfl⟩ := h
    obtain ⟨commands, stored, rfl⟩ := insertCommand_rows command
    obtain ⟨after, -, rfl⟩ := appendEvents_rows appended
    refine ⟨.first c.row rfl stored, rfl, ?_⟩
    exact Ledger.find?_some.mpr ⟨stored ▸ List.mem_append_right _ (List.mem_singleton_self _), rfl⟩

theorem transition_took {call : TransitionCall} {row : ProcessRow}
    (h : (call.program digest).eval db = (.ok row, db')) :
    Took (call.transition.runId, call.transition.effectiveKey) db db' := by
  obtain ⟨current, output, error, admits⟩ := TransitionCall.admits_of_ok h
  rw [admits.eval] at h
  cases found : db.commandByKey call.transition.runId call.transition.effectiveKey with
  | some prior =>
    rw [found] at h
    simp only [ProcessTransition.settle, bind_ok, ofExcept_ok, canonicalJsonField_ok, require_ok,
      getProcess_ok] at h
    obtain ⟨stored, _, ⟨-, rfl⟩, _, _, ⟨-, rfl⟩, -, -, rfl⟩ := h
    exact .again (Option.isSome_of_eq_some found)
  | none =>
    rw [found] at h
    obtain ⟨-, written⟩ := ProcessTransition.settle_written admits.transition h
    let row := call.transition.command (call.transition.payload output error current)
    have recorded : ((Write.act call.transition.runId call.transition.processId
        (.transition call.transition output error)).log db).2.1 = [row] := by
      simp only [Write.log, admits.transition.found]
      rfl
    exact .of_written written recorded

/-! What a repeated call answers. -/

theorem createRun_again {r : RunCreation} {row : Journal.RunRow} (consistent : Consistent db)
    (h : (createRun r).eval db = (.ok row, db')) : ∃ row', (createRun r).eval db' = (.ok row', db') := by
  obtain ⟨accepted, recorded⟩ := RunCreation.recorded_of_ok consistent.housed h
  simp only [createRun, bind_ok, require_ok, transact_ok, RunTransition.readRunRow_ok] at h
  obtain ⟨_, _, ⟨-, rfl⟩, _, _, ⟨-, rfl⟩, _, _, body, -, rfl⟩ := h
  rcases createRunBody_ok consistent.housed body with ⟨same, -, rfl⟩ | ⟨written, stored, -⟩
  · exact (RunCreation.repeats_iff accepted recorded consistent.housed).mpr same
  · refine (RunCreation.repeats_iff accepted recorded (written.consistent consistent).housed).mpr ?_
    rw [stored]
    exact decide_eq_true ⟨rfl, rfl, rfl, rfl, rfl, rfl⟩

theorem submitCommand_again {c : CommandAppend} {events : List EventInput} {s : CommandSubmission}
    (h : (submitCommand c events).eval db = (.ok s, db')) :
    (submitCommand c events).eval db' = (.ok ⟨s.command, [], true⟩, db') := by
  obtain ⟨-, -, found⟩ := submitCommand_took h
  unfold submitCommand
  refine transact_ok.mpr ((ok_bind (commandByKey_ok.mpr ⟨found, rfl⟩)).trans ?_)
  rfl

end Fala.Port

/-! The SQLite port against its own database, and against the journal in memory. -/

namespace Fala.Port
open Durable Journal Program Memory

theorem appendEventInTx_member {runId commandId : String} {event : EventInput} {row : EventRow}
    {db db' : Database} (h : (appendEventInTx runId commandId event).eval db = (.ok row, db')) :
    row ∈ db'.events.rows := by
  simp only [appendEventInTx, bind_ok, require_ok, fetch_ok] at h
  obtain ⟨_, _, ⟨-, rfl⟩, _, _, ⟨-, rfl⟩, found, _, ⟨stored, rfl⟩, h⟩ := h
  cases found with
  | some existing =>
    simp only [bind_ok, require_ok, pure_ok] at h
    obtain ⟨_, _, ⟨-, rfl⟩, rfl, rfl⟩ := h
    exact (Ledger.find?_some.mp stored).1
  | none =>
    simp only [bind_ok, fetch_ok, query_ok] at h
    obtain ⟨_, _, ⟨-, rfl⟩, _, middle, -, read, rfl⟩ := h
    cases there : middle.eventById runId event.id with
    | none => simp [there] at read
    | some held =>
      simp only [there, Except.ok.injEq] at read
      exact read ▸ (Ledger.find?_some.mp there).1

theorem appendEvents_member {runId : String} {command : CommandRow} {events : List EventInput}
    {rows : List EventRow} {db db' : Database}
    (h : (appendEvents runId command events).eval db = (.ok rows, db')) :
    ∀ row ∈ rows, row ∈ db'.events.rows := by
  induction events generalizing db rows with
  | nil =>
    obtain ⟨rfl, -⟩ := pure_ok.mp h
    nofun
  | cons event events ih =>
    simp only [appendEvents, bind_ok, pure_ok] at h
    obtain ⟨row, middle, here, rest, _, later, rfl, rfl⟩ := h
    obtain ⟨after, told, rfl⟩ := appendEvents_rows later
    intro other member
    rcases List.mem_cons.mp member with rfl | member
    · exact told.extends.subset (appendEventInTx_member here)
    · exact ih later other member

/-- The commands that the port hands to an operation of their own. -/
def Typed (commandType : String) : Prop :=
  commandType = "run.create" ∨ commandType = "process.schedule" ∨ commandType = "process.complete"

/-- The commands and the events of an answer are stored as they were answered. -/
structure Stored (t : Texts) (db : Database) (result : AppendResult) : Prop where
  commands : ∀ u ∈ result.units, ∃ row ∈ db.commands.rows, u.command = commandRecord t row
  events : ∀ u ∈ result.units, ∀ e ∈ u.events, ∃ row ∈ db.events.rows, e = eventRecord t row

section
variable {digest : Json → String} {t : Texts} {batch : JournalBatch} {u : CommandUnit}
  {others : List CommandUnit} {db db' : Database} {result : AppendResult}

theorem answering_ok {α : Type} {answer : α → AppendResult} {outcome : Except String α × Database} :
    answering answer outcome = (.ok result, db') ↔
      ∃ a, outcome = (.ok a, db') ∧ answer a = result := by
  obtain ⟨outcome, final⟩ := outcome
  cases outcome with
  | error message => simp [answering, Except.map]
  | ok a => simp [answering, Except.map, and_comm]

/-- What the journal answered to a call of the port. -/
inductive Answers (digest : Json → String) (t : Texts) (batch : JournalBatch) (u : CommandUnit)
    (db db' : Database) : PortCall → AppendResult → Prop
  | createRun {r : RunCreation} {row : Journal.RunRow} (h : (createRun r).eval db = (.ok row, db')) :
    Answers digest t batch u db db' (.createRun r)
      (createResult batch u r (db.runs.find? r.runId).isSome)
  | scheduleProcess {s : ProcessSchedule} {row : ProcessRow}
    (h : (scheduleProcess s).eval db = (.ok row, db')) :
    Answers digest t batch u db db' (.scheduleProcess s)
      (scheduleResult batch u s (hasCommand db s.runId s.key))
  | completeProcess {runId processId workerId completedAt : String} {outputJson errorJson : Text}
    {row : ProcessRow}
    (h : (completeProcess digest runId processId workerId completedAt outputJson errorJson).eval db =
      (.ok row, db')) :
    Answers digest t batch u db db'
      (.completeProcess runId processId workerId completedAt outputJson errorJson)
      (completeResult batch u processId)
  | submitCommand {c : CommandAppend} {events : List EventInput} {s : CommandSubmission}
    (h : (submitCommand c events).eval db = (.ok s, db')) :
    Answers digest t batch u db db' (.submitCommand c events) (genericResult t batch u s)

theorem appendBatch_ok (units : batch.units = u :: others) :
    appendBatch digest t batch db = (.ok result, db') ↔
      ∃ call, portCall t batch u = .ok call ∧ Answers digest t batch u db db' call result := by
  unfold appendBatch
  rw [units]
  dsimp only
  cases portCall t batch u with
  | error message => simp
  | ok call =>
    constructor
    · intro h
      refine ⟨call, rfl, ?_⟩
      cases call with
      | createRun r =>
        obtain ⟨_, done, rfl⟩ := answering_ok.mp h
        exact .createRun done
      | scheduleProcess s =>
        obtain ⟨_, done, rfl⟩ := answering_ok.mp h
        exact .scheduleProcess done
      | completeProcess =>
        obtain ⟨_, done, rfl⟩ := answering_ok.mp h
        exact .completeProcess done
      | submitCommand c events =>
        obtain ⟨_, done, rfl⟩ := answering_ok.mp h
        exact .submitCommand done
    · rintro ⟨other, same, answers⟩
      cases same
      cases answers with
      | createRun h | scheduleProcess h | completeProcess h | submitCommand h =>
        exact answering_ok.mpr ⟨_, h, rfl⟩

theorem Answers.took {call : PortCall} (answers : Answers digest t batch u db db' call result) :
    Took call.key db db' := by
  cases answers with
  | createRun h => exact (createRun_took h).1
  | scheduleProcess h => exact (scheduleProcess_took h).1
  | @completeProcess runId processId workerId completedAt outputJson errorJson row h =>
    let call := TransitionCall.completeProcess runId processId workerId completedAt outputJson errorJson
    have done : (call.program digest).eval db = (.ok row, db') := h
    exact transition_took done
  | submitCommand h => exact (submitCommand_took h).1

theorem appendBatch_refused {message : String}
    (h : appendBatch digest t batch db = (.error message, db')) : db' = db := by
  have refused {α : Type} {answer : α → AppendResult} {p : Sql α} (restores : p.Restores db)
      (h : answering answer (p.eval db) = (.error message, db')) : db' = db := by
    cases evaluated : p.eval db with
    | mk outcome final =>
      rw [evaluated] at h
      cases outcome with
      | ok a => cases h
      | error other =>
        cases h
        exact restores _ _ evaluated
  unfold appendBatch at h
  split at h
  · cases h
    rfl
  · split at h
    · cases h
      rfl
    · exact refused (createRun_restores _ db) h
    · exact refused (scheduleProcess_restores _ db) h
    · exact refused (completeProcess_restores digest _ _ _ _ _ _ db) h
    · exact refused (submitCommand_restores _ _ db) h

/-- The types of the commands that become a call. -/
def PortCall.Named (commandType : String) : PortCall → Prop
  | .createRun _ => commandType = "run.create"
  | .scheduleProcess _ => commandType = "process.schedule"
  | .completeProcess .. => commandType = "process.complete"
  | .submitCommand .. => ¬ Typed commandType

theorem portCall_named {call : PortCall} (h : portCall t batch u = .ok call) :
    call.Named u.command.commandType := by
  unfold portCall at h
  by_cases create : u.command.commandType = "run.create"
  · rw [if_pos create] at h
    cases built : runCreation t batch u.command <;> rw [built] at h <;> cases h
    exact create
  rw [if_neg create] at h
  by_cases schedule : u.command.commandType = "process.schedule"
  · rw [if_pos schedule] at h
    cases built : processSchedule t batch u <;> rw [built] at h <;> cases h
    exact schedule
  rw [if_neg schedule] at h
  by_cases complete : u.command.commandType = "process.complete"
  · rw [if_pos complete] at h
    dsimp only at h
    split at h
    · cases h
    · split at h <;> cases h
      exact complete
  · rw [if_neg complete] at h
    cases h
    rintro (same | same | same)
    · exact create same
    · exact schedule same
    · exact complete same

theorem Answers.stored {call : PortCall} (answers : Answers digest t batch u db db' call result)
    (named : call.Named u.command.commandType) (untyped : ¬ Typed u.command.commandType) :
    Stored t db' result := by
  cases answers with
  | createRun => exact absurd (.inl named) untyped
  | scheduleProcess => exact absurd (.inr (.inl named)) untyped
  | completeProcess => exact absurd (.inr (.inr named)) untyped
  | @submitCommand c events s h =>
    obtain ⟨-, -, found⟩ := submitCommand_took h
    have member : s.command ∈ db'.commands.rows := (Ledger.find?_some.mp found).1
    constructor
    · intro answered listed
      rw [List.mem_singleton.mp listed]
      exact ⟨s.command, member, rfl⟩
    · intro answered listed e listed'
      rw [List.mem_singleton.mp listed] at listed'
      obtain ⟨row, returned, rfl⟩ := List.mem_map.mp listed'
      refine ⟨row, ?_, rfl⟩
      simp only [Journal.submitCommand, transact_ok, bind_ok, commandByKey_ok] at h
      obtain ⟨_, _, ⟨rfl, rfl⟩, h⟩ := h
      cases prior : db.commandByKey c.runId c.idempotencyKey with
      | some stored =>
        simp only [prior, pure_ok] at h
        obtain ⟨rfl, -⟩ := h
        cases returned
      | none =>
        simp only [prior, bind_ok, require_ok, requireRun_ok, fetch_ok, pure_ok] at h
        obtain ⟨_, _, ⟨-, rfl⟩, _, _, ⟨-, rfl⟩, _, _, ⟨-, rfl⟩, _, _, ⟨-, rfl⟩, _, _, ⟨-, rfl⟩, _, _,
          command, _, _, appended, rfl, rfl⟩ := h
        exact appendEvents_member appended row returned

theorem Answers.unchanged {call : PortCall} (units : batch.units = u :: others)
    (asked : portCall t batch u = .ok call) (answers : Answers digest t batch u db db' call result) :
    (appendBatch digest t batch db').2 = db' := by
  cases again : appendBatch digest t batch db' with
  | mk outcome final =>
    cases outcome with
    | error message => exact appendBatch_refused again
    | ok second =>
      obtain ⟨other, asked', answers'⟩ := (appendBatch_ok units).mp again
      cases asked.symm.trans asked'
      exact answers'.took.unchanged answers.took.held

theorem Answers.again {call : PortCall} (consistent : Consistent db)
    (units : batch.units = u :: others) (asked : portCall t batch u = .ok call)
    (answers : Answers digest t batch u db db' call result)
    (other : u.command.commandType ≠ "process.complete") :
    ∃ second, appendBatch digest t batch db' = (.ok second, db') ∧ second.replayed = true ∧
      second.units.map CommandUnit.command = result.units.map CommandUnit.command := by
  have named := portCall_named asked
  cases answers with
  | @createRun r row h =>
    obtain ⟨row', repeated⟩ := createRun_again consistent h
    refine ⟨_, (appendBatch_ok units).mpr ⟨_, asked, .createRun repeated⟩, ?_, rfl⟩
    exact (createRun_took repeated).2.mpr (createRun_took h).1.held
  | @scheduleProcess s row h =>
    obtain ⟨row', repeated⟩ := ProcessSchedule.repeats (ProcessSchedule.recorded_of_ok h)
    refine ⟨_, (appendBatch_ok units).mpr ⟨_, asked, .scheduleProcess repeated⟩, ?_, rfl⟩
    exact (scheduleProcess_took repeated).2.trans (scheduleProcess_took h).1.held
  | completeProcess => exact absurd named other
  | @submitCommand c events s h =>
    exact ⟨_, (appendBatch_ok units).mpr ⟨_, asked, .submitCommand (submitCommand_again h)⟩, rfl, rfl⟩

theorem Answers.replayed_iff {call : PortCall} (asked : portCall t batch u = .ok call)
    (answers : Answers digest t batch u db db' call result)
    (other : u.command.commandType ≠ "process.complete") :
    result.replayed = true ↔ (db.commandByKey call.key.1 call.key.2).isSome = true := by
  have named := portCall_named asked
  cases answers with
  | createRun h => exact (createRun_took h).2
  | scheduleProcess h =>
    change hasCommand _ _ _ = true ↔ _
    rw [(scheduleProcess_took h).2]
    rfl
  | completeProcess => exact absurd named other
  | submitCommand h =>
    obtain ⟨-, replayed, -⟩ := submitCommand_took h
    change CommandSubmission.replayed _ = true ↔ _
    rw [replayed]
    rfl

end
end Fala.Port
