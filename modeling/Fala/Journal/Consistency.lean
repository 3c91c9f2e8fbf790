import Fala.Journal.Effects

/-! What every write keeps of the event log: its numbering, its references, and
    that nothing logged is lost. -/

namespace Fala.Journal
open Durable

variable {commands : List CommandRow} {runId : String} {events : List (String × EventInput)}
  {rows after : List EventRow}

theorem EventStored.numbered {commandId : String} {event : EventInput}
    (stored : EventStored commands runId commandId event rows after)
    (numbered : Numbered EventRow.runId EventRow.sequence rows) :
    Numbered EventRow.runId EventRow.sequence after := by
  cases stored with
  | replayed => exact numbered
  | appended => exact numbered.append rfl

theorem EventsStored.numbered (told : EventsStored commands runId events rows after)
    (numbered : Numbered EventRow.runId EventRow.sequence rows) :
    Numbered EventRow.runId EventRow.sequence after := by
  induction told with
  | nil => exact numbered
  | cons first _ ih => exact ih (first.numbered numbered)

theorem EventStored.extends {commandId : String} {event : EventInput}
    (stored : EventStored commands runId commandId event rows after) : rows <+: after := by
  cases stored with
  | replayed => exact List.prefix_rfl
  | appended => exact List.prefix_append ..

theorem EventsStored.extends (told : EventsStored commands runId events rows after) :
    rows <+: after := by
  induction told with
  | nil => exact List.prefix_rfl
  | cons first _ ih => exact first.extends.trans ih

theorem EventsStored.forall {P : EventRow → Prop}
    (told : EventsStored commands runId events rows after) (stored : ∀ e ∈ rows, P e)
    (new : ∀ entry ∈ events, ∀ sequence,
      entry.1 = "" ∨ (runId, entry.1) ∈ commands.map CommandRow.key →
        P (entry.2.row runId entry.1 sequence)) : ∀ e ∈ after, P e := by
  induction told with
  | nil => exact stored
  | @cons commandId event rest rows middle after first later ih =>
    refine ih ?_ fun entry member => new entry (.tail _ member)
    cases first with
    | replayed => exact stored
    | appended fresh referenced =>
      intro e member
      rcases List.mem_append.mp member with member | member
      · exact stored e member
      · rw [List.mem_singleton.mp member]
        exact new (commandId, event) List.mem_cons_self _ referenced

theorem EventsStored.present (told : EventsStored commands runId events rows after) :
    ∀ entry ∈ events, ∃ sequence, entry.2.row runId entry.1 sequence ∈ after := by
  induction told with
  | nil => simp
  | cons first later ih =>
    intro entry member
    rcases List.mem_cons.mp member with rfl | member
    · cases first with
      | replayed sequence stored => exact ⟨sequence, later.extends.subset stored⟩
      | appended fresh referenced =>
        exact ⟨_, later.extends.subset (List.mem_append_right _ (List.mem_singleton.mpr rfl))⟩
    · exact ih entry member

/-- A log whose events are numbered run by run and name what is stored. -/
structure Consistent (db : Database) : Prop where
  numbered : Numbered EventRow.runId EventRow.sequence db.events.rows
  housed : EventsHoused db
  manned : ∀ k p, db.processes.find? k = some p → (db.runs.find? k.1).isSome = true
  referenced : ∀ e ∈ db.events.rows,
    e.commandId = "" ∨ (e.runId, e.commandId) ∈ db.commands.rows.map CommandRow.key

theorem Consistent.empty : Consistent .empty where
  numbered := .nil
  housed := nofun
  manned _ _ found := nomatch found
  referenced := nofun

theorem Consistent.manned' {db : Database} (consistent : Consistent db) :
    ∀ r ∈ db.processes.rows, (db.runs.find? r.runId).isSome = true := fun r member =>
  consistent.manned r.key r (Table.find?_some.mpr ⟨member, rfl⟩)

/-- The log a write leaves. -/
def Write.log : Write → Database → String × List CommandRow × List (String × EventInput)
  | .record runId commands events, _ => (runId, commands, events)
  | .schedule row commands events, _ => (row.runId, commands, events)
  | .act runId processId action, db =>
    match db.processes.find? (runId, processId) with
    | some old => (runId, action.commands old, action.events old)
    | none => (runId, [], [])

theorem Written.logged {db db' : Database} {w : Write} (written : Written db w db') :
    Logged db (w.log db).1 (w.log db).2.1 (w.log db).2.2 db' := by
  cases written with
  | record _ logged => exact logged
  | schedule _ logged => exact logged
  | act found _ _ logged =>
    simp only [Write.log, found]
    exact logged

theorem Written.manned {db db' : Database} {w : Write} (written : Written db w db')
    (manned : ∀ k p, db.processes.find? k = some p → (db.runs.find? k.1).isSome = true) :
    ∀ k p, db'.processes.find? k = some p → (db'.runs.find? k.1).isSome = true := by
  intro k p found
  cases written with
  | record processes logged =>
    rw [processes] at found
    exact logged.kept _ (manned k p found)
  | @schedule row _ _ _ inserted logged =>
    rw [Table.find?_insert inserted] at found
    split at found
    · rename_i same
      exact same ▸ logged.known
    · exact logged.kept _ (manned k p found)
  | act _ _ processes logged =>
    rw [processes] at found
    split at found
    · rename_i same
      exact same ▸ logged.known
    · exact logged.kept _ (manned k p found)

theorem Written.consistent {db db' : Database} {w : Write} (written : Written db w db')
    (consistent : Consistent db) : Consistent db' where
  numbered := written.logged.told.numbered consistent.numbered
  housed :=
    written.logged.told.forall (fun e member => written.logged.kept _ (consistent.housed e member))
      fun _ _ _ _ => written.logged.known
  manned := written.manned consistent.manned
  referenced :=
    written.logged.told.forall
      (fun e member => (consistent.referenced e member).imp_right fun found => by
        rw [written.logged.stored, List.map_append]
        exact List.mem_append_left _ found)
      fun _ _ _ referenced => referenced

theorem Writes.extends {db db' : Database} {writes : List Write} (done : Writes db writes db') :
    db.commands.rows <+: db'.commands.rows ∧ db.events.rows <+: db'.events.rows := by
  induction done with
  | nil => exact ⟨List.prefix_rfl, List.prefix_rfl⟩
  | cons first _ ih =>
    refine ⟨List.IsPrefix.trans ?_ ih.1, first.logged.told.extends.trans ih.2⟩
    rw [first.logged.stored]
    exact List.prefix_append ..

end Fala.Journal

/-! What every write keeps of the rows that it finds. -/

namespace Fala.Journal
open Durable

theorem Written.row {db db' : Database} {w : Write} (written : Written db w db')
    {k : String × String} {old : ProcessRow} (found : db.processes.find? k = some old) :
    db'.processes.find? k = some old ∨
      ∃ action, w = .act k.1 k.2 action ∧ action.Enabled old ∧
        db'.processes.find? k = some (action.apply old) := by
  cases written with
  | record processes logged => exact .inl (processes ▸ found)
  | schedule inserted logged =>
    refine .inl ((Table.find?_insert inserted k).trans ?_)
    split
    · rename_i same
      rw [← same, (Table.insert?_some.mp inserted).1] at found
      cases found
    · exact found
  | @act runId processId action current _ here enabled processes logged =>
    rw [processes]
    split
    · rename_i same
      subst same
      obtain rfl := Option.some.inj (found.symm.trans here)
      exact .inr ⟨action, rfl, enabled, rfl⟩
    · exact .inl found

theorem Does.row {P : Write → Prop} {Q : ProcessRow → Prop} {db db' : Database}
    (does : Does P db db') {k : String × String} {old : ProcessRow}
    (found : db.processes.find? k = some old) (initial : Q old)
    (kept : ∀ row action, P (.act k.1 k.2 action) → action.Enabled row → Q row →
      Q (action.apply row)) : ∃ new, db'.processes.find? k = some new ∧ Q new := by
  refine does.induct (I := fun db => ∃ new, db.processes.find? k = some new ∧ Q new)
    ⟨old, found, initial⟩ fun permitted written current => ?_
  obtain ⟨row, current, holds⟩ := current
  rcases written.row current with same | ⟨action, rfl, enabled, moved⟩
  · exact ⟨row, same, holds⟩
  · exact ⟨_, moved, kept row action permitted enabled holds⟩

/-- A later state: the log has only grown, and the runs and the processes are still there. -/
structure Grown (db db' : Database) : Prop where
  commands : db.commands.rows <+: db'.commands.rows
  events : db.events.rows <+: db'.events.rows
  runs : ∀ id, (db.runs.find? id).isSome = true → (db'.runs.find? id).isSome = true
  processes : ∀ k old, db.processes.find? k = some old →
    ∃ new, db'.processes.find? k = some new ∧ new.outputSchemaJson = old.outputSchemaJson

theorem outputSchemaJson_apply (row : ProcessRow) (action : RowAction) :
    (action.apply row).outputSchemaJson = row.outputSchemaJson := by
  cases action <;> rfl

namespace Grown

variable {db middle db' : Database}

theorem refl (db : Database) : Grown db db :=
  ⟨List.prefix_rfl, List.prefix_rfl, fun _ found => found, fun _ old found => ⟨old, found, rfl⟩⟩

theorem trans (first : Grown db middle) (later : Grown middle db') : Grown db db' where
  commands := first.commands.trans later.commands
  events := first.events.trans later.events
  runs id found := later.runs id (first.runs id found)
  processes k old found := by
    obtain ⟨row, found, same⟩ := first.processes k old found
    obtain ⟨new, found, same'⟩ := later.processes k row found
    exact ⟨new, found, same'.trans same⟩

theorem written {w : Write} (written : Written db w db') : Grown db db' where
  commands := by
    rw [written.logged.stored]
    exact List.prefix_append ..
  events := written.logged.told.extends
  runs := written.logged.kept
  processes k old found := by
    rcases written.row found with kept | ⟨action, -, -, moved⟩
    · exact ⟨old, kept, rfl⟩
    · exact ⟨_, moved, outputSchemaJson_apply old action⟩

theorem does {P : Write → Prop} (does : Does P db db') : Grown db db' :=
  does.induct (I := Grown db) (refl db) fun _ done grown => grown.trans (written done)

theorem commandByKey (grown : Grown db db') {runId key : String} {c : CommandRow}
    (found : db.commandByKey runId key = some c) : db'.commandByKey runId key = some c := by
  obtain ⟨member, same⟩ := Ledger.find?_some.mp found
  exact Ledger.find?_some.mpr ⟨grown.commands.subset member, same⟩

theorem eventById (grown : Grown db db') {runId id : String} {e : EventRow}
    (found : db.eventById runId id = some e) : db'.eventById runId id = some e := by
  obtain ⟨member, same⟩ := Ledger.find?_some.mp found
  exact Ledger.find?_some.mpr ⟨grown.events.subset member, same⟩

theorem firstEvent (grown : Grown db db') {p : EventRow → Bool} {e : EventRow}
    (found : db.events.rows.find? p = some e) : db'.events.rows.find? p = some e := by
  obtain ⟨later, rows⟩ := grown.events
  rw [← rows, List.find?_append, found, Option.some_or]

end Grown
end Fala.Journal
