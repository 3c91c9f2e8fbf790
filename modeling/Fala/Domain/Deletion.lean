import Fala.Durable.Focus
import Fala.Store.Archive

namespace Fala.Domain
open Durable Program

/-- `RunDeleteCounts` -/
structure RunDeleteCounts where
  runId : String
  rows : TableName → Nat

def RunDeleteCounts.none (runId : String) : RunDeleteCounts := ⟨runId, fun _ => 0⟩

def RunDeleteCounts.set (counts : RunDeleteCounts) (t : TableName) (n : Nat) : RunDeleteCounts :=
  { counts with rows := fun other => if other = t then n else counts.rows other }

/-- `_default_retention_statuses` -/
def defaultRetentionStatuses : List String := ["completed", "failed", "cancelled", "timed_out"]

def appendOnly (table : String) : String := table ++ " is append-only"

/-- What stops a `DELETE` of the rows of a run: a trigger, or a row that refers to one of them. -/
def refusal (a : Archive) (runId : String) : TableName → Option String
  | .events =>
    if a.stops .eventsNoDelete ∧ a.db.rowsIn runId .events ≠ [] then some (appendOnly "runtime_events") else none
  | .commands =>
    if a.stops .commandsNoDelete ∧ a.db.rowsIn runId .commands ≠ [] then some (appendOnly "runtime_commands")
    else if a.db.events.rows.any fun e => e.runId = runId ∧ e.commandId ≠ "" then some foreignKeyFailed
    else none
  | .impulses =>
    if (a.db.impulseRelations.rows.any fun r => r.runId = runId) ∨
        (a.db.reactions.rows.any fun r => r.runId = runId ∧ r.impulseId ≠ "") ∨
        (a.db.processes.rows.any fun r => r.runId = runId ∧ r.impulseId ≠ "") then some foreignKeyFailed
    else none
  | _ => none

/-- `DELETE FROM t WHERE run_id=?` with the number of changes. -/
def deleteFrom (runId : String) (t : TableName) : Program Archive Nat :=
  .statement fun a =>
    match refusal a runId t with
    | some message => .error message
    | none => .ok ((a.db.rowsIn runId t).length, { a with db := a.db.without runId t })

def deleteEach (runId : String) : List TableName → RunDeleteCounts → Program Archive RunDeleteCounts
  | [], counts => pure counts
  | t :: rest, counts => do
    let n ← deleteFrom runId t
    deleteEach runId rest (counts.set t n)

/-- The order in which the tables are emptied of a run. -/
def deletionOrder : List TableName :=
  [.bridgeInbox, .bridgeOutbox, .projections, .homeostats, .processes, .reactions, .associations, .impulseRelations,
    .impulseTypes, .impulses, .events, .commands, .runs]

/-- `DROP TRIGGER IF EXISTS` -/
def dropTrigger (name : String) : Program Archive Unit :=
  .statement fun a => .ok ((), { a with triggers := a.triggers.filter fun t => t.name ≠ name })

/-- `CREATE TRIGGER IF NOT EXISTS` -/
def createTrigger (t : Trigger) : Program Archive Unit :=
  .statement fun a => .ok ((), { a with triggers := (a.triggers.insert? t).getD a.triggers })

/-- The triggers as `delete_run` writes them. -/
def eventsTrigger : Trigger :=
  ⟨"runtime_events_no_delete", "CREATE TRIGGER runtime_events_no_delete BEFORE DELETE ON runtime_events BEGIN SELECT RAISE(ABORT, 'runtime_events is append-only'); END"⟩

def commandsTrigger : Trigger :=
  ⟨"runtime_commands_no_delete", "CREATE TRIGGER runtime_commands_no_delete BEFORE DELETE ON runtime_commands BEGIN SELECT RAISE(ABORT, 'runtime_commands is append-only'); END"⟩

def runIdEmpty : String := "domain store: run_id must not be empty"
def runUnknown : String := "domain store: unknown run"
def runNotTerminal : String := "domain store: run is not terminal"

/-- The diagnostics that reach the caller as they are; every other error is one of `delete_run`. -/
def deleteRunError (message : String) : String :=
  if message = runIdEmpty ∨ message = runUnknown ∨ message = runNotTerminal then message
  else "domain store: delete_run failed"

def deleteRunBody (runId : String) (terminalOnly : Bool) : Program Archive RunDeleteCounts := do
  .require (runId ≠ "") runIdEmpty
  let status ← .query fun a =>
    match a.db.runs.find? runId with
    | some run => .ok run.status
    | none => .error runUnknown
  .require (¬ (terminalOnly = true ∧ status ∉ defaultRetentionStatuses)) runNotTerminal
  dropTrigger "runtime_events_no_delete"
  dropTrigger "runtime_commands_no_delete"
  let counts ← deleteEach runId deletionOrder (.none runId)
  createTrigger eventsTrigger
  createTrigger commandsTrigger
  return counts

/-- `delete_run` -/
def deleteRun (runId : String) (terminalOnly : Bool) : Program Archive RunDeleteCounts :=
  .transact deleteRunError (deleteRunBody runId terminalOnly)

/-- What a deletion of a run leaves behind. -/
structure Deleted (runId : String) (terminalOnly : Bool) (a a' : Archive) (counts : RunDeleteCounts) : Prop where
  known : ∃ run, a.db.runs.find? runId = some run ∧ (terminalOnly = true → run.status ∈ defaultRetentionStatuses)
  gone : ∀ t, a'.db.rowsIn runId t = []
  kept : ∀ t other, other ≠ runId → a'.db.rowsIn other t = a.db.rowsIn other t
  counted : ∀ t, counts.rows t = (a.db.rowsIn runId t).length
  guarded : a'.Guarded .eventsNoDelete ∧ a'.Guarded .commandsNoDelete
  others : ∀ name, name ≠ "runtime_events_no_delete" → name ≠ "runtime_commands_no_delete" →
    a'.triggers.find? name = a.triggers.find? name

theorem deleteFrom_ok {runId : String} {t : TableName} {n : Nat} {a a' : Archive} :
    (deleteFrom runId t).eval a = (.ok n, a') ↔
      refusal a runId t = none ∧ n = (a.db.rowsIn runId t).length ∧ a' = { a with db := a.db.without runId t } := by
  rw [deleteFrom, statement_ok]
  cases refusal a runId t <;> simp [eq_comm]

theorem rowsIn_without_same (db : Database) (runId : String) (t : TableName) :
    (db.without runId t).rowsIn runId t = [] := by
  rw [Database.rowsIn, Database.rowsOf_without_same, List.filter_filter, List.filter_eq_nil_iff]
  intro row _
  simp

theorem rowsIn_without_run (db : Database) {runId other : String} (apart : other ≠ runId) (t s : TableName) :
    (db.without runId t).rowsIn other s = db.rowsIn other s := by
  by_cases same : t = s
  · subst same
    rw [Database.rowsIn, Database.rowsOf_without_same, List.filter_filter]
    apply List.filter_congr
    intro row _
    by_cases here : t.runOf row = other
    · simp [here, apart]
    · simp [here]
  · rw [Database.rowsIn, Database.rowsOf_without_other db runId same, Database.rowsIn]

theorem rowsIn_without_other (db : Database) (runId run : String) {t s : TableName} (apart : t ≠ s) :
    (db.without runId t).rowsIn run s = db.rowsIn run s := by
  rw [Database.rowsIn, Database.rowsOf_without_other db runId apart, Database.rowsIn]

/-- What emptying some tables of a run has done. -/
structure Emptied (runId : String) (tables : List TableName) (a a' : Archive) : Prop where
  triggers : a'.triggers = a.triggers
  gone : ∀ t ∈ tables, a'.db.rowsIn runId t = []
  others : ∀ t ∉ tables, a'.db.rowsIn runId t = a.db.rowsIn runId t
  kept : ∀ t other, other ≠ runId → a'.db.rowsIn other t = a.db.rowsIn other t

theorem deleteEach_ok {runId : String} {tables : List TableName} {counts counts' : RunDeleteCounts} {a a' : Archive}
    (h : (deleteEach runId tables counts).eval a = (.ok counts', a')) (once : tables.Nodup) :
    Emptied runId tables a a' ∧ (∀ t ∈ tables, counts'.rows t = (a.db.rowsIn runId t).length) ∧
      ∀ t ∉ tables, counts'.rows t = counts.rows t := by
  induction tables generalizing counts a with
  | nil =>
    obtain ⟨rfl, rfl⟩ := pure_ok.mp h
    exact ⟨⟨rfl, fun _ member => (nomatch member), fun _ _ => rfl, fun _ _ _ => rfl⟩, fun _ member => (nomatch member),
      fun _ _ => rfl⟩
  | cons t rest ih =>
    obtain ⟨n, middle, first, h⟩ := bind_ok.mp h
    obtain ⟨-, rfl, rfl⟩ := deleteFrom_ok.mp first
    obtain ⟨fresh, once⟩ := List.nodup_cons.mp once
    obtain ⟨emptied, counted, other⟩ := ih h once
    have untouched : ∀ s ∈ rest, t ≠ s := fun s member same => fresh (same ▸ member)
    refine ⟨⟨emptied.triggers, ?_, ?_, ?_⟩, ?_, ?_⟩
    · intro s member
      rcases List.mem_cons.mp member with rfl | member
      · rw [emptied.others s fresh, rowsIn_without_same]
      · exact emptied.gone s member
    · intro s outside
      rw [List.mem_cons, not_or] at outside
      obtain ⟨apart, outside⟩ := outside
      rw [emptied.others s outside, rowsIn_without_other _ _ _ (Ne.symm apart)]
    · intro s run apart
      rw [emptied.kept s run apart, rowsIn_without_run _ apart]
    · intro s member
      rcases List.mem_cons.mp member with rfl | member
      · rw [other s fresh]
        exact if_pos rfl
      · rw [counted s member, rowsIn_without_other _ _ _ (untouched s member)]
    · intro s outside
      rw [List.mem_cons, not_or] at outside
      obtain ⟨apart, outside⟩ := outside
      rw [other s outside]
      exact if_neg apart

theorem deletionOrder_complete (t : TableName) : t ∈ deletionOrder := by cases t <;> decide

theorem deletionOrder_once : deletionOrder.Nodup := by decide

theorem dropTrigger_ok {name : String} {u : Unit} {a a' : Archive} :
    (dropTrigger name).eval a = (.ok u, a') ↔ a' = { a with triggers := a.triggers.filter fun t => t.name ≠ name } := by
  rw [dropTrigger, statement_ok]
  simp [eq_comm]

theorem createTrigger_ok {t : Trigger} {u : Unit} {a a' : Archive} :
    (createTrigger t).eval a = (.ok u, a') ↔ a' = { a with triggers := (a.triggers.insert? t).getD a.triggers } := by
  rw [createTrigger, statement_ok]
  simp [eq_comm]

/-- The triggers after two of them were dropped and created again. -/
def recreated (triggers : Table Trigger.name) : Table Trigger.name :=
  let kept := (triggers.filter fun t => t.name ≠ "runtime_events_no_delete").filter fun t =>
    t.name ≠ "runtime_commands_no_delete"
  let added := (kept.insert? eventsTrigger).getD kept
  (added.insert? commandsTrigger).getD added

theorem find?_created (triggers : Table Trigger.name) (t : Trigger) (name : String)
    (fresh : triggers.find? t.name = none) :
    ((triggers.insert? t).getD triggers).find? name = if t.name = name then some t else triggers.find? name := by
  obtain ⟨added, inserted⟩ := Table.insert?_of_fresh fresh
  rw [inserted, Option.getD_some, Table.find?_insert inserted]

theorem find?_dropped (triggers : Table Trigger.name) (dropped name : String) :
    (triggers.filter fun t => t.name ≠ dropped).find? name = if name = dropped then none else triggers.find? name := by
  rw [Table.find?_filter (Table.filter_rows triggers _)]
  cases found : triggers.find? name with
  | none => simp
  | some t =>
    have named := Table.find?_key found
    by_cases same : name = dropped
    · simp [named, same]
    · simp [named, same]

theorem find?_recreated (triggers : Table Trigger.name) (name : String) :
    (recreated triggers).find? name =
      if name = "runtime_commands_no_delete" then some commandsTrigger
      else if name = "runtime_events_no_delete" then some eventsTrigger
      else triggers.find? name := by
  have first : ((triggers.filter fun t => t.name ≠ "runtime_events_no_delete").filter fun t =>
      t.name ≠ "runtime_commands_no_delete").find? eventsTrigger.name = none := by
    rw [find?_dropped, find?_dropped]
    rfl
  have second := find?_created _ eventsTrigger "runtime_commands_no_delete" first
  rw [if_neg (by decide), find?_dropped, if_pos rfl] at second
  rw [recreated, find?_created _ _ _ second, find?_created _ _ _ first, find?_dropped, find?_dropped]
  by_cases commands : name = "runtime_commands_no_delete"
  · subst commands
    rfl
  · by_cases events : name = "runtime_events_no_delete"
    · subst events
      rfl
    · have apart : commandsTrigger.name ≠ name := Ne.symm commands
      have apart' : eventsTrigger.name ≠ name := Ne.symm events
      simp [apart, apart', commands, events]

theorem normalizeStep_newline (state : List Char × Bool) : normalizeStep state '\n' = normalizeStep state ' ' := by
  have blank : ∀ c : Char, c = ' ' ∨ c = '\n' ∨ c = '\r' ∨ c = '\t' → normalizeStep state c =
      if state.2 = false ∧ state.1 ≠ [] then (' ' :: state.1, true) else state := fun c here => if_pos here
  rw [blank '\n' (by decide), blank ' ' (by decide)]

theorem normalizeStep_spaces (state : List Char × Bool) :
    normalizeStep (normalizeStep state ' ') ' ' = normalizeStep state ' ' := by
  have space : ∀ held : List Char × Bool, normalizeStep held ' ' =
      if held.2 = false ∧ held.1 ≠ [] then (' ' :: held.1, true) else held := fun held => if_pos (by decide)
  rw [space state]
  by_cases written : state.2 = false ∧ state.1 ≠ []
  · rw [if_pos written, space, if_neg (by simp)]
  · rw [if_neg written, space, if_neg written]

theorem normalizeSql_lines (head timing opening body closing : String) :
    normalizeSql (head ++ " " ++ timing ++ " " ++ opening ++ " " ++ body ++ " " ++ closing) =
      normalizeSql (head ++ "\n" ++ timing ++ "\n" ++ opening ++ "\n    " ++ body ++ "\n" ++ closing) := by
  unfold normalizeSql
  simp only [String.toList_append, List.foldl_append, String.reduceToList, List.foldl_cons, List.foldl_nil,
    normalizeStep_newline, normalizeStep_spaces]

theorem eventsTrigger_matches : normalizeSql eventsTrigger.sql = normalizeSql Trigger.eventsNoDelete.sql := by
  have lines := normalizeSql_lines "CREATE TRIGGER runtime_events_no_delete" "BEFORE DELETE ON runtime_events" "BEGIN"
    "SELECT RAISE(ABORT, 'runtime_events is append-only');" "END"
  simp only [String.reduceAppend] at lines
  exact lines

theorem commandsTrigger_matches : normalizeSql commandsTrigger.sql = normalizeSql Trigger.commandsNoDelete.sql := by
  have lines := normalizeSql_lines "CREATE TRIGGER runtime_commands_no_delete" "BEFORE DELETE ON runtime_commands" "BEGIN"
    "SELECT RAISE(ABORT, 'runtime_commands is append-only');" "END"
  simp only [String.reduceAppend] at lines
  exact lines

theorem guarded_recreated {a : Archive} {triggers : Table Trigger.name} (made : a.triggers = recreated triggers) :
    a.Guarded .eventsNoDelete ∧ a.Guarded .commandsNoDelete := by
  have events := find?_recreated triggers "runtime_events_no_delete"
  have commands := find?_recreated triggers "runtime_commands_no_delete"
  rw [if_neg (by decide), if_pos rfl, ← made] at events
  rw [if_pos rfl, ← made] at commands
  exact ⟨⟨eventsTrigger, events, eventsTrigger_matches⟩, ⟨commandsTrigger, commands, commandsTrigger_matches⟩⟩

theorem deleteRunBody_ok {runId : String} {terminalOnly : Bool} {counts : RunDeleteCounts} {a a' : Archive}
    (h : (deleteRunBody runId terminalOnly).eval a = (.ok counts, a')) : Deleted runId terminalOnly a a' counts := by
  simp only [deleteRunBody, bind_ok, require_ok, query_ok, dropTrigger_ok, createTrigger_ok, pure_ok] at h
  obtain ⟨_, _, ⟨-, rfl⟩, status, _, ⟨read, rfl⟩, _, _, ⟨terminal, rfl⟩, _, _, rfl, _, _, rfl, _, emptied, each, _, _, rfl,
    _, _, rfl, rfl, rfl⟩ := h
  obtain ⟨done, counted, -⟩ := deleteEach_ok each deletionOrder_once
  have made : ((emptied.triggers.insert? eventsTrigger).getD emptied.triggers |>.insert? commandsTrigger).getD
      ((emptied.triggers.insert? eventsTrigger).getD emptied.triggers) = recreated a.triggers := by
    rw [done.triggers]
    rfl
  refine ⟨?_, fun t => done.gone t (deletionOrder_complete t), done.kept, ?_, guarded_recreated made, ?_⟩
  · cases found : a.db.runs.find? runId with
    | none => simp [found] at read
    | some run =>
      rw [found] at read
      refine ⟨run, rfl, fun only => ?_⟩
      have same : run.status = status := Except.ok.inj read
      rw [same]
      by_contra outside
      exact absurd (And.intro only outside) (of_decide_eq_true terminal)
  · intro t
    exact counted t (deletionOrder_complete t)
  · intro name events commands
    rw [made, find?_recreated, if_neg commands, if_neg events]

/-- Whichever statement fails, a deletion that returns is complete and leaves every other run alone, and one that
    raises leaves the rows and the triggers as they were. -/
theorem delete_run_complete (runId : String) (terminalOnly : Bool) (a : Archive) (faults : Option Nat) :
    match (deleteRun runId terminalOnly).run ⟨a, faults⟩ with
    | (.ok counts, left) => Deleted runId terminalOnly a left.store counts
    | (.error _, left) => left.store = a := by
  cases ran : (deleteRun runId terminalOnly).run ⟨a, faults⟩ with
  | mk result left =>
    cases result with
    | ok counts =>
      have evaluated := eval_of_run ran
      rw [deleteRun, transact_ok] at evaluated
      exact deleteRunBody_ok evaluated
    | error message => exact RollsBack.transact _ _ faults message left ran

end Fala.Domain
