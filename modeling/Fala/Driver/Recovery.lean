import Fala.Driver.Claims
import Fala.Driver.Delegated
import Mathlib.Data.List.Sort
import Mathlib.Data.String.Basic

/-! Which rows a recovery of expired claims resolves. -/

namespace Fala.Driver
open Durable Program Journal

/-- The arguments of `recover_incomplete_processes`, as it accepts them. -/
structure Recovery where
  workerId : String
  now : String
  retryAvailableAt : String
  named : workerId ≠ "" ∧ now ≠ ""
  ordered : retryAvailableAt = "" ∨ now ≤ retryAvailableAt

/-- The error of a row that a recovery resolves. -/
def lapse : Text := leaseError "process lease expired during recovery"

/-- The row has attempts left, and they may be used without being asked for. -/
def requeues (row : ProcessRow) : Bool := row.attempt < row.maxAttempts ∧ automaticRetryAllowed row.metadata

namespace Recovery

variable (c : Recovery)

def program : Sql IncompleteRecoveryResult := recoverIncompleteProcesses c.workerId c.now c.retryAvailableAt

def due : String := if c.retryAvailableAt ≠ "" then c.retryAvailableAt else c.now

/-- A running claim of the worker whose lease has expired. -/
def expired (row : ProcessRow) : Bool := row.status = .running ∧ row.leaseOwner = c.workerId ∧ leaseExpired row c.now

def selected (db : Database) : List ProcessRow := expiredRows c.workerId c.now db.processes.rows

/-- The row back in the queue, or failed. -/
def resolve (row : ProcessRow) : ProcessRow :=
  { row with
    status := if requeues row then .retryWait else .failed
    outputJson := if requeues row then row.outputJson else .braces
    errorJson := lapse
    availableAt := if requeues row then c.due else row.availableAt
    leaseOwner := ""
    leaseExpiresAt := ""
    finishedAt := if requeues row then "" else c.now
    updatedAt := c.now }

/-- Some rows resolved, and the others as they are. -/
def resolveAll (done rows : List ProcessRow) : List ProcessRow :=
  rows.map fun row => if row ∈ done then c.resolve row else row

def item (row : ProcessRow) : IncompleteRecoveryItem :=
  ⟨row.runId, row.id, .running, (c.resolve row).status, row.attempt, row.maxAttempts⟩

/-- What is reported of some resolved rows. -/
def report (done : List ProcessRow) : IncompleteRecoveryResult where
  workerId := c.workerId
  now := c.now
  recoveredCount := done.length
  requeuedCount := done.countP requeues
  unrecoverableCount := done.countP fun row => ¬ requeues row
  items := done.map c.item

/-- The transition that resolves a row. -/
def transition (row : ProcessRow) : ProcessTransition :=
  if requeues row then
    { runId := row.runId, processId := row.id, toStatus := .retryWait, actor := row.leaseOwner, at_ := c.now,
      errorJson := lapse, availableAt := c.due }
  else
    { runId := row.runId, processId := row.id, toStatus := .failed, actor := row.leaseOwner, at_ := c.now,
      errorJson := lapse }

/-- What the journal asks of a row that a recovery resolves. -/
structure Admitted (db : Database) (row : ProcessRow) : Prop where
  named : row.id ≠ ""
  known : RunKnown db row.runId
  counted : Counted row
  recordable : (c.transition row).Recordable db ((c.transition row).payload .braces lapse row) row

def maintenance (row : ProcessRow) : Maintenance := ⟨row.leaseOwner, c.now, c.due, lapse⟩

variable {c} {db db' : Database} {row other : ProcessRow}

theorem due_ne : c.due ≠ "" := by
  unfold due
  split
  · assumption
  · exact c.named.2

theorem now_le_due : c.now ≤ c.due := by
  unfold due
  split
  · rename_i given
    exact c.ordered.resolve_left given
  · exact String.le_refl c.now

theorem transition_key : ((c.transition row).runId, (c.transition row).processId) = row.key := by
  unfold transition
  split <;> rfl

theorem transition_spelled : (c.transition row).idempotencyKey = "" ∧ (c.transition row).at_ = c.now ∧
    (c.transition row).actor = row.leaseOwner ∧ (c.transition row).errorJson = lapse ∧
    (c.transition row).outputJson = .braces := by
  unfold transition
  split <;> exact ⟨rfl, rfl, rfl, rfl, rfl⟩

theorem lapse_canonical : lapse.canonical = some lapse := by decide +kernel

theorem transition_moved : (c.transition row).moved .braces lapse row = c.resolve row := by
  have given : lapse ≠ .braces := by decide +kernel
  unfold transition resolve
  split
  · simp [ProcessTransition.moved, ProcessTransition.update, ProcessTransition.storedError, ProcessTransition.due, given,
      due_ne]
  · simp [ProcessTransition.moved, ProcessTransition.update, ProcessTransition.storedError, ProcessStatus.isTerminal]

theorem admitted_iff (found : db.processes.find? row.key = some row) (running : row.status = .running)
    (owned : row.leaseOwner = c.workerId) : c.Admitted db row ↔ (c.transition row).Movable db row .braces lapse := by
  obtain ⟨-, now, actor, error, output⟩ := @transition_spelled c row
  have key := @transition_key c row
  have run : (c.transition row).runId = row.runId := congrArg Prod.fst key
  have process : (c.transition row).processId = row.id := congrArg Prod.snd key
  constructor
  · intro admitted
    refine ⟨⟨?_, ?_, ?_, ?_, ?_, ?_, ?_⟩, ⟨admitted.counted, ?_, ?_, ?_⟩, admitted.recordable⟩
    · rw [process]
      exact admitted.named
    · rw [now]
      exact c.named.2
    · rw [actor, owned]
      exact c.named.1
    · rw [run]
      exact admitted.known
    · rw [key]
      exact found
    · rw [output]
      rfl
    · rw [error]
      exact lapse_canonical
    · unfold transition
      split <;> simp [ProcessTransition.legal, canTransitionProcess, ProcessStatus.isTerminal, running]
    · unfold transition requeues
      split
      · rename_i left
        exact fun _ => (of_decide_eq_true left).1
      · intro retried
        cases retried
    · intro _
      exact .inr actor.symm
  · intro movable
    refine ⟨?_, ?_, movable.permits.counted, movable.recordable⟩
    · rw [← process]
      exact movable.admits.named
    · rw [← run]
      exact movable.admits.known

theorem maintainProcess_eval (known : RunKnown db row.runId) (found : db.processes.find? row.key = some row)
    (running : row.status = .running) (owned : row.leaseOwner = c.workerId) :
    (maintainProcess row (c.maintenance row)).eval db = (transitionProcess (c.transition row)).eval db := by
  have named : (c.maintenance row).workerId ≠ "" := by
    change row.leaseOwner ≠ ""
    rw [owned]
    exact c.named.1
  have same : sameLease row row = true := by simp [sameLease]
  have error : (c.maintenance row).failure = lapse := by
    have given : lapse ≠ .empty := by decide +kernel
    exact if_pos given
  have later : (c.maintenance row).due = c.due := if_pos due_ne
  unfold maintainProcess
  rw [ok_bind (require_met (decide_eq_true named)), ok_bind (getProcess_ok.mpr ⟨known, found, rfl⟩),
    ok_bind (require_met same), if_neg (not_not.mpr running)]
  unfold resolveExpired transition requeues
  by_cases left : row.attempt < row.maxAttempts ∧ automaticRetryAllowed row.metadata
  · have unspent : ¬ (row.maxAttempts ≤ row.attempt ∨ ¬ automaticRetryAllowed row.metadata = true) := by
      rw [not_or, not_not, Int.not_le]
      exact left
    have ordered : (c.maintenance row).now ≤ (c.maintenance row).due := by
      rw [later]
      exact now_le_due
    rw [if_neg unspent, if_pos (decide_eq_true left), ok_bind (require_met (decide_eq_true ordered)), error, later]
    rfl
  · have spent : row.maxAttempts ≤ row.attempt ∨ ¬ automaticRetryAllowed row.metadata = true := by
      rw [← Int.not_lt, ← not_and_or]
      exact left
    rw [if_pos spent, if_neg (by simpa using left), error]
    rfl

/-- What a resolved row leaves: its resolution, and for other rows a journal like the one before. -/
structure Resolved (c : Recovery) (row : ProcessRow) (db db' : Database) : Prop where
  rows : db'.processes.rows = db.processes.rows.map fun other => if other.key = row.key then c.resolve row else other
  alike : ∀ other : ProcessRow, other.key ≠ row.key → Alike (c.transition other) db db'

theorem transition_apart (apart : other.key ≠ row.key) (run : (c.transition other).runId = (c.transition row).runId) :
    (c.transition other).effectiveKey ≠ (c.transition row).effectiveKey := by
  apply effectiveKey_ne
  · intro process
    apply apart
    rw [← @transition_key c other, ← @transition_key c row, run, process]
  · exact ⟨transition_spelled.1, transition_spelled.1⟩
  · exact transition_spelled.2.1.trans transition_spelled.2.1.symm

theorem settle_store {t : ProcessTransition} {current left : ProcessRow} {output error : Text}
    (h : (t.settle current output error none).eval db = (.ok left, db')) :
    db'.runs = db.runs ∧
      (∃ keeps, db'.processes = db.processes.modify (t.runId, t.processId)
        (t.update (t.storedOutput output current) (t.storedError error current) output) keeps) ∧
      db'.commands.rows = db.commands.rows ++ [t.command (t.payload output error current)] ∧
      EventStored db'.commands.rows t.runId t.effectiveKey (t.event (t.payload output error current) current)
        db.events.rows db'.events.rows := by
  simp only [ProcessTransition.settle, transitionBody, bind_ok, require_ok, transact_ok, getProcess_ok, pure_ok] at h
  obtain ⟨_, _, ⟨-, rfl⟩, _, _, ⟨-, rfl⟩, _, _, ⟨-, rfl⟩, _, _, ⟨-, rfl⟩, _, _,
    ⟨_, _, ⟨-, -, rfl⟩, _, _, ⟨-, rfl⟩, _, _, update, _, _, ⟨changed, rfl⟩, _, _, command, _, _, event, -, rfl⟩, -, -, rfl⟩ := h
  obtain ⟨old, stored, -, rfl⟩ := updateProcess_one update (of_decide_eq_true changed)
  obtain ⟨commands, appended, rfl⟩ := insertCommand_rows command
  obtain ⟨events, told, rfl⟩ := appendEventInTx_rows event
  exact ⟨rfl, ⟨fun _ => rfl, rfl⟩, appended, told⟩

theorem alike_of_settle {t q : ProcessTransition} {current left : ProcessRow} {output error : Text}
    (h : (q.settle current output error none).eval db = (.ok left, db'))
    (apart : (t.runId, t.processId) ≠ (q.runId, q.processId))
    (keys : t.runId = q.runId → t.effectiveKey ≠ q.effectiveKey) : Alike t db db' := by
  obtain ⟨runs, ⟨_, processes⟩, commands, told⟩ := settle_store h
  have key : (t.runId, t.effectiveKey) ≠ (q.runId, q.effectiveKey) := by
    intro same
    exact keys (congrArg Prod.fst same) (congrArg Prod.snd same)
  have event : (t.runId, t.effectiveKey ++ ":event") ≠ (q.runId, q.effectiveKey ++ ":event") := by
    intro same
    exact keys (congrArg Prod.fst same) (String.append_left_inj _ |>.mp (congrArg Prod.snd same))
  refine ⟨?_, ?_, ?_, ?_, ?_⟩
  · rw [RunKnown, RunKnown, runs]
  · rw [processes, Table.find?_modify, if_neg apart]
  · rw [Database.commandByKey, Database.commandByKey, Ledger.find?, Ledger.find?, commands, List.find?_append]
    simp only [List.find?_cons, List.find?_nil, CommandRow.unique, ProcessTransition.command, Ne.symm key, decide_false,
      Option.or_none]
  · rw [commands, List.map_append, List.mem_append, List.map_singleton, List.mem_singleton]
    exact or_iff_left key
  · rw [Database.eventById, Database.eventById, Ledger.find?, Ledger.find?]
    generalize db'.events.rows = after at told ⊢
    cases told with
    | replayed sequence stored => rfl
    | appended fresh referenced =>
      rw [List.find?_append]
      simp only [List.find?_cons, List.find?_nil, EventRow.unique, EventInput.row, ProcessTransition.event, Ne.symm event,
        decide_false, Option.or_none]

theorem resolved_of_settle {left : ProcessRow} (found : db.processes.find? row.key = some row)
    (h : ((c.transition row).settle row .braces lapse none).eval db = (.ok left, db')) : c.Resolved row db db' := by
  constructor
  · obtain ⟨-, ⟨_, processes⟩, -⟩ := settle_store h
    rw [processes, transition_key]
    apply List.map_congr_left
    intro other member
    by_cases same : other.key = row.key
    · obtain rfl : other = row :=
        Option.some.inj ((Table.find?_some.mpr ⟨member, same⟩).symm.trans found)
      rw [if_pos rfl, if_pos rfl]
      exact transition_moved
    · rw [if_neg same, if_neg same]
  · intro other apart
    apply alike_of_settle h
    · rw [transition_key, transition_key]
      exact apart
    · exact transition_apart apart

theorem maintainProcess_unknown (unknown : ¬ RunKnown db row.runId) (owned : row.leaseOwner = c.workerId) :
    ∃ message, (maintainProcess row (c.maintenance row)).eval db = (.error message, db) := by
  have named : (c.maintenance row).workerId ≠ "" := by
    change row.leaseOwner ≠ ""
    rw [owned]
    exact c.named.1
  have reads : ((getProcess row.runId row.id).eval db).2 = db := getProcess_reads row.runId row.id ⟨db, none⟩
  unfold maintainProcess
  rw [ok_bind (require_met (decide_eq_true named)), eval_bind]
  cases read : (getProcess row.runId row.id).eval db with
  | mk result db' =>
    rw [read] at reads
    obtain rfl : db' = db := reads
    cases result with
    | error message => exact ⟨message, rfl⟩
    | ok current => exact absurd (getProcess_ok.mp read).1 unknown

/-- A row that is admitted is resolved; otherwise its maintenance changes nothing, and raises or gives the row back. -/
theorem maintainProcess_cases (found : db.processes.find? row.key = some row) (running : row.status = .running)
    (owned : row.leaseOwner = c.workerId) :
    (c.Admitted db row ∧ ∃ db', (maintainProcess row (c.maintenance row)).eval db = (.ok (c.resolve row), db') ∧
        c.Resolved row db db') ∨
      ¬ c.Admitted db row ∧ ((maintainProcess row (c.maintenance row)).eval db = (.ok row, db) ∨
        ∃ message, (maintainProcess row (c.maintenance row)).eval db = (.error message, db)) := by
  by_cases admitted : c.Admitted db row
  · refine .inl ⟨admitted, ?_⟩
    have movable := (admitted_iff found running owned).mp admitted
    obtain ⟨db', moved, -⟩ := ProcessTransition.of_recordable movable.admits movable.recordable movable.permits
    rw [transition_moved] at moved
    refine ⟨db', (maintainProcess_eval admitted.known found running owned).trans moved, ?_⟩
    rw [movable.admits.eval, movable.recordable.key] at moved
    exact resolved_of_settle found moved
  · refine .inr ⟨admitted, ?_⟩
    by_cases known : RunKnown db row.runId
    · rw [maintainProcess_eval known found running owned]
      cases ran : (transitionProcess (c.transition row)).eval db with
      | mk result db' =>
        cases result with
        | error message =>
          rw [transitionProcess_restores _ db message db' ran]
          exact .inr ⟨message, rfl⟩
        | ok left =>
          obtain ⟨current, output, error, admits⟩ := ProcessTransition.admits_of_ok ran
          have here := admits.found
          rw [transition_key] at here
          obtain rfl : current = row := Option.some.inj (here.symm.trans found)
          have settled := ran
          rw [admits.eval] at settled
          cases prior : db.commandByKey (c.transition current).runId (c.transition current).effectiveKey with
          | some stored =>
            rw [prior] at settled
            simp only [ProcessTransition.settle, bind_ok, ofExcept_ok, require_ok, getProcess_ok] at settled
            obtain ⟨read, _, ⟨-, rfl⟩, _, _, ⟨same, rfl⟩, -, again, rfl⟩ := settled
            have process : processIdFromPayload read "" = (c.transition current).processId :=
              (of_decide_eq_true same).1
            rw [process, transition_key, found] at again
            obtain rfl := Option.some.inj again
            exact .inl rfl
          | none =>
            rw [prior] at settled
            obtain ⟨_, _, _, admits', permits, -⟩ := ProcessTransition.of_ok prior ran
            obtain rfl := Option.some.inj (admits'.found.symm.trans admits.found)
            have braces : output = .braces := by
              have printed := admits.output
              rw [transition_spelled.2.2.2.2] at printed
              exact (Option.some.inj printed).symm
            have error' : error = lapse := by
              have printed := admits.error
              rw [transition_spelled.2.2.2.1, lapse_canonical] at printed
              exact (Option.some.inj printed).symm
            subst braces error'
            apply absurd _ admitted
            apply (admitted_iff found running owned).mpr
            exact ⟨admits, permits, ProcessTransition.recordable_of_settle prior settled⟩
    · exact .inr (maintainProcess_unknown known owned)

/-- Rows of the store, each an expired claim of the worker. -/
structure Pending (c : Recovery) (rows : List ProcessRow) (db : Database) : Prop where
  found : ∀ row ∈ rows, db.processes.find? row.key = some row
  running : ∀ row ∈ rows, row.status = .running
  owned : ∀ row ∈ rows, row.leaseOwner = c.workerId
  apart : rows.Pairwise fun row other => other.key ≠ row.key

/-- The store after the rows were resolved one after another. -/
inductive Resolves (c : Recovery) : List ProcessRow → Database → Database → Prop
  | none (db : Database) : Resolves c [] db db
  | next {row : ProcessRow} {rest : List ProcessRow} {db middle after : Database} (admitted : c.Admitted db row)
      (resolved : c.Resolved row db middle) (resolves : Resolves c rest middle after) :
      Resolves c (row :: rest) db after

theorem Resolved.admitted (resolved : c.Resolved row db db') (apart : other.key ≠ row.key) :
    c.Admitted db' other ↔ c.Admitted db other := by
  have run : (c.transition other).runId = other.runId := congrArg Prod.fst transition_key
  have alike := resolved.alike other apart
  have forward : ∀ {db db' : Database}, Alike (c.transition other) db db' → c.Admitted db other → c.Admitted db' other := by
    intro db db' alike admitted
    have known := alike.known
    rw [run] at known
    refine ⟨admitted.named, known.mp admitted.known, admitted.counted, ?_, ?_, ?_⟩
    · exact alike.key.trans admitted.recordable.key
    · exact fun there => admitted.recordable.command (alike.command.mp there)
    · exact fun e stored => admitted.recordable.event e (alike.event.symm.trans stored)
  exact ⟨forward alike.symm, forward alike⟩

theorem Pending.tail {rest : List ProcessRow} (pending : c.Pending (row :: rest) db) (resolved : c.Resolved row db db') :
    c.Pending rest db' := by
  have apart := List.pairwise_cons.mp pending.apart
  refine ⟨?_, fun other member => pending.running other (List.mem_cons_of_mem row member),
    fun other member => pending.owned other (List.mem_cons_of_mem row member), apart.2⟩
  intro other member
  have kept := (resolved.alike other (apart.1 other member)).found
  rw [transition_key] at kept
  exact kept.trans (pending.found other (List.mem_cons_of_mem row member))

theorem Resolves.admitted {done : List ProcessRow} (resolves : c.Resolves done db db')
    (apart : ∀ row ∈ done, other.key ≠ row.key) : c.Admitted db' other ↔ c.Admitted db other := by
  induction resolves with
  | none db => rfl
  | next _ resolved _ ih =>
    have rest := ih fun row member => apart row (List.mem_cons_of_mem _ member)
    exact rest.trans (resolved.admitted (apart _ (List.mem_cons_self ..)))

theorem Resolves.all_admitted {done : List ProcessRow} (resolves : c.Resolves done db db') (pending : c.Pending done db) :
    ∀ row ∈ done, c.Admitted db row := by
  induction resolves with
  | none db => exact fun row member => absurd member List.not_mem_nil
  | next admitted resolved _ ih =>
    intro row member
    rcases List.mem_cons.mp member with rfl | later
    · exact admitted
    · have apart := (List.pairwise_cons.mp pending.apart).1 row later
      exact (resolved.admitted apart).mp (ih (pending.tail resolved) row later)

theorem not_expired_resolve (c c' : Recovery) (row : ProcessRow) : c'.expired (c.resolve row) = false := by
  unfold expired resolve
  split <;> simp

theorem Resolves.rows {done : List ProcessRow} (resolves : c.Resolves done db db') (pending : c.Pending done db) :
    db'.processes.rows = c.resolveAll done db.processes.rows := by
  induction resolves with
  | none db => simp [resolveAll]
  | @next row rest db middle after admitted resolved _ ih =>
    have later := pending.tail resolved
    rw [ih later, resolved.rows, resolveAll, resolveAll, List.map_map]
    apply List.map_congr_left
    intro other member
    by_cases same : other.key = row.key
    · have found := pending.found row (List.mem_cons_self ..)
      obtain rfl : other = row := Option.some.inj ((Table.find?_some.mpr ⟨member, same⟩).symm.trans found)
      have moved : c.resolve other ∉ rest := by
        intro resumed
        have running := later.running _ resumed
        have owned := later.owned _ resumed
        have held : (c.resolve other).leaseOwner = "" := rfl
        exact c.named.1 (owned.symm.trans held)
      simp [moved]
    · have other_ne : other ≠ row := by
        rintro rfl
        exact same rfl
      simp [same, other_ne]

/-- What a loop over the rows leaves, and what it gives back. -/
structure Swept (c : Recovery) (rows : List ProcessRow) (conn : Connection Database)
    (ran : Except String (List IncompleteRecoveryItem) × Connection Database) (done rest : List ProcessRow) : Prop where
  split : rows = done ++ rest
  resolves : c.Resolves done conn.store ran.2.store
  returned : ∀ items, ran.1 = .ok items → rest = [] ∧ items = done.map c.item
  stopped : ∀ message, conn.faults = none → ran.1 = .error message →
    ∃ row later, rest = row :: later ∧ ¬ c.Admitted conn.store row

theorem Swept.stays {rows : List ProcessRow} {conn conn' : Connection Database} {message : String}
    (same : conn'.store = conn.store)
    (stopped : conn.faults = none → ∃ row later, rows = row :: later ∧ ¬ c.Admitted conn.store row) :
    c.Swept rows conn (.error message, conn') [] rows := by
  refine ⟨rfl, ?_, nofun, fun _ unfaulted _ => stopped unfaulted⟩
  rw [same]
  exact .none conn.store

/-- What the loop gives back when it went on after a row. -/
def reported (left : ProcessRow) :
    Except String (List IncompleteRecoveryItem) × Connection Database →
      Except String (List IncompleteRecoveryItem) × Connection Database
  | (.ok items, last) =>
    (.ok (⟨left.runId, left.id, .running, left.status, left.attempt, left.maxAttempts⟩ :: items), last)
  | (.error message, last) => (.error message, last)

theorem recoverRows_cons {tail : List ProcessRow} {conn middle : Connection Database} {left : ProcessRow}
    (ran : (maintainProcess row (c.maintenance row)).run conn = (.ok left, middle)) :
    (recoverRows c.now c.due (row :: tail)).run conn =
      if left.status = .retryWait ∨ left.status = .failed then reported left ((recoverRows c.now c.due tail).run middle)
      else (.error "driver: recovery produced unsupported process status", middle) := by
  have start : (recoverRows c.now c.due (row :: tail)).run conn = _ :=
    run_bind (maintainProcess row (c.maintenance row)) _ conn
  rw [start, ran]
  by_cases resolved : left.status = .retryWait ∨ left.status = .failed
  · rw [if_pos resolved]
    simp only [decide_eq_true resolved, Program.require, if_true, Program.pure_bind]
    rw [run_bind]
    rcases (recoverRows c.now c.due tail).run middle with ⟨_ | _, last⟩ <;> rfl
  · rw [if_neg resolved]
    simp only [decide_eq_false resolved, Program.require]
    rfl

theorem recoverRows_raised {tail : List ProcessRow} {conn middle : Connection Database} {message : String}
    (ran : (maintainProcess row (c.maintenance row)).run conn = (.error message, middle)) :
    (recoverRows c.now c.due (row :: tail)).run conn = (.error message, middle) := by
  have start : (recoverRows c.now c.due (row :: tail)).run conn = _ :=
    run_bind (maintainProcess row (c.maintenance row)) _ conn
  rw [start, ran]

theorem resolve_status (row : ProcessRow) : (c.resolve row).status = .retryWait ∨ (c.resolve row).status = .failed := by
  unfold resolve
  split
  · exact .inl rfl
  · exact .inr rfl

theorem Swept.next {tail done rest : List ProcessRow} {conn middle : Connection Database}
    {ran : Except String (List IncompleteRecoveryItem) × Connection Database} (admitted : c.Admitted conn.store row)
    (resolved : c.Resolved row conn.store middle.store) (unfaulted : conn.faults = none → middle.faults = none)
    (apart : ∀ other ∈ tail, other.key ≠ row.key) (swept : c.Swept tail middle ran done rest) :
    c.Swept (row :: tail) conn (reported (c.resolve row) ran) (row :: done) rest := by
  obtain ⟨split, resolves, returned, stopped⟩ := swept
  obtain ⟨result, last⟩ := ran
  cases result with
  | error message =>
    refine ⟨congrArg (row :: ·) split, .next admitted resolved resolves, nofun, ?_⟩
    intro message' none _
    obtain ⟨other, later, at_, refused⟩ := stopped message (unfaulted none) rfl
    have member : other ∈ tail := by
      rw [split, at_]
      exact List.mem_append_right done (List.mem_cons_self ..)
    refine ⟨other, later, at_, ?_⟩
    rw [← resolved.admitted (apart other member)]
    exact refused
  | ok items =>
    obtain ⟨none, listed⟩ := returned items rfl
    refine ⟨congrArg (row :: ·) split, .next admitted resolved resolves, ?_, nofun⟩
    rintro items' ⟨⟩
    exact ⟨none, congrArg (c.item row :: ·) listed⟩

/-- An error while a row is maintained: the row is left as it was, or it was resolved before the statement failed. -/
theorem swept_of_raised {tail : List ProcessRow} {conn middle : Connection Database} {message : String}
    (found : conn.store.processes.find? row.key = some row) (running : row.status = .running)
    (owned : row.leaseOwner = c.workerId)
    (ran : (maintainProcess row (c.maintenance row)).run conn = (.error message, middle)) :
    ∃ done rest, c.Swept (row :: tail) conn (.error message, middle) done rest := by
  have cases := maintainProcess_cases found running owned
  by_cases unfaulted : conn.faults = none
  · obtain ⟨store, faults⟩ := conn
    obtain rfl : faults = none := unfaulted
    have raised : (maintainProcess row (c.maintenance row)).eval store = (.error message, middle.store) := by
      rw [Program.eval, ran]
    rw [raised] at cases
    rcases cases with ⟨-, db', moved, -⟩ | ⟨admitted, moved | ⟨_, moved⟩⟩
    · cases moved
    · cases moved
    · have same : middle.store = store := congrArg Prod.snd moved
      exact ⟨[], row :: tail, Swept.stays same fun _ => ⟨row, tail, rfl, admitted⟩⟩
  · have stopped : ∀ done, conn.faults = none → ∃ row later, done = row :: later ∧ ¬ c.Admitted conn.store row :=
      fun _ none => absurd none unfaulted
    have settles := maintainProcess_settles row (c.maintenance row) conn.store conn.faults
    change (((maintainProcess row (c.maintenance row)).run conn).2.store = _ ∨ _) at settles
    rw [ran] at settles
    rcases settles with same | ⟨final, -⟩
    · exact ⟨[], row :: tail, Swept.stays same (stopped _)⟩
    · change middle.store = _ at final
      rcases cases with ⟨admitted, db', moved, resolved⟩ | ⟨-, moved | ⟨_, moved⟩⟩
      · rw [moved] at final
        obtain rfl : db' = middle.store := Eq.symm final
        exact ⟨[row], tail, rfl, .next admitted resolved (.none _), (fun _ ended => by cases ended), fun _ none _ => stopped tail none⟩
      · rw [moved] at final
        exact ⟨[], row :: tail, Swept.stays final (stopped _)⟩
      · rw [moved] at final
        exact ⟨[], row :: tail, Swept.stays final (stopped _)⟩

theorem recoverRows_swept (rows : List ProcessRow) (conn : Connection Database) (pending : c.Pending rows conn.store) :
    ∃ done rest, c.Swept rows conn ((recoverRows c.now c.due rows).run conn) done rest := by
  induction rows generalizing conn with
  | nil =>
    refine ⟨[], [], rfl, .none conn.store, ?_, nofun⟩
    rintro items ⟨⟩
    exact ⟨rfl, rfl⟩
  | cons row tail ih =>
    have found := pending.found row (List.mem_cons_self ..)
    have running := pending.running row (List.mem_cons_self ..)
    have owned := pending.owned row (List.mem_cons_self ..)
    have apart := (List.pairwise_cons.mp pending.apart).1
    cases ran : (maintainProcess row (c.maintenance row)).run conn with
    | mk result middle =>
      cases result with
      | error message =>
        rw [recoverRows_raised ran]
        exact swept_of_raised found running owned ran
      | ok left =>
        have returned := eval_of_run ran
        rw [recoverRows_cons ran]
        rcases maintainProcess_cases found running owned with ⟨admitted, db', moved, resolved⟩ | ⟨admitted, moved | ⟨_, moved⟩⟩
        · have same := moved.symm.trans returned
          obtain rfl : c.resolve row = left := Except.ok.inj (congrArg Prod.fst same)
          obtain rfl : db' = middle.store := congrArg Prod.snd same
          have unfaulted : conn.faults = none → middle.faults = none := by
            intro none
            have settled := (maintainProcess row (c.maintenance row)).settled conn.store
            rw [← none] at settled
            change ((maintainProcess row (c.maintenance row)).run conn).2.faults = _ at settled
            rw [ran] at settled
            exact settled.trans none
          obtain ⟨done, rest, swept⟩ := ih middle (pending.tail resolved)
          rw [if_pos (resolve_status row)]
          exact ⟨row :: done, rest, swept.next admitted resolved unfaulted apart⟩
        · have same := moved.symm.trans returned
          obtain rfl : row = left := Except.ok.inj (congrArg Prod.fst same)
          have unresolved : ¬ (row.status = .retryWait ∨ row.status = .failed) := by simp [running]
          rw [if_neg unresolved]
          exact ⟨[], row :: tail, Swept.stays (congrArg Prod.snd same).symm fun _ => ⟨row, tail, rfl, admitted⟩⟩
        · rw [moved] at returned
          cases returned

/-- The order of the selected rows. -/
def before (left right : ProcessRow) : Prop :=
  if left.runId ≠ right.runId then left.runId < right.runId else left.id ≤ right.id

instance : DecidableRel before := fun _ _ => inferInstanceAs (Decidable (ite _ _ _))

theorem keyOrder_eq (rows : List ProcessRow) : keyOrder rows = rows.insertionSort before := rfl

theorem keyOrder_pairwise (rows : List ProcessRow) : (keyOrder rows).Pairwise before := by
  have total : Std.Total before := ⟨by
    intro left right
    unfold before
    by_cases same : left.runId = right.runId
    · simpa [same] using le_total left.id right.id
    · simpa [same, Ne.symm same] using lt_or_gt_of_ne same⟩
  have trans : IsTrans ProcessRow before := ⟨by
    intro left middle right
    unfold before
    intro first second
    by_cases near : left.runId = middle.runId
    · by_cases far : middle.runId = right.runId
      · rw [if_neg (not_not.mpr near)] at first
        rw [if_neg (not_not.mpr far)] at second
        rw [if_neg (not_not.mpr (near.trans far))]
        exact first.trans second
      · rw [if_pos far] at second
        rw [near, if_pos far]
        exact second
    · rw [if_pos near] at first
      by_cases far : middle.runId = right.runId
      · rw [← far, if_pos near]
        exact first
      · rw [if_pos far] at second
        have less := first.trans second
        rw [if_pos less.ne]
        exact less⟩
  exact List.pairwise_insertionSort before rows

theorem key_eq_of_before {left right : ProcessRow} (first : before left right) (second : before right left) :
    left.key = right.key := by
  unfold before at first second
  by_cases same : left.runId = right.runId
  · rw [if_neg (not_not.mpr same)] at first
    rw [if_neg (not_not.mpr same.symm)] at second
    exact Prod.ext same (le_antisymm first second)
  · rw [if_pos same] at first
    rw [if_pos (Ne.symm same)] at second
    exact absurd second first.asymm

theorem keyOrder_filter (rows : List ProcessRow) (distinct : (rows.map ProcessRow.key).Nodup) (p : ProcessRow → Bool) :
    keyOrder (rows.filter p) = (keyOrder rows).filter p := by
  apply List.Perm.eq_of_pairwise
  · intro left right there here first second
    have left_mem : left ∈ rows := List.mem_of_mem_filter ((List.mem_insertionSort _).mp there)
    have right_mem : right ∈ rows := (List.mem_insertionSort _).mp (List.mem_of_mem_filter here)
    exact List.inj_on_of_nodup_map distinct left_mem right_mem (key_eq_of_before first second)
  · exact keyOrder_pairwise _
  · exact (keyOrder_pairwise rows).filter p
  · have sorted : (keyOrder (rows.filter p)).Perm (rows.filter p) := List.perm_insertionSort _ _
    exact sorted.trans ((List.perm_insertionSort _ rows).filter p).symm

theorem mem_selected : row ∈ c.selected db ↔ row ∈ db.processes.rows ∧ c.expired row = true := by
  unfold selected expiredRows
  rw [keyOrder_eq, List.mem_insertionSort, List.mem_filter]
  rfl

theorem selected_pending (db : Database) : c.Pending (c.selected db) db := by
  have expired : ∀ row ∈ c.selected db, row.status = .running ∧ row.leaseOwner = c.workerId := by
    intro row member
    have held := of_decide_eq_true (mem_selected.mp member).2
    exact ⟨held.1, held.2.1⟩
  refine ⟨?_, fun row member => (expired row member).1, fun row member => (expired row member).2, ?_⟩
  · intro row member
    exact Table.find?_some.mpr ⟨(mem_selected.mp member).1, rfl⟩
  · have sorted : (c.selected db).Perm (db.processes.rows.filter c.expired) := List.perm_insertionSort _ _
    have distinct : ((db.processes.rows.filter c.expired).map ProcessRow.key).Nodup :=
      db.processes.distinct.sublist (List.filter_sublist.map _)
    have apart := List.pairwise_map.mp ((sorted.map ProcessRow.key).nodup_iff.mpr distinct)
    exact apart.imp Ne.symm

theorem selected_resolved {done : List ProcessRow} (c' : Recovery)
    (rows : db'.processes.rows = c.resolveAll done db.processes.rows) :
    c'.selected db' = (c'.selected db).filter (· ∉ done) := by
  have selects : ∀ db : Database, c'.selected db = keyOrder (db.processes.rows.filter c'.expired) := fun _ => rfl
  rw [selects, selects, rows, ← keyOrder_filter]
  · congr 1
    rw [resolveAll, List.filter_map, List.filter_filter]
    have remaining : (c'.expired ∘ fun row => if row ∈ done then c.resolve row else row) =
        fun row => decide (row ∉ done) && c'.expired row := by
      funext row
      by_cases resolved : row ∈ done
      · simp [resolved, not_expired_resolve]
      · simp [resolved]
    rw [remaining]
    apply (List.map_congr_left _).trans (List.map_id _)
    intro row member
    have held := (List.mem_filter.mp member).2
    rw [Bool.and_eq_true, decide_eq_true_eq] at held
    exact if_neg held.1
  · exact db.processes.distinct.sublist (List.filter_sublist.map _)

/-- What a call leaves of the rows it selects when some were resolved: the journal admitted those, and the others are as
    they were. -/
structure Recovered (c : Recovery) (db : Database) (faults : Option Nat) (done rest : List ProcessRow) : Prop where
  selects : c.selected db = done ++ rest
  admitted : ∀ row ∈ done, c.Admitted db row
  rows : (c.program.run ⟨db, faults⟩).2.store.processes.rows = c.resolveAll done db.processes.rows
  returned : ∀ result, (c.program.run ⟨db, faults⟩).1 = .ok result → rest = [] ∧ result = c.report done
  /-- Without a failing statement it stops only at a row that the journal does not admit. -/
  stopped : ∀ message, faults = none → (c.program.run ⟨db, faults⟩).1 = .error message →
    ∃ row later, rest = row :: later ∧ ¬ c.Admitted db row
  /-- No call of the worker selects a resolved row again, and the journal admits the others as before. -/
  remaining : ∀ c' : Recovery, c'.selected (c.program.run ⟨db, faults⟩).2.store = (c'.selected db).filter (· ∉ done)
  unaffected : ∀ row ∈ rest, c.Admitted (c.program.run ⟨db, faults⟩).2.store row ↔ c.Admitted db row

theorem report_eq (done : List ProcessRow) :
    (⟨c.workerId, c.now, (done.map c.item).length, (done.map c.item).countP (·.status = .retryWait),
      (done.map c.item).countP (·.status = .failed), done.map c.item⟩ : IncompleteRecoveryResult) = c.report done := by
  have requeued : ∀ row : ProcessRow, decide ((c.item row).status = .retryWait) = requeues row := by
    intro row
    unfold item resolve
    cases requeues row <;> rfl
  have failed : ∀ row : ProcessRow, decide ((c.item row).status = .failed) = decide (¬ requeues row) := by
    intro row
    unfold item resolve
    cases requeues row <;> rfl
  rw [report, List.length_map, List.countP_map, List.countP_map]
  congr 1
  · exact List.countP_congr fun row _ => by rw [Function.comp_apply, requeued]
  · exact List.countP_congr fun row _ => by rw [Function.comp_apply, failed]

theorem program_run (conn : Connection Database) :
    c.program.run conn = ((Program.fetch fun db => c.selected db) >>= fun rows => recoverRows c.now c.due rows >>= fun items =>
      pure (⟨c.workerId, c.now, items.length, items.countP (·.status = .retryWait), items.countP (·.status = .failed),
        items⟩ : IncompleteRecoveryResult)).run conn := by
  have named : (Program.require (c.workerId ≠ "" ∧ c.now ≠ "") "driver: recovery requires worker_id and now" : Sql Unit) =
      pure () := if_pos (decide_eq_true c.named)
  have ordered : (Program.require (c.now ≤ c.due)
      "driver: retry availability must not precede recovery timestamp" : Sql Unit) = pure () :=
    if_pos (decide_eq_true now_le_due)
  unfold program recoverIncompleteProcesses
  rw [named, Program.pure_bind]
  change (Program.require (c.now ≤ c.due) "driver: retry availability must not precede recovery timestamp" >>= _).run conn = _
  rw [ordered, Program.pure_bind]
  rfl

theorem program_swept (c : Recovery) (db : Database) (faults : Option Nat) :
    ∃ (items : Except String (List IncompleteRecoveryItem)) (left : Connection Database) (done rest : List ProcessRow),
      c.Swept (c.selected db) ⟨db, faults⟩ (items, left) done rest ∧
      c.program.run ⟨db, faults⟩ = (items.map fun items => ⟨c.workerId, c.now, items.length,
        items.countP (·.status = .retryWait), items.countP (·.status = .failed), items⟩, left) := by
  have read := (ReadOnly.fetch fun db => c.selected db : ReadOnly (Program.fetch fun db => c.selected db)) ⟨db, faults⟩
  have settled := (Program.fetch fun db => c.selected db).settled db
  rw [program_run, run_bind]
  cases fetched : (Program.fetch fun db => c.selected db).run ⟨db, faults⟩ with
  | mk result conn =>
    rw [fetched] at read
    cases result with
    | error message =>
      have faulted : faults ≠ none := by
        rintro rfl
        have evaluated := eval_fetch (fun db => c.selected db) db
        rw [Program.eval, fetched] at evaluated
        cases evaluated
      exact ⟨.error message, conn, [], c.selected db, Swept.stays read fun none => absurd none faulted, rfl⟩
    | ok rows =>
      have returned := eval_of_run fetched
      rw [eval_fetch] at returned
      obtain ⟨store, faults'⟩ := conn
      obtain rfl : store = db := read
      obtain rfl : c.selected store = rows := Except.ok.inj (congrArg Prod.fst returned)
      have unfaulted : faults = none → faults' = none := by
        rintro rfl
        rw [fetched] at settled
        exact settled
      obtain ⟨done, rest, split, resolves, listed, stopped⟩ :=
        recoverRows_swept (c.selected store) ⟨store, faults'⟩ (selected_pending store)
      refine ⟨((recoverRows c.now c.due (c.selected store)).run ⟨store, faults'⟩).1,
        ((recoverRows c.now c.due (c.selected store)).run ⟨store, faults'⟩).2, done, rest,
        ⟨split, resolves, listed, fun message none => stopped message (unfaulted none)⟩, ?_⟩
      apply (run_bind (recoverRows c.now c.due (c.selected store)) _ ⟨store, faults'⟩).trans
      rcases (recoverRows c.now c.due (c.selected store)).run ⟨store, faults'⟩ with ⟨_ | items, left⟩ <;> rfl

theorem recovered (c : Recovery) (db : Database) (faults : Option Nat) : ∃ done rest, c.Recovered db faults done rest := by
  obtain ⟨items, left, done, rest, ⟨split, resolves, listed, stopped⟩, ran⟩ := program_swept c db faults
  have pending := selected_pending (c := c) db
  have apart : (done ++ rest).Pairwise fun row other => other.key ≠ row.key := by
    rw [← split]
    exact pending.apart
  have first : c.Pending done db := by
    refine ⟨?_, ?_, ?_, (List.pairwise_append.mp apart).1⟩ <;> intro row member <;>
      have selected : row ∈ c.selected db := by
        rw [split]
        exact List.mem_append_left rest member
    · exact pending.found row selected
    · exact pending.running row selected
    · exact pending.owned row selected
  have rows := resolves.rows first
  refine ⟨done, rest, split, resolves.all_admitted first, ?_, ?_, ?_, ?_, ?_⟩
  · rw [ran]
    exact rows
  · intro result returned
    rw [ran] at returned
    cases items with
    | error message => cases returned
    | ok items =>
      obtain ⟨none, rfl⟩ := listed items rfl
      exact ⟨none, (Except.ok.inj returned).symm.trans (report_eq done)⟩
  · intro message unfaulted raised
    rw [ran] at raised
    cases items with
    | error message => exact stopped message unfaulted rfl
    | ok items => cases raised
  · intro c'
    rw [ran]
    exact selected_resolved c' rows
  · intro row member
    rw [ran]
    exact resolves.admitted fun resolved there => (List.pairwise_append.mp apart).2.2 resolved there row member

/-- What further calls of the worker find in the store that a call has left. -/
structure Repeats (c : Recovery) (db after : Database) (done rest : List ProcessRow) : Prop where
  same : rest = [] → ∀ c' : Recovery, c'.workerId = c.workerId → c'.now = c.now →
    c'.program.eval after = (.ok (c'.report []), after)
  later : rest = [] → ∀ c' : Recovery, c'.workerId = c.workerId →
    ∀ row ∈ c'.selected after, row ∈ db.processes.rows ∧ c.now < row.leaseExpiresAt
  resumed : (∀ row ∈ rest, c.Admitted db row) → ∃ after', c.program.eval after = (.ok (c.report rest), after') ∧
    after'.processes.rows = c.resolveAll (c.selected db) db.processes.rows

theorem eval_of_selected_nil (none : c.selected db = []) : c.program.eval db = (.ok (c.report []), db) := by
  have read : (Program.fetch fun db => c.selected db).eval db = (.ok [], db) := by rw [eval_fetch, none]
  have ran : c.program.eval db = _ := congrArg (fun ran => (ran.1, ran.2.store)) (program_run (c := c) ⟨db, Option.none⟩)
  rw [ran]
  exact ok_bind read

theorem resolveAll_append {done rest rows : List ProcessRow} (running : ∀ row ∈ rest, row.status = .running) :
    c.resolveAll rest (c.resolveAll done rows) = c.resolveAll (done ++ rest) rows := by
  rw [resolveAll, resolveAll, resolveAll, List.map_map]
  apply List.map_congr_left
  intro row _
  by_cases resolved : row ∈ done
  · have moved : c.resolve row ∉ rest := by
      intro member
      have status := resolve_status (c := c) row
      rw [running _ member] at status
      simp at status
    simp [resolved, moved]
  · simp [resolved]

theorem Recovered.repeats {faults : Option Nat} {done rest : List ProcessRow} (ran : c.Recovered db faults done rest) :
    c.Repeats db (c.program.run ⟨db, faults⟩).2.store done rest := by
  have pending := selected_pending (c := c) db
  have apart := pending.apart
  rw [ran.selects] at apart
  constructor
  · intro none c' worker now
    apply eval_of_selected_nil
    have selects : c'.selected db = c.selected db := by
      rw [selected, selected, worker, now]
    rw [ran.remaining c', selects, ran.selects, none, List.append_nil]
    simp
  · intro none c' worker row member
    rw [ran.remaining c', List.mem_filter, decide_eq_true_eq] at member
    obtain ⟨there, expired⟩ := mem_selected.mp member.1
    refine ⟨there, ?_⟩
    by_contra early
    have held := of_decide_eq_true expired
    have lapsed : leaseExpired row c.now = true :=
      decide_eq_true ⟨(of_decide_eq_true held.2.2).1, not_lt.mp early⟩
    have selected : row ∈ c.selected db :=
      mem_selected.mpr ⟨there, decide_eq_true ⟨held.1, held.2.1.trans worker, lapsed⟩⟩
    rw [ran.selects, none, List.append_nil] at selected
    exact member.2 selected
  · intro admitted
    obtain ⟨done', rest', again⟩ := recovered c (c.program.run ⟨db, faults⟩).2.store Option.none
    have remaining : c.selected (c.program.run ⟨db, faults⟩).2.store = rest := by
      have resolved : done.filter (· ∉ done) = [] := by simp
      have kept : rest.filter (· ∉ done) = rest := by
        apply List.filter_eq_self.mpr
        intro row member
        apply decide_eq_true
        intro there
        exact (List.pairwise_append.mp apart).2.2 row there row member rfl
      rw [ran.remaining c, ran.selects, List.filter_append, resolved, kept, List.nil_append]
    have selects := again.selects.symm.trans remaining
    have running : ∀ row ∈ rest, row.status = .running := by
      intro row member
      apply pending.running
      rw [ran.selects]
      exact List.mem_append_right done member
    cases evaluated : c.program.eval (c.program.run ⟨db, faults⟩).2.store with
    | mk result after' =>
      have result_eq : (c.program.run ⟨(c.program.run ⟨db, faults⟩).2.store, Option.none⟩).1 = result :=
        congrArg Prod.fst evaluated
      have store_eq : (c.program.run ⟨(c.program.run ⟨db, faults⟩).2.store, Option.none⟩).2.store = after' :=
        congrArg Prod.snd evaluated
      cases result with
      | error message =>
        obtain ⟨row, later, split, refused⟩ := again.stopped message rfl result_eq
        have member : row ∈ rest := by
          rw [← selects, split]
          exact List.mem_append_right done' (List.mem_cons_self ..)
        exact absurd ((ran.unaffected row member).mpr (admitted row member)) refused
      | ok report =>
        obtain ⟨rfl, rfl⟩ := again.returned report result_eq
        rw [List.append_nil] at selects
        subst selects
        refine ⟨after', rfl, ?_⟩
        rw [← store_eq, again.rows, ran.rows, resolveAll_append running, ran.selects]

end Recovery

/-- Whichever statement fails, some of the selected rows are resolved, a first part of them, and nothing else changes; a call
    in which none fails stops only before a row that the journal does not admit. A further call goes on from there. -/
theorem recoverIncompleteProcesses_exact (c : Recovery) (db : Database) (faults : Option Nat) :
    ∃ done rest, c.Recovered db faults done rest ∧ c.Repeats db (c.program.run ⟨db, faults⟩).2.store done rest := by
  obtain ⟨done, rest, ran⟩ := c.recovered db faults
  exact ⟨done, rest, ran, ran.repeats⟩

/-! Two claims of a worker whose leases end one after the other, and a journal in which a command already has the key of the
    first one's transition. -/

def lapsing (id leaseExpiresAt : String) : ProcessRow where
  runId := "run"
  id := id
  processType := "native"
  impulseId := ""
  status := .running
  priority := 0
  attempt := 1
  maxAttempts := 2
  availableAt := "t0"
  leaseOwner := "worker"
  leaseExpiresAt := leaseExpiresAt
  inputJson := .braces
  outputJson := .braces
  errorJson := .braces
  metadata := .braces
  createdAt := "t0"
  updatedAt := "t0"
  startedAt := "t0"
  finishedAt := ""
  outputSchemaJson := .empty

def lapsingJournal (commands : List CommandRow) (ids : (commands.map CommandRow.key).Nodup)
    (keys : (commands.map CommandRow.unique).Nodup) : Database :=
  { Database.empty with
    runs := ⟨[delegatingRun "run" "active"], by simp⟩
    processes := ⟨[lapsing "a" "t1", lapsing "b" "t2"], by simp [lapsing, ProcessRow.key]⟩
    commands := ⟨commands, ids, keys⟩ }

def noted : CommandRow where
  runId := "run"
  id := "process.a:retry_wait:t2"
  commandType := "note"
  idempotencyKey := "process.a:retry_wait:t2"
  actor := "operator"
  correlationId := ""
  causationId := ""
  payload := .braces
  createdAt := "t0"

def openJournal : Database := lapsingJournal [] .nil .nil

def notedJournal : Database := lapsingJournal [noted] (by simp) (by simp)

def recoveryAt (now : String) (given : now ≠ "") : Recovery := ⟨"worker", now, "", ⟨by decide, given⟩, .inl rfl⟩

/-- A call at a later instant finds the second claim expired, and a command of another kind under the key of the first row
    keeps every call from both rows. -/
theorem recovery_not_exact :
    (¬ ∀ (c later : Recovery) (db : Database), later.workerId = c.workerId → c.now ≤ later.now →
      (∃ result, (c.program.eval db).1 = .ok result) → (later.program.eval (c.program.eval db).2).2 = (c.program.eval db).2) ∧
    (¬ ∀ (c : Recovery) (db : Database),
      (c.program.eval db).2.processes.rows = c.resolveAll (c.selected db) db.processes.rows) ∧
    ¬ ∀ (c : Recovery) (db : Database), (∃ message, (c.program.eval db).1 = .error message) →
      (c.program.eval (c.program.eval db).2).2.processes.rows = c.resolveAll (c.selected db) db.processes.rows := by
  refine ⟨fun idempotent => ?_, fun exact => ?_, fun resumes => ?_⟩
  · have same := idempotent (recoveryAt "t1" (by decide)) (recoveryAt "t2" (by decide)) openJournal rfl (by decide)
      ⟨_, by with_unfolding_all rfl⟩
    revert same
    decide +kernel
  · have moved := exact (recoveryAt "t2" (by decide)) notedJournal
    revert moved
    decide +kernel
  · have moved := resumes (recoveryAt "t2" (by decide)) notedJournal ⟨_, by with_unfolding_all rfl⟩
    revert moved
    decide +kernel

end Fala.Driver
