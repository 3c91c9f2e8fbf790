import Fala.Driver.Boundary
import Fala.Driver.Persisted
import Fala.Driver.Turns
import Fala.Durable.Each
import Fala.Journal.Recording
import Fala.Journal.Repeat

/-! Which delegations a call closes. -/

namespace Fala.Driver
open Durable Program Journal

/-! Closings of different rows do not meet. -/

theorem effectiveKey_ne {t q : ProcessTransition} (apart : t.processId ≠ q.processId)
    (plain : t.idempotencyKey = "" ∧ q.idempotencyKey = "") (together : t.at_ = q.at_) :
    t.effectiveKey ≠ q.effectiveKey := by
  intro same
  rw [ProcessTransition.effectiveKey, ProcessTransition.effectiveKey, if_pos plain.1, if_pos plain.2,
    ProcessTransition.defaultKey, ProcessTransition.defaultKey, together] at same
  have named := String.append_left_inj _ |>.mp (String.append_left_inj _ |>.mp same)
  have pieces := congrArg (Joined.parts ':') named
  have status : ∀ s : ProcessStatus, ':' ∉ s.value.toList := by
    intro s
    cases s <;> decide
  have before : ∀ t : ProcessTransition, Joined.parts ':' ("process." ++ t.processId ++ ":" ++ t.toStatus.value) =
      Joined.parts ':' ("process." ++ t.processId) ++ [t.toStatus.value.toList] := by
    intro t
    rw [← Joined.parts_absent (status t.toStatus)]
    exact Joined.parts_append _ _
  rw [before, before] at pieces
  have ids := Joined.parts_injective (List.append_inj' pieces rfl).1
  exact apart (String.append_right_inj _ |>.mp ids)

/-- Two stores that hold the same for a transition. -/
structure Alike (t : ProcessTransition) (db db' : Database) : Prop where
  known : RunKnown db t.runId ↔ RunKnown db' t.runId
  found : db'.processes.find? (t.runId, t.processId) = db.processes.find? (t.runId, t.processId)
  key : db'.commandByKey t.runId t.effectiveKey = db.commandByKey t.runId t.effectiveKey
  command : (t.runId, t.effectiveKey) ∈ db'.commands.rows.map CommandRow.key ↔
    (t.runId, t.effectiveKey) ∈ db.commands.rows.map CommandRow.key
  event : db'.eventById t.runId (t.effectiveKey ++ ":event") = db.eventById t.runId (t.effectiveKey ++ ":event")

theorem Alike.symm {t : ProcessTransition} {db db' : Database} (alike : Alike t db db') : Alike t db' db :=
  ⟨alike.known.symm, alike.found.symm, alike.key.symm, alike.command.symm, alike.event.symm⟩

theorem Alike.movable {t : ProcessTransition} {db db' : Database} {row : ProcessRow} {output error : Text}
    (alike : Alike t db db') (movable : t.Movable db row output error) : t.Movable db' row output error := by
  obtain ⟨admits, permits, recordable⟩ := movable
  refine ⟨⟨admits.named, admits.timed, admits.acting, alike.known.mp admits.known, alike.found.trans admits.found,
    admits.output, admits.error⟩, permits, alike.key.trans recordable.key, ?_, ?_⟩
  · rw [alike.command]
    exact recordable.command
  · rw [alike.event]
    exact recordable.event

theorem Alike.of_written {t q : ProcessTransition} {db db' : Database} {output error : Text}
    (written : Written db (.act q.runId q.processId (.transition q output error)) db') (run : t.runId = q.runId)
    (known : RunKnown db q.runId) (apart : t.processId ≠ q.processId) (keys : t.effectiveKey ≠ q.effectiveKey) :
    Alike t db db' := by
  cases written with
  | act found enabled processes logged =>
    have events : t.effectiveKey ++ ":event" ≠ q.effectiveKey ++ ":event" := by
      intro same
      have letters := congrArg String.toList same
      simp only [String.toList_append] at letters
      exact keys (String.ext (List.append_cancel_right letters))
    refine ⟨?_, ?_, ?_, ?_, ?_⟩
    · rw [run]
      exact iff_of_true known ⟨known.1, logged.known⟩
    · rw [processes, if_neg]
      intro same
      exact apart (congrArg Prod.snd same)
    · rw [Database.commandByKey, Database.commandByKey, Ledger.find?, Ledger.find?, logged.stored, List.find?_append]
      simp [RowAction.commands, ProcessTransition.command, CommandRow.unique, Ne.symm keys]
    · rw [logged.stored, List.map_append, List.mem_append]
      simp [RowAction.commands, ProcessTransition.command, CommandRow.key, keys]
    · have told := logged.told
      rw [Database.eventById, Database.eventById, Ledger.find?, Ledger.find?]
      generalize db'.events.rows = after at told ⊢
      cases told with
      | cons first later =>
        cases later
        cases first with
        | replayed sequence stored => rfl
        | appended fresh referenced =>
          rw [List.find?_append]
          simp [ProcessTransition.event, EventInput.row, EventRow.unique, Ne.symm events]

/-! One row. -/

/-- The transition that closes a row. -/
def DelegationClosure.transition (c : DelegationClosure) (process : ProcessRow) (boundary : RunBoundaryResult) :
    ProcessTransition :=
  if boundary.derivedStatus = "completed" then
    { runId := c.parentRunId, processId := process.id, toStatus := .succeeded, actor := c.actor, at_ := c.at_,
      outputJson := closedOutput process.outputJson boundary, errorJson := .braces }
  else
    { runId := c.parentRunId, processId := process.id, toStatus := .failed, actor := c.actor, at_ := c.at_,
      errorJson := delegationError (delegationTarget process.outputJson) boundary }

section
variable (digest : Json → String) (c : DelegationClosure)

/-- What the journal checks when a row is closed: the schema of its output, where it succeeds, its attempts and its
    lease, and that nothing is recorded under the ids of the transition. -/
structure Closable (db : Database) (process : ProcessRow) (boundary : RunBoundaryResult) : Prop where
  accepted : boundary.derivedStatus = "completed" →
    checkOutput digest process.outputSchemaJson (closedOutput process.outputJson boundary) = .ok ()
  movable : ∃ output error, (c.transition process boundary).Movable db process output error

variable {digest c} {db db' : Database} {process : ProcessRow} {boundary : RunBoundaryResult}

theorem transition_runId : (c.transition process boundary).runId = c.parentRunId := by
  unfold DelegationClosure.transition
  split <;> rfl

theorem transition_processId : (c.transition process boundary).processId = process.id := by
  unfold DelegationClosure.transition
  split <;> rfl

theorem transition_plain : (c.transition process boundary).idempotencyKey = "" ∧
    (c.transition process boundary).at_ = c.at_ := by
  unfold DelegationClosure.transition
  split <;> exact ⟨rfl, rfl⟩

theorem transition_key_ne {other : ProcessRow} {boundary' : RunBoundaryResult} (apart : process.id ≠ other.id) :
    (c.transition process boundary).effectiveKey ≠ (c.transition other boundary').effectiveKey := by
  obtain ⟨plain, at_⟩ := @transition_plain c process boundary
  obtain ⟨plain', at_'⟩ := @transition_plain c other boundary'
  refine effectiveKey_ne ?_ ⟨plain, plain'⟩ (at_.trans at_'.symm)
  rw [transition_processId, transition_processId]
  exact apart

theorem closeDelegation_eval (known : RunKnown db c.parentRunId)
    (found : db.processes.find? (c.parentRunId, process.id) = some process)
    (accepted : boundary.derivedStatus = "completed" →
      checkOutput digest process.outputSchemaJson (closedOutput process.outputJson boundary) = .ok ()) :
    (closeDelegation digest c process boundary).eval db = (transitionProcess (c.transition process boundary)).eval db := by
  unfold closeDelegation DelegationClosure.transition
  by_cases completed : boundary.derivedStatus = "completed"
  · rw [if_pos completed, if_pos completed]
    unfold completeProcess
    rw [ok_bind (requireRun_ok (u := ()).mpr ⟨known, rfl⟩), ok_bind (getProcess_ok.mpr ⟨known, found, rfl⟩),
      ok_bind (ofExcept_ok.mpr ⟨accepted completed, rfl⟩)]
  · rw [if_neg completed, if_neg completed]
    rfl

theorem closeDelegation_restores (db : Database) : (closeDelegation digest c process boundary).Restores db := by
  unfold closeDelegation
  split
  · exact completeProcess_restores _ _ _ _ _ _ _ db
  · exact transitionProcess_restores _ db

theorem closeDelegation_moves (closable : Closable digest c db process boundary) :
    ∃ output error row db', (c.transition process boundary).Movable db process output error ∧
      (closeDelegation digest c process boundary).eval db = (.ok row, db') ∧
      Written db (.act (c.transition process boundary).runId (c.transition process boundary).processId
        (.transition (c.transition process boundary) output error)) db' := by
  obtain ⟨accepted, output, error, movable⟩ := closable
  obtain ⟨db', moved, -⟩ := ProcessTransition.of_recordable movable.admits movable.recordable movable.permits
  have settled := moved
  rw [movable.admits.eval, movable.recordable.key] at settled
  have known : RunKnown db c.parentRunId := transition_runId (c := c) ▸ movable.admits.known
  have found : db.processes.find? (c.parentRunId, process.id) = some process := by
    have found := movable.admits.found
    rwa [transition_runId, transition_processId] at found
  exact ⟨output, error, _, db', movable, (closeDelegation_eval known found accepted).trans moved,
    (ProcessTransition.settle_written movable.admits settled).2⟩

theorem closeDelegation_keeps (found : db.processes.find? (c.parentRunId, process.id) = some process)
    (stuck : ¬ Closable digest c db process boundary) : ((closeDelegation digest c process boundary).eval db).2 = db := by
  cases ran : (closeDelegation digest c process boundary).eval db with
  | mk result db' =>
    cases result with
    | error message => exact closeDelegation_restores db _ _ ran
    | ok row =>
      have accepted : boundary.derivedStatus = "completed" →
          checkOutput digest process.outputSchemaJson (closedOutput process.outputJson boundary) = .ok () := by
        intro completed
        unfold closeDelegation at ran
        rw [if_pos completed] at ran
        simp only [completeProcess, bind_ok, requireRun_ok, getProcess_ok, ofExcept_ok] at ran
        obtain ⟨_, _, ⟨-, rfl⟩, current, _, ⟨-, here, rfl⟩, _, _, ⟨accepted, rfl⟩, -⟩ := ran
        obtain rfl : current = process := Option.some.inj (here.symm.trans found)
        exact accepted
      have known : RunKnown db c.parentRunId := by
        unfold closeDelegation at ran
        split at ran
        · simp only [completeProcess, bind_ok, requireRun_ok] at ran
          obtain ⟨_, _, ⟨known, rfl⟩, -⟩ := ran
          exact known
        · obtain ⟨_, _, _, admits⟩ := ProcessTransition.admits_of_ok ran
          exact admits.known
      rw [closeDelegation_eval known found accepted] at ran
      obtain ⟨current, output, error, admits⟩ := ProcessTransition.admits_of_ok ran
      have here := admits.found
      rw [transition_runId, transition_processId] at here
      obtain rfl : current = process := Option.some.inj (here.symm.trans found)
      have settled := ran
      rw [admits.eval] at settled
      cases prior : db.commandByKey (c.transition current boundary).runId (c.transition current boundary).effectiveKey with
      | some stored =>
        rw [prior] at settled
        simp only [ProcessTransition.settle, bind_ok, ofExcept_ok, require_ok, getProcess_ok] at settled
        obtain ⟨_, _, ⟨-, rfl⟩, _, _, ⟨-, rfl⟩, -, -, rfl⟩ := settled
        rfl
      | none =>
        rw [prior] at settled
        obtain ⟨_, _, _, admits', permits, -⟩ := ProcessTransition.of_ok prior ran
        obtain rfl := Option.some.inj (admits'.found.symm.trans admits.found)
        exact absurd ⟨accepted, output, error, admits, permits, ProcessTransition.recordable_of_settle prior settled⟩ stuck

theorem Alike.closable (alike : Alike (c.transition process boundary) db db') :
    Closable digest c db process boundary ↔ Closable digest c db' process boundary := by
  constructor
  · rintro ⟨accepted, output, error, movable⟩
    exact ⟨accepted, output, error, alike.movable movable⟩
  · rintro ⟨accepted, output, error, movable⟩
    exact ⟨accepted, output, error, alike.symm.movable movable⟩

theorem alike_of_closed {other : ProcessRow} {boundary' : RunBoundaryResult} {output error : Text}
    (movable : (c.transition other boundary').Movable db other output error)
    (written : Written db (.act (c.transition other boundary').runId (c.transition other boundary').processId
      (.transition (c.transition other boundary') output error)) db') (apart : process.id ≠ other.id) :
    Alike (c.transition process boundary) db db' := by
  refine .of_written written ?_ movable.admits.known ?_ (transition_key_ne apart)
  · rw [transition_runId, transition_runId]
  · rw [transition_processId, transition_processId]
    exact apart

/-! The loop. -/

variable (digest) (target : Database)

/-- What the loop over some waiting rows leaves. -/
structure Left (c : DelegationClosure) (rows : List ProcessRow) (db db' : Database) : Prop where
  others : ∀ k, (∀ p ∈ rows, ∀ b, dueBoundary target p = some b → (c.parentRunId, p.id) ≠ k) →
    db'.processes.find? k = db.processes.find? k
  stuck : ∀ p ∈ rows, ∀ b, dueBoundary target p = some b → ¬ Closable digest c db p b →
    db'.processes.find? (c.parentRunId, p.id) = some p
  closed : (∀ p ∈ rows, ∀ b, dueBoundary target p = some b → Closable digest c db p b) →
    ∀ p ∈ rows, ∀ b, dueBoundary target p = some b → ∃ output error,
      (c.transition p b).Movable db p output error ∧
      db'.processes.find? (c.parentRunId, p.id) = some ((c.transition p b).moved output error p)

theorem Left.nil {target : Database} (c : DelegationClosure) (db : Database) : Left digest target c [] db db :=
  ⟨fun _ _ => rfl, fun _ member => (nomatch member), fun _ _ member => (nomatch member)⟩

variable {digest} {target}

theorem Left.skip {rows : List ProcessRow} (idle : dueBoundary target process = none)
    (left : Left digest target c rows db db') : Left digest target c (process :: rows) db db' := by
  refine ⟨fun k apart => ?_, fun p member b due => ?_, fun closable p member b due => ?_⟩
  · exact left.others k fun p member => apart p (List.mem_cons_of_mem _ member)
  · rcases List.mem_cons.mp member with rfl | member
    · rw [idle] at due
      cases due
    · exact left.stuck p member b due
  · rcases List.mem_cons.mp member with rfl | member
    · rw [idle] at due
      cases due
    · exact left.closed (fun p member => closable p (List.mem_cons_of_mem _ member)) p member b due

theorem Left.stop {rows : List ProcessRow} (due : dueBoundary target process = some boundary)
    (stuck : ¬ Closable digest c db process boundary)
    (here : db'.processes.find? (c.parentRunId, process.id) = some process)
    (others : ∀ k, (∀ p ∈ rows, ∀ b, dueBoundary target p = some b → (c.parentRunId, p.id) ≠ k) →
      db'.processes.find? k = db.processes.find? k)
    (later : ∀ p ∈ rows, ∀ b, dueBoundary target p = some b → ¬ Closable digest c db p b →
      db'.processes.find? (c.parentRunId, p.id) = some p) : Left digest target c (process :: rows) db db' := by
  refine ⟨fun k apart => ?_, fun p member b due' free => ?_, fun closable => ?_⟩
  · exact others k fun p member => apart p (List.mem_cons_of_mem _ member)
  · rcases List.mem_cons.mp member with rfl | member
    · exact here
    · exact later p member b due' free
  · exact absurd (closable process List.mem_cons_self boundary due) stuck

theorem closeEach_closed {rest : List ProcessRow} {row : ProcessRow} {middle : Database}
    (due : dueBoundary target process = some boundary)
    (returned : (closeDelegation digest c process boundary).eval db = (.ok row, middle)) :
    (closeEach digest target c (process :: rest) db).2 = (closeEach digest target c rest middle).2 := by
  have first : Session.program (closeDelegation digest c process boundary) db = (.ok row, middle) := returned
  rw [closeEach, due]
  dsimp only
  rw [Session.bind_returned first]
  change (Session.bind _ _ middle).2 = _
  unfold Session.bind
  cases closeEach digest target c rest middle with
  | mk result last => cases result <;> rfl

theorem closeEach_raised {rest : List ProcessRow} {message : String} {middle : Database}
    (due : dueBoundary target process = some boundary)
    (raised : (closeDelegation digest c process boundary).eval db = (.error message, middle)) :
    (closeEach digest target c (process :: rest) db).2 = middle := by
  have first : Session.program (closeDelegation digest c process boundary) db = (.error message, middle) := raised
  rw [closeEach, due]
  dsimp only
  rw [Session.bind_raised first]

theorem closeEach_left {rows : List ProcessRow} (once : (rows.map ProcessRow.id).Nodup)
    (stored : ∀ p ∈ rows, db.processes.find? (c.parentRunId, p.id) = some p) :
    Left digest target c rows db (closeEach digest target c rows db).2 := by
  induction rows generalizing db with
  | nil => exact .nil digest c db
  | cons process rest ih =>
    obtain ⟨fresh, once⟩ := List.nodup_cons.mp once
    obtain ⟨here, later⟩ := List.forall_mem_cons.mp stored
    have apart : ∀ p ∈ rest, p.id ≠ process.id := fun p member same => fresh (same ▸ List.mem_map_of_mem member)
    cases due : dueBoundary target process with
    | none =>
      have passed : closeEach digest target c (process :: rest) db = closeEach digest target c rest db := by
        rw [closeEach, due]
      rw [passed]
      exact (ih once later).skip due
    | some boundary =>
      by_cases closable : Closable digest c db process boundary
      · obtain ⟨output, error, row, middle, movable, returned, written⟩ := closeDelegation_moves closable
        have alike : ∀ p ∈ rest, ∀ b, Alike (c.transition p b) db middle :=
          fun p member b => alike_of_closed movable written (apart p member)
        have kept : ∀ p ∈ rest, middle.processes.find? (c.parentRunId, p.id) = some p := by
          intro p member
          have same := (alike p member boundary).found
          rw [transition_runId, transition_processId] at same
          exact same.trans (later p member)
        have left := ih once kept
        rw [closeEach_closed due returned]
        have moved : middle.processes.find? (c.parentRunId, process.id) =
            some ((c.transition process boundary).moved output error process) := by
          cases written with
          | act found enabled processes logged =>
            rw [transition_runId, transition_processId] at processes found
            obtain rfl := Option.some.inj (found.symm.trans here)
            rw [processes, if_pos rfl]
            rfl
        have elsewhere : ∀ k, (c.parentRunId, process.id) ≠ k → middle.processes.find? k = db.processes.find? k := by
          intro k other
          cases written with
          | act found enabled processes logged =>
            rw [processes, transition_runId, transition_processId, if_neg (Ne.symm other)]
        refine ⟨fun k clear => ?_, fun p member b due' stuck => ?_, fun all p member b due' => ?_⟩
        · rw [left.others k fun p member => clear p (List.mem_cons_of_mem _ member)]
          exact elsewhere k (clear process List.mem_cons_self boundary due)
        · rcases List.mem_cons.mp member with rfl | member
          · obtain rfl := Option.some.inj (due.symm.trans due')
            exact absurd closable stuck
          · exact left.stuck p member b due' fun other => stuck ((alike p member b).closable.mpr other)
        · have passed := left.closed fun p member b due'' =>
            (alike p member b).closable.mp (all p (List.mem_cons_of_mem _ member) b due'')
          rcases List.mem_cons.mp member with rfl | member
          · obtain rfl := Option.some.inj (due.symm.trans due')
            refine ⟨output, error, movable, ?_⟩
            rw [left.others]
            · exact moved
            · intro p member b _ same
              exact apart p member (congrArg Prod.snd same)
          · obtain ⟨output, error, movable, found⟩ := passed p member b due'
            exact ⟨output, error, (alike p member b).symm.movable movable, found⟩
      · have same := closeDelegation_keeps here closable
        cases ran : (closeDelegation digest c process boundary).eval db with
        | mk result middle =>
          rw [ran] at same
          obtain rfl : middle = db := same
          cases result with
          | error message =>
            rw [closeEach_raised due ran]
            exact .stop due closable here (fun _ _ => rfl) fun p member _ _ _ => later p member
          | ok row =>
            have left := ih once later
            rw [closeEach_closed due ran]
            refine .stop due closable ?_ left.others left.stuck
            rw [left.others]
            · exact here
            · intro p member b _ same
              exact apart p member (congrArg Prod.snd same)

theorem closeEach_returned {rows closed : List ProcessRow} (h : closeEach digest target c rows db = (.ok closed, db')) :
    ∀ r ∈ closed, ∃ p ∈ rows, r.key = (c.parentRunId, p.id) := by
  induction rows generalizing db db' closed with
  | nil =>
    obtain ⟨rfl, -⟩ := Session.pure_ok.mp h
    exact fun r member => (nomatch member)
  | cons process rest ih =>
    rw [closeEach] at h
    cases due : dueBoundary target process with
    | none =>
      rw [due] at h
      intro r member
      obtain ⟨p, listed, same⟩ := ih h r member
      exact ⟨p, List.mem_cons_of_mem _ listed, same⟩
    | some boundary =>
      rw [due] at h
      obtain ⟨row, middle, first, h⟩ := Session.bind_ok.mp h
      obtain ⟨others, last, later, h⟩ := Session.bind_ok.mp h
      obtain ⟨rfl, -⟩ := Session.pure_ok.mp h
      intro r member
      rcases List.mem_cons.mp member with rfl | member
      · refine ⟨process, List.mem_cons_self, ?_⟩
        have first : (closeDelegation digest c process boundary).eval db = (.ok r, middle) := first
        unfold closeDelegation at first
        split at first
        · simp only [completeProcess, bind_ok, requireRun_ok, getProcess_ok, ofExcept_ok] at first
          obtain ⟨_, _, ⟨-, rfl⟩, _, _, ⟨-, -, rfl⟩, _, _, ⟨-, rfl⟩, moved⟩ := first
          exact Table.find?_key (transitionProcess_stored moved)
        · exact Table.find?_key (transitionProcess_stored first)
      · obtain ⟨p, listed, same⟩ := ih later r member
        exact ⟨p, List.mem_cons_of_mem _ listed, same⟩

/-! A call. -/

def waitingRows (db : Database) (runId : String) : List ProcessRow :=
  db.processes.rows.filter fun r => r.runId = runId ∧ r.status = .waiting

theorem mem_waitingRows {runId : String} {p : ProcessRow} :
    p ∈ waitingRows db runId ↔ db.processes.find? (runId, p.id) = some p ∧ p.status = .waiting := by
  rw [waitingRows, List.mem_filter, decide_eq_true_eq, Table.find?_some]
  constructor
  · rintro ⟨member, run, waiting⟩
    exact ⟨⟨member, by rw [ProcessRow.key, run]⟩, waiting⟩
  · rintro ⟨⟨member, key⟩, waiting⟩
    exact ⟨member, congrArg Prod.fst key, waiting⟩

theorem waitingRows_once (db : Database) (runId : String) :
    ((queueOrder (waitingRows db runId)).map ProcessRow.id).Nodup := by
  have keys : ((waitingRows db runId).map ProcessRow.key).Nodup := db.processes.distinct.sublist (List.filter_sublist.map _)
  refine ((queueOrder_perm _).map _).nodup_iff.mpr (List.Nodup.of_map (fun id => (runId, id)) ?_)
  have same : ((waitingRows db runId).map ProcessRow.id).map (fun id => (runId, id)) =
      (waitingRows db runId).map ProcessRow.key := by
    rw [List.map_map]
    apply List.map_congr_left
    intro p member
    exact (Table.find?_key (mem_waitingRows.mp member).1).symm
  rw [same]
  exact keys

/-- The arguments of a call, and the run that it is about. -/
def DelegationClosure.Admitted (c : DelegationClosure) (db : Database) : Prop :=
  (c.parentRunId ≠ "" ∧ c.actor ≠ "" ∧ c.at_ ≠ "") ∧ RunKnown db c.parentRunId

theorem required {named : Bool} {message : String} (met : named = true) :
    (Session.require named message : Session Database Unit) db = (.ok (), db) := Session.require_ok.mpr ⟨met, rfl⟩

theorem closeDelegations_goes (admitted : c.Admitted db) :
    closeDelegations digest target c db = closeEach digest target c (queueOrder (waitingRows db c.parentRunId)) db := by
  obtain ⟨named, known⟩ := admitted
  have listed : (listWaiting c.parentRunId).eval db = (.ok (queueOrder (waitingRows db c.parentRunId)), db) :=
    bind_ok.mpr ⟨(), db, requireRun_ok.mpr ⟨known, rfl⟩, fetch_ok.mpr ⟨rfl, rfl⟩⟩
  have listed : Session.program (listWaiting c.parentRunId) db = (.ok (queueOrder (waitingRows db c.parentRunId)), db) := listed
  exact (Session.bind_returned (required (decide_eq_true named))).trans (Session.bind_returned listed)

theorem closeDelegations_refused (refused : ¬ c.Admitted db) :
    ∃ message, closeDelegations digest target c db = (.error message, db) := by
  by_cases named : c.parentRunId ≠ "" ∧ c.actor ≠ "" ∧ c.at_ ≠ ""
  · have reads : ReadOnly (listWaiting c.parentRunId) := .bind (requireRun_reads _) fun _ => .fetch _
    have same := reads.eval db
    cases listed : (listWaiting c.parentRunId).eval db with
    | mk result after =>
      rw [listed] at same
      obtain rfl : after = db := same
      cases result with
      | ok rows =>
        obtain ⟨_, _, known, -⟩ := bind_ok.mp listed
        exact absurd ⟨named, (requireRun_ok.mp known).1⟩ refused
      | error message =>
        have listed : Session.program (listWaiting c.parentRunId) after = (.error message, after) := listed
        exact ⟨message, (Session.bind_returned (required (decide_eq_true named))).trans (Session.bind_raised listed)⟩
  · refine ⟨"driver: delegation closure requires parent run, actor, and timestamp", Session.bind_raised ?_⟩
    rw [Session.require, decide_eq_false named]
    rfl

theorem Closable.admitted (closable : Closable digest c db process boundary) : c.Admitted db := by
  obtain ⟨-, output, error, ⟨admits, -, -⟩⟩ := closable
  have known := admits.known
  rw [transition_runId] at known
  have timed := admits.timed
  rw [transition_plain.2] at timed
  have acting : (c.transition process boundary).actor = c.actor := by
    unfold DelegationClosure.transition
    split <;> rfl
  exact ⟨⟨known.1, acting ▸ admits.acting, timed⟩, known⟩

variable (digest) (target) (c) (db)

theorem closeDelegations_left :
    Left digest target c (queueOrder (waitingRows db c.parentRunId)) db (closeDelegations digest target c db).2 := by
  have stored : ∀ p ∈ queueOrder (waitingRows db c.parentRunId), db.processes.find? (c.parentRunId, p.id) = some p :=
    fun p member => (mem_waitingRows.mp ((queueOrder_perm _).mem_iff.mp member)).1
  by_cases admitted : c.Admitted db
  · rw [closeDelegations_goes admitted]
    exact closeEach_left (waitingRows_once db c.parentRunId) stored
  · obtain ⟨message, refused⟩ : ∃ message, closeDelegations digest target c db = (.error message, db) :=
      closeDelegations_refused admitted
    rw [refused]
    exact ⟨fun _ _ => rfl, fun p member _ _ _ => stored p member,
      fun all p member b due => absurd (all p member b due).admitted admitted⟩

end

/-! What a closed row carries. -/

/-- The boundary in a row that was closed. -/
def carriedBoundary (row : ProcessRow) : Option Json :=
  (if row.status = .succeeded then row.outputJson else row.errorJson).parse.bind (Json.member "run.boundary")

section
variable {c : DelegationClosure} {target db : Database} {process : ProcessRow} {boundary : RunBoundaryResult}

theorem observeRunBoundary_ok {runId : String} {after : Database}
    (h : (observeRunBoundary runId).eval db = (.ok boundary, after)) :
    ∃ status rows events, boundary = boundaryOf runId status rows events := by
  simp only [observeRunBoundary, bind_ok, pure_ok] at h
  obtain ⟨_, _, -, run, _, -, rows, _, -, events, _, -, rfl, -⟩ := h
  exact ⟨run.status, rows, events, rfl⟩

theorem dueBoundary_some (due : dueBoundary target process = some boundary) :
    (∃ root, process.outputJson.parse = some (.obj root)) ∧
      ∃ status rows events, boundary = boundaryOf (delegationTarget process.outputJson) status rows events := by
  unfold dueBoundary at due
  dsimp only at due
  by_cases empty : delegationTarget process.outputJson = ""
  · rw [if_pos empty] at due
    cases due
  · rw [if_neg empty] at due
    constructor
    · unfold delegationTarget at empty
      split at empty
      · rename_i root read
        exact ⟨root, read⟩
      · exact absurd rfl empty
    · split at due
      · rename_i observed
        split at due
        · cases due
          exact observeRunBoundary_ok observed
        · cases due
      · cases due

theorem printedMembers_numbers {α : Type} (items : List α) (name : α → String) (count : α → Int) :
    ∃ members, Text.printedMembers (items.map fun item => (name item, .number (count item))) = some members := by
  induction items with
  | nil => exact ⟨[], rfl⟩
  | cons item rest ih =>
    obtain ⟨members, printed⟩ := ih
    refine ⟨(name item, .int (count item)) :: members, ?_⟩
    change (Text.printedMembers (rest.map fun item => (name item, .number (count item)))).map _ = _
    rw [printed]
    rfl

theorem boundaryOf_json (runId status : String) (rows : List ProcessRow) (events : List EventRow) :
    ∃ value, (boundaryOf runId status rows events).json = .printed value := by
  obtain ⟨counts, printed⟩ := printedMembers_numbers (boundaryStatuses.filter fun status => 0 < boundaryCount rows status)
    ProcessStatus.value fun status => boundaryCount rows status
  have counted : boundaryCountsJson rows = .printed (.obj counts) := by
    rw [boundaryCountsJson, Text.template, printed]
  have same : (boundaryOf runId status rows events).processStatusCounts = .printed (.obj counts) := counted
  refine ⟨.obj [("run_id", .str runId), ("status", .str status), ("derived_status", .str (derivedStatus status rows)),
    ("process_status_counts", .obj counts), ("event_watermark", .int (boundaryOf runId status rows events).eventWatermark)], ?_⟩
  rw [RunBoundaryResult.json, same]
  rfl

theorem moved_carries {output error : Text} (due : dueBoundary target process = some boundary)
    (movable : (c.transition process boundary).Movable db process output error) :
    ((c.transition process boundary).moved output error process).status =
        (if boundary.derivedStatus = "completed" then .succeeded else .failed) ∧
      ∃ value, boundary.json.parse = some value ∧
        carriedBoundary ((c.transition process boundary).moved output error process) = some value.canonical := by
  obtain ⟨⟨root, read⟩, status, rows, events, rfl⟩ := dueBoundary_some due
  obtain ⟨value, printed⟩ := boundaryOf_json (delegationTarget process.outputJson) status rows events
  have outputs := movable.admits.output
  have errors := movable.admits.error
  by_cases completed : (boundaryOf (delegationTarget process.outputJson) status rows events).derivedStatus = "completed"
  · rw [DelegationClosure.transition, if_pos completed] at outputs ⊢
    rw [if_pos completed]
    refine ⟨rfl, value, by rw [printed]; rfl, ?_⟩
    have written : output = .printed (Json.canonical (.obj (Bridge.setMember "run.boundary" value root))) := by
      dsimp only at outputs
      rw [closedOutput, read, printed] at outputs
      exact (Option.some.inj outputs).symm
    change (output.parse).bind (Json.member "run.boundary") = _
    rw [written, Text.parse_printed, Option.bind_some, Json.member_canonical, Json.member, lookup_setMember]
    rfl
  · rw [DelegationClosure.transition, if_neg completed] at errors ⊢
    rw [if_neg completed]
    refine ⟨rfl, value, by rw [printed]; rfl, ?_⟩
    change (error.parse).bind (Json.member "run.boundary") = _
    dsimp only at errors
    rw [delegationError, printed] at errors
    obtain rfl := Option.some.inj errors
    rw [Text.parse_printed, Option.bind_some, Json.member_canonical]
    rfl

end

section
variable (digest : Json → String) (target : Database) (c : DelegationClosure) (db : Database)

/-- A call closes the rows that are due, each with the boundary of its own target, and no other row; and no call at
    any time touches a row that is closed. -/
structure ClosesDue : Prop where
  closed : ∀ p ∈ waitingRows db c.parentRunId, ∀ b, dueBoundary target p = some b →
    ∃ row, (closeDelegations digest target c db).2.processes.find? (c.parentRunId, p.id) = some row ∧
      row.status = (if b.derivedStatus = "completed" then .succeeded else .failed) ∧
      b.runId = delegationTarget p.outputJson ∧
      ∃ value, b.json.parse = some value ∧ carriedBoundary row = some value.canonical
  kept : ∀ k, (∀ p ∈ waitingRows db c.parentRunId, ∀ b, dueBoundary target p = some b → (c.parentRunId, p.id) ≠ k) →
    (closeDelegations digest target c db).2.processes.find? k = db.processes.find? k
  once : ∀ (target' later : Database) (c' : DelegationClosure) k row, later.processes.find? k = some row →
    row.status ≠ .waiting →
      (closeDelegations digest target' c' later).2.processes.find? k = some row ∧
        ∀ rows, (closeDelegations digest target' c' later).1 = .ok rows → ∀ r ∈ rows, r.key ≠ k

variable {digest target c db}

theorem closed_once {k : String × String} {row : ProcessRow} (found : db.processes.find? k = some row)
    (closed : row.status ≠ .waiting) :
    (closeDelegations digest target c db).2.processes.find? k = some row ∧
      ∀ rows, (closeDelegations digest target c db).1 = .ok rows → ∀ r ∈ rows, r.key ≠ k := by
  have other : ∀ p ∈ queueOrder (waitingRows db c.parentRunId), (c.parentRunId, p.id) ≠ k := by
    intro p member same
    obtain ⟨here, waiting⟩ := mem_waitingRows.mp ((queueOrder_perm _).mem_iff.mp member)
    rw [same, found] at here
    obtain rfl := Option.some.inj here
    exact closed waiting
  constructor
  · rw [(closeDelegations_left digest c db target).others k fun p member _ _ => other p member]
    exact found
  · intro rows returned r member same
    by_cases admitted : c.Admitted db
    · rw [closeDelegations_goes admitted] at returned
      cases ran : closeEach digest target c (queueOrder (waitingRows db c.parentRunId)) db with
      | mk result after =>
        rw [ran] at returned
        obtain rfl : result = .ok rows := returned
        obtain ⟨p, listed, key⟩ := closeEach_returned ran r member
        exact other p listed (key.symm.trans same)
    · obtain ⟨message, refused⟩ : ∃ message, closeDelegations digest target c db = (.error message, db) :=
      closeDelegations_refused admitted
      rw [refused] at returned
      cases returned

variable (digest target c db)

/-- One call closes what is due exactly when the journal accepts every row that is due: the first one that it does
    not accept ends the loop. -/
theorem close_delegations_exact : ClosesDue digest target c db ↔
    ∀ p ∈ waitingRows db c.parentRunId, ∀ b, dueBoundary target p = some b → Closable digest c db p b := by
  have left := closeDelegations_left digest c db target
  have listed : ∀ p, p ∈ queueOrder (waitingRows db c.parentRunId) ↔ p ∈ waitingRows db c.parentRunId :=
    fun p => (queueOrder_perm _).mem_iff
  constructor
  · intro closes p member b due
    by_contra stuck
    obtain ⟨row, found, status, -⟩ := closes.closed p member b due
    rw [left.stuck p ((listed p).mpr member) b due stuck] at found
    obtain rfl := Option.some.inj found
    rw [(mem_waitingRows.mp member).2] at status
    split at status <;> cases status
  · intro closable
    refine ⟨fun p member b due => ?_, fun k apart => ?_, fun target' later c' k row found closed => closed_once found closed⟩
    · obtain ⟨output, error, movable, found⟩ := left.closed (fun p member => closable p ((listed p).mp member)) p
        ((listed p).mpr member) b due
      obtain ⟨status, value, read, carried⟩ := moved_carries due movable
      obtain ⟨-, derived, rows, events, same⟩ := dueBoundary_some due
      exact ⟨_, found, status, by rw [same]; rfl, value, read, carried⟩
    · exact left.others k fun p member => apart p ((listed p).mp member)

end

/-! Two delegations to a run that has completed, the first with a schema that knows no boundary. -/

def delegated (id : String) (outputSchemaJson : Text) : ProcessRow where
  runId := "parent"
  id := id
  processType := "native"
  impulseId := ""
  status := .waiting
  priority := 0
  attempt := 1
  maxAttempts := 1
  availableAt := "t0"
  leaseOwner := ""
  leaseExpiresAt := ""
  inputJson := .braces
  outputJson := .printed (.obj [("delivery_id", .str "delivery"), ("target_run_id", .str "child")])
  errorJson := .braces
  metadata := .braces
  createdAt := "t0"
  updatedAt := "t0"
  startedAt := "t0"
  finishedAt := ""
  outputSchemaJson := outputSchemaJson

def closedSchema : Text := .printed (.obj [("type", .str "object"), ("additionalProperties", .bool false),
  ("properties", .obj [("delivery_id", .obj []), ("target_run_id", .obj [])])])

def delegatingRun (id status : String) : RunRecord := ⟨id, status, "", {}, 1, "", "t0", "t0", "t0", ""⟩

def parentJournal : Database :=
  { Database.empty with
    runs := ⟨[delegatingRun "parent" "active"], by simp⟩
    processes := ⟨[delegated "a" closedSchema, delegated "b" .empty], by simp [delegated, ProcessRow.key]⟩ }

def targetJournal : Database := { Database.empty with runs := ⟨[delegatingRun "child" "completed"], by simp⟩ }

def closure : DelegationClosure := ⟨"parent", "closer", "t1"⟩

theorem blocked_waits : ((closeDelegations (fun _ => "") targetJournal closure parentJournal).2.processes.find? ("parent", "b")).map
    ProcessRow.status = some .waiting := by
  decide +kernel

theorem blocked_due : delegated "b" .empty ∈ waitingRows parentJournal "parent" ∧
    (dueBoundary targetJournal (delegated "b" .empty)).isSome = true := by
  decide +kernel

/-- The first delegation cannot be closed with its boundary, and the second one waits on for a run that is done. -/
theorem close_delegations_blocked : ¬ ClosesDue (fun _ => "") targetJournal closure parentJournal := by
  intro closes
  have waits := blocked_waits
  obtain ⟨b, due⟩ := Option.isSome_iff_exists.mp blocked_due.2
  obtain ⟨row, found, status, -⟩ := closes.closed _ blocked_due.1 b due
  have stored : (closeDelegations (fun _ => "") targetJournal closure parentJournal).2.processes.find? ("parent", "b") =
      some row := found
  rw [stored] at waits
  have waiting : row.status = .waiting := Option.some.inj waits
  rw [waiting] at status
  split at status <;> cases status

end Fala.Driver
