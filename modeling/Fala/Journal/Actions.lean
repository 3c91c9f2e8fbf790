import Fala.Journal.Pairs

/-! What the operations that rewrite a process row commit. -/

namespace Fala.Journal
open Durable Program

theorem claimRow_written {runId processId : String} {c : ClaimRequest} {row : ProcessRow}
    {db db' : Database} (named : c.workerId ≠ "" ∧ c.leaseExpiresAt ≠ "")
    (h : (claimRow runId processId c).eval db = (.ok row, db')) :
    Written db (.act runId processId (.claim c)) db' := by
  simp only [claimRow, bind_ok, require_ok, decide_eq_true_eq, getProcess_ok, pure_ok] at h
  obtain ⟨_, _, update, _, _, ⟨changed, rfl⟩, _, _, ⟨⟨-, known⟩, found, rfl⟩, _, _, command,
    _, _, event, -, rfl⟩ := h
  obtain ⟨old, current, met, rfl⟩ := updateProcess_one update changed
  obtain ⟨commands, stored, rfl⟩ := insertCommand_rows command
  obtain ⟨after, told, rfl⟩ := appendEventInTx_rows event
  have claimed := find?_updated (f := claimUpdate c.workerId c.now c.leaseExpiresAt)
    (fun _ => rfl) current
  obtain rfl := Option.some.inj (found.symm.trans ((claimed _).trans (if_pos rfl)))
  exact .act current ⟨met, named⟩ claimed (.intro rfl known stored (.one told))

theorem priorClaim_ok {runId key : String} {found : Option CommandRow} {db db' : Database} :
    (priorClaim runId key).eval db = (.ok found, db') ↔
      (if key ≠ "" then db.commandByKey runId key else none) = found ∧ db = db' := by
  unfold priorClaim
  split
  · exact commandByKey_ok
  · exact pure_ok

/-- A claim is made, not replayed, and its lease is a time to come. -/
def ClaimRequest.Accepted (c : ClaimRequest) (db : Database) (runId : String) : Prop :=
  c.workerId ≠ "" ∧ c.leaseExpiresAt ≠ "" ∧ c.now < c.leaseExpiresAt ∧
    (c.idempotencyKey ≠ "" → db.commandByKey runId c.idempotencyKey = none)

theorem claimProcess_settles (runId processId : String) (c : ClaimRequest) (db : Database) :
    (claimProcess runId processId c).Settles db
      (Commits (fun w => c.Accepted db runId ∧ w = .act runId processId (.claim c)) db) := by
  refine .require fun _ => .require fun _ => .require fun worker => .require fun _ =>
    .require fun lease => .transact fun _ db' h => ?_
  have worker : c.workerId ≠ "" := of_decide_eq_true worker
  obtain ⟨named, later⟩ := of_decide_eq_true lease
  simp only [bind_ok, priorClaim_ok] at h
  obtain ⟨prior, _, ⟨looked, rfl⟩, h⟩ := h
  cases prior with
  | some prior =>
    simp only [bind_ok, require_ok, getProcess_ok] at h
    obtain ⟨_, _, ⟨-, rfl⟩, _, _, ⟨-, rfl⟩, -, -, rfl⟩ := h
    exact .inl rfl
  | none =>
    have fresh : c.idempotencyKey ≠ "" → db.commandByKey runId c.idempotencyKey = none :=
      fun keyed => by simpa [keyed] using looked
    exact .inr ⟨_, ⟨⟨worker, named, later, fresh⟩, rfl⟩, claimRow_written ⟨worker, named⟩ h⟩

/-- A queue call fails a row of its runs as expired. -/
def ClaimRequest.Expires (c : ClaimRequest) (runId : String) (w : Write) : Prop :=
  ∃ run process, (runId = "" ∨ run = runId) ∧ w = .act run process (.expire c.workerId c.now)

/-- The claims of one queue call: rows it fails as expired, and the row it takes. -/
def ClaimRequest.Serves (c : ClaimRequest) (runId : String) (w : Write) : Prop :=
  c.Expires runId w ∨
    ∃ run process, (runId = "" ∨ run = runId) ∧ w = .act run process (.claim c)

/-- The row it takes is the head of the queue that it found. -/
def ClaimRequest.Selects (c : ClaimRequest) (db : Database) (runId : String) (w : Write) : Prop :=
  c.Expires runId w ∨
    (c.Accepted db runId ∧ ∃ row, queueHead db runId c.now = some row ∧
      w = .act row.runId row.id (.claim c))

theorem queueOrder_perm (rows : List ProcessRow) : (queueOrder rows).Perm rows :=
  List.perm_insertionSort _ _

theorem queueHead_some {db : Database} {runId now : String} {row : ProcessRow}
    (head : queueHead db runId now = some row) :
    row ∈ db.processes.rows ∧ claimable row now = true ∧ inRun runId row = true := by
  simpa using (queueOrder_perm _).mem_iff.mp (List.mem_of_head? head)

theorem ClaimRequest.Selects.serves {c : ClaimRequest} {db : Database} {runId : String} {w : Write}
    (selects : c.Selects db runId w) : c.Serves runId w := by
  rcases selects with expires | ⟨-, row, head, rfl⟩
  · exact .inl expires
  · exact .inr ⟨_, _, of_decide_eq_true (queueHead_some head).2.2, rfl⟩

/-- The rows of a snapshot that are still the stored ones. -/
def Current (db : Database) (rows : List ProcessRow) : Prop :=
  (rows.map ProcessRow.key).Nodup ∧ ∀ r ∈ rows, db.processes.find? r.key = some r

theorem current_queue (db : Database) (p : ProcessRow → Bool) :
    Current db (queueOrder (db.processes.rows.filter p)) := by
  have perm := queueOrder_perm (db.processes.rows.filter p)
  refine ⟨(perm.map _).nodup_iff.mpr ?_, fun r member => ?_⟩
  · exact db.processes.distinct.sublist (List.filter_sublist.map _)
  · exact Table.find?_some.mpr ⟨(List.mem_filter.mp (perm.mem_iff.mp member)).1, rfl⟩

theorem exhausted_not_claimable {row : ProcessRow} {now : String}
    (spent : exhausted row now = true) : claimable row now = false := by
  obtain ⟨-, -, last⟩ := of_decide_eq_true spent
  exact decide_eq_false fun claims => by have := claims.1; omega

theorem queueHead_expired {db : Database} {row : ProcessRow} {now : String} {error : Text}
    (current : db.processes.find? row.key = some row) (spent : exhausted row now = true)
    (runId : String) :
    queueHead (db.setProcesses (db.processes.modify row.key (expireUpdate now error)
      (fun _ => rfl))) runId now = queueHead db runId now := by
  simp only [queueHead, Database.setProcesses]
  congr 2
  refine Table.filter_modify (fun r member here => ?_) fun r _ _ => ?_
  · obtain rfl : r = row := Option.some.inj
      ((Table.find?_some.mpr ⟨member, here⟩).symm.trans current)
    simp [exhausted_not_claimable spent]
  · simp [claimable, expireUpdate]

theorem expireRow_written {workerId now : String} {row : ProcessRow} {u : Unit} {db db' : Database}
    (known : (db.runs.find? row.runId).isSome = true)
    (current : db.processes.find? row.key = some row) (spent : exhausted row now = true)
    (timed : now ≠ "") (h : (expireRow workerId now row).eval db = (.ok u, db')) :
    Written db (.act row.runId row.id (.expire workerId now)) db' ∧
      ∀ runId, queueHead db' runId now = queueHead db runId now := by
  obtain ⟨running, -, last⟩ := of_decide_eq_true spent
  simp only [expireRow, bind_ok, require_ok] at h
  obtain ⟨_, _, ⟨-, rfl⟩, _, _, update, h⟩ := h
  have updated := updateProcess_met (fun r => r.status = .running ∧ r.maxAttempts ≤ r.attempt)
    (expireUpdate now (expiredError row.leaseOwner)) (fun _ => rfl) current
    (by simp [running, last])
  cases updated.symm.trans update
  simp only [if_true, bind_ok, pure_ok] at h
  obtain ⟨_, _, command, _, _, event, -, rfl⟩ := h
  obtain ⟨commands, stored, rfl⟩ := insertCommand_rows command
  obtain ⟨after, told, rfl⟩ := appendEventInTx_rows event
  exact ⟨.act current ⟨spent, timed⟩
    (find?_updated (f := expireUpdate now (expiredError row.leaseOwner)) (fun _ => rfl) current)
    (.intro rfl known stored (.one told)), queueHead_expired current spent⟩

theorem expireRows_does {workerId now : String} {rows : List ProcessRow} {u : Unit}
    {db db' : Database} (runId : String) (c : ClaimRequest)
    (known : ∀ r ∈ rows, (db.runs.find? r.runId).isSome = true)
    (here : ∀ r ∈ rows, runId = "" ∨ r.runId = runId)
    (current : Current db rows) (spent : ∀ r ∈ rows, exhausted r now = true) (timed : now ≠ "")
    (same : c.workerId = workerId ∧ c.now = now)
    (h : (expireRows workerId now rows).eval db = (.ok u, db')) :
    Does (c.Expires runId) db db' ∧ ∀ runId, queueHead db' runId now = queueHead db runId now := by
  obtain ⟨rfl, rfl⟩ := same
  induction rows generalizing db with
  | nil =>
    obtain ⟨-, rfl⟩ := pure_ok.mp h
    exact ⟨.refl _, fun _ => rfl⟩
  | cons row rows ih =>
    simp only [expireRows, bind_ok] at h
    obtain ⟨_, middle, first, later⟩ := h
    obtain ⟨distinct, stored⟩ := current
    obtain ⟨apart, distinct⟩ := List.nodup_cons.mp distinct
    obtain ⟨written, queue⟩ := expireRow_written (known _ List.mem_cons_self)
      (stored _ List.mem_cons_self) (spent _ List.mem_cons_self) timed first
    have rest : Does (c.Expires runId) middle db' ∧
        ∀ runId, queueHead db' runId c.now = queueHead middle runId c.now := by
      cases written with
      | act found enabled processes logged =>
        refine ih (fun r member => logged.kept _ (known r (.tail _ member)))
          (fun r member => here r (.tail _ member))
          ⟨distinct, fun r member => ?_⟩ (fun r member => spent r (.tail _ member)) later
        have other : r.key ≠ (row.runId, row.id) := fun same =>
          apart (List.mem_map.mpr ⟨r, member, same⟩)
        rw [processes, if_neg other]
        exact stored r (.tail _ member)
    exact ⟨.trans (.one ⟨_, _, here _ List.mem_cons_self, rfl⟩ written) rest.1,
      fun runId => (rest.2 runId).trans (queue runId)⟩

theorem requireNamedRun_reads (runId : String) : ReadOnly (requireNamedRun runId) := by
  unfold requireNamedRun
  split
  · exact requireRun_reads runId
  · exact .pure ()

theorem claimNextReady_settles (runId : String) (allRuns : Bool) (c : ClaimRequest)
    {db : Database} (housed : ∀ r ∈ db.processes.rows, (db.runs.find? r.runId).isSome = true) :
    (claimNextReady runId allRuns c).Settles db (Does (c.Selects db runId) db) := by
  refine .require fun _ => .afterRead (requireNamedRun_reads _) fun _ _ => .require fun lease =>
    .require fun _ => .transact fun _ db' h => ?_
  obtain ⟨worker, timed, lease, later⟩ := of_decide_eq_true lease
  simp only [bind_ok, priorClaim_ok] at h
  obtain ⟨prior, _, ⟨looked, rfl⟩, h⟩ := h
  cases prior with
  | some prior =>
    simp only [bind_ok, require_ok, getProcess_ok, pure_ok] at h
    obtain ⟨_, _, ⟨-, rfl⟩, _, _, ⟨-, rfl⟩, _, _, ⟨-, -, rfl⟩, -, rfl⟩ := h
    exact .refl _
  | none =>
    simp only [bind_ok, fetch_ok] at h
    obtain ⟨_, _, ⟨rfl, rfl⟩, _, middle, expire, next, _, ⟨selection, rfl⟩, h⟩ := h
    have stored (r : ProcessRow) (member : r ∈ queueOrder (db.processes.rows.filter
        fun r => exhausted r c.now ∧ inRun runId r)) :
        r ∈ db.processes.rows ∧ exhausted r c.now = true ∧ inRun runId r = true := by
      simpa using (queueOrder_perm _).mem_iff.mp member
    obtain ⟨expired, queue⟩ := expireRows_does runId c
      (fun r member => housed r (stored r member).1)
      (fun r member => of_decide_eq_true (stored r member).2.2) (current_queue db _)
      (fun r member => (stored r member).2.1) timed ⟨rfl, rfl⟩ expire
    have expired := expired.imp (Q := c.Selects db runId) fun _ => .inl
    cases next with
    | none =>
      obtain ⟨-, rfl⟩ := pure_ok.mp h
      exact expired
    | some selected =>
      simp only [bind_ok, pure_ok] at h
      obtain ⟨_, _, claim, -, rfl⟩ := h
      have fresh : c.idempotencyKey ≠ "" → db.commandByKey runId c.idempotencyKey = none :=
        fun keyed => by simpa [keyed] using looked
      exact expired.trans (.one (.inr ⟨⟨worker, lease, later, fresh⟩, selected,
        (queue runId).symm.trans selection, rfl⟩) (claimRow_written ⟨worker, lease⟩ claim))

/-- The write of a transition that did not replay. -/
def ProcessTransition.Makes (t : ProcessTransition) (w : Write) : Prop :=
  ∃ output error : Text, t.outputJson.canonical = some output ∧
    t.errorJson.canonical = some error ∧
      w = .act t.runId t.processId (.transition t output error)

theorem transitionBody_written {t : ProcessTransition} {output error : Text} {current : ProcessRow}
    {db db' : Database} {u : Unit} (known : (db.runs.find? t.runId).isSome = true)
    (found : db.processes.find? (t.runId, t.processId) = some current)
    (enabled : (RowAction.transition t output error).Enabled current)
    (h : (transitionBody t output error current).eval db = (.ok u, db')) :
    Written db (.act t.runId t.processId (.transition t output error)) db' := by
  simp only [transitionBody, bind_ok, getProcess_ok, require_ok, decide_eq_true_eq, pure_ok] at h
  obtain ⟨_, _, ⟨-, -, rfl⟩, _, _, ⟨-, rfl⟩, _, _, update, _, _, ⟨changed, rfl⟩, _, _, command,
    _, _, event, -, rfl⟩ := h
  obtain ⟨old, stored, -, rfl⟩ := updateProcess_one update changed
  obtain rfl := Option.some.inj (stored.symm.trans found)
  obtain ⟨commands, stored, rfl⟩ := insertCommand_rows command
  obtain ⟨after, told, rfl⟩ := appendEventInTx_rows event
  exact .act found enabled
    (find?_updated (f := t.update (t.storedOutput output old) (t.storedError error old) output)
      (fun _ => rfl) found) (.intro rfl known stored (.one told))

theorem transitionProcess_settles (t : ProcessTransition) (db : Database) :
    (transitionProcess t).Settles db (Commits t.Makes db) := by
  refine .require fun _ => .require fun timed => .afterRead (requireRun_reads _) fun _ known =>
    .afterRead (getProcess_reads _ _) fun current here => .require fun _ =>
    .afterRead (.ofExcept _) fun output printed => .afterRead (.ofExcept _) fun error printed' =>
    .afterRead (commandByKey_reads _ _) fun found _ => ?_
  cases found with
  | some prior =>
    exact .ofReadOnly (.bind (.ofExcept _) fun _ => .bind (.require _ _) fun _ =>
      getProcess_reads _ _)
  | none =>
    refine .require fun _ => .require fun legal => .require fun attempts => .require fun owner =>
      .thenRead (.transact fun _ db' h => ?_) fun _ => getProcess_reads _ _
    obtain ⟨⟨-, known⟩, found, -⟩ := getProcess_ok.mp here
    simp only [decide_eq_true_eq, not_and, Int.not_le, not_not] at timed attempts owner
    refine .inr ⟨_, ⟨output, error, ?_, ?_, rfl⟩,
      transitionBody_written known found ⟨timed, legal, attempts, ?_⟩ h⟩
    · exact canonicalJsonField_ok.mp (ofExcept_ok.mp printed).1
    · exact canonicalJsonField_ok.mp (ofExcept_ok.mp printed').1
    · intro checks
      by_cases free : current.leaseOwner = ""
      · exact .inl free
      · exact .inr (owner checks free)

theorem completeProcess_settles (digest : Json → String)
    (runId processId workerId completedAt : String) (outputJson errorJson : Text) (db : Database) :
    (completeProcess digest runId processId workerId completedAt outputJson errorJson).Settles db
      (Commits (ProcessTransition.Makes
        { runId, processId, toStatus := .succeeded, actor := workerId, at_ := completedAt,
          outputJson, errorJson }) db) :=
  .afterRead (requireRun_reads _) fun _ _ => .afterRead (getProcess_reads _ _) fun _ _ =>
    .afterRead (.ofExcept _) fun _ _ => transitionProcess_settles _ db

/-- The write of a transition under a caller's command that did not replay. -/
def CommandTransition.Makes (t : CommandTransition) (w : Write) : Prop :=
  ∃ output error : Text, t.outputJson.canonical = some output ∧
    t.errorJson.canonical = some error ∧ w = .act t.runId t.processId (.command t output error)

theorem transitionProcessWithCommand_settles (t : CommandTransition) (db : Database) :
    (transitionProcessWithCommand t).Settles db (Commits t.Makes db) := by
  refine .require fun _ => .require fun valid => .require fun expected =>
    .thenRead (.transact fun _ db' h => ?_) fun _ => .bind (getProcess_reads _ _) fun _ => .pure _
  simp only [commandTransitionBody, bind_ok, commandByKey_ok] at h
  obtain ⟨_, _, ⟨rfl, rfl⟩, h⟩ := h
  cases found : db.commandByKey t.runId t.command.idempotencyKey with
  | some prior =>
    simp only [found, bind_ok, ofExcept_ok, require_ok, getProcess_ok, pure_ok] at h
    obtain ⟨_, _, ⟨-, rfl⟩, _, _, ⟨-, rfl⟩, _, _, ⟨-, rfl⟩, _, _, ⟨-, -, rfl⟩, -, rfl⟩ := h
    exact .inl rfl
  | none =>
    simp only [found, bind_ok, requireRun_ok, getProcess_ok, require_ok, ofExcept_ok,
      canonicalJsonField_ok, decide_eq_true_eq, pure_ok] at h
    obtain ⟨_, _, ⟨⟨-, known⟩, rfl⟩, current, _, ⟨-, here, rfl⟩, _, _, ⟨-, rfl⟩, _, _, ⟨-, rfl⟩,
      _, _, ⟨guarded, rfl⟩, output, _, ⟨printed, rfl⟩, error, _, ⟨printed', rfl⟩, _, _, ⟨-, rfl⟩,
      _, _, command, _, _, update, _, _, ⟨changed, rfl⟩, _, _, batch, -, rfl⟩ := h
    obtain ⟨commands, stored, rfl⟩ := insertCommand_rows command
    obtain ⟨old, current', -, rfl⟩ := updateProcess_one update changed
    obtain rfl := Option.some.inj (current'.symm.trans here)
    obtain ⟨after, told, rfl⟩ := appendEvents_rows batch
    exact .inr ⟨_, ⟨output, error, printed, printed', rfl⟩,
      .act here ⟨(of_decide_eq_true valid).2.2, of_decide_eq_true expected, guarded⟩
        (find?_updated (f := t.update output error) (fun _ => rfl) here)
        (.intro rfl known stored told)⟩

theorem advanceCorrelationReady_settles (runId processId : String) (inputJson : Text)
    (db : Database) :
    (advanceCorrelationReady runId processId inputJson).Settles db
      (Commits (fun w => ∃ createdAt, CommandTransition.Makes
        { runId, processId, target := .ready, inputJson,
          command := readyCommand runId processId createdAt } w) db) := by
  refine .afterRead (getProcess_reads _ _) fun current _ =>
    .thenRead (.imp (transitionProcessWithCommand_settles _ db) fun db' commits => ?_)
      fun _ => getProcess_reads _ _
  rcases commits with same | ⟨w, makes, written⟩
  · exact .inl same
  · exact .inr ⟨w, ⟨_, makes⟩, written⟩

/-- The write of a park that did not replay. -/
def HomeostatPark.Makes (p : HomeostatPark) (w : Write) : Prop :=
  ∃ output metadata : Text, w = .act p.runId p.processId (.park p output metadata)

theorem parkHomeostatProcess_settles (p : HomeostatPark) (db : Database) :
    (parkHomeostatProcess p).Settles db (CommitsWith p.Makes
      (fun db' => (db'.homeostats.find? (p.runId, p.homeostatId)).any fun h => h.status = "open")
      db) := by
  refine (parkHomeostatProcess_parks p db).imp fun db' parked => ?_
  rcases parked with rfl | ⟨output, metadata, written, process, -, -, -, pair⟩
  · exact .inl rfl
  · refine .inr ⟨_, ⟨output, metadata, rfl⟩, written, ?_⟩
    beta_reduce
    rw [pair.homeostats, if_pos rfl]
    rfl

/-- The write of a homeostat transition that did not replay. -/
def HomeostatTransition.Makes (t : HomeostatTransition) (w : Write) : Prop :=
  ∃ output error : Text, t.outputJson.canonical = some output ∧
    w = .act t.runId t.processId (.resolve t output error)

theorem transitionHomeostatProcess_settles (t : HomeostatTransition) (db : Database) :
    (transitionHomeostatProcess t).Settles db (CommitsWith t.Makes
      (fun db' => (db'.homeostats.find? (t.runId, t.homeostatId)).any
        fun h => h.status = t.homeostatStatus) db) := by
  refine (transitionHomeostatProcess_resolves t db).imp fun db' resolved => ?_
  rcases resolved with
    rfl | ⟨-, output, error, printed, written, homeostat, process, -, -, -, -, pair⟩
  · exact .inl rfl
  · refine .inr ⟨_, ⟨output, error, printed, rfl⟩, written, ?_⟩
    beta_reduce
    rw [pair.homeostats, if_pos rfl]
    exact decide_eq_true rfl

/-- The write of a reopen that did not replay. -/
def HomeostatReopen.Makes (r : HomeostatReopen) (w : Write) : Prop :=
  ∃ homeostat, w = .act r.runId r.processId (.reopen r homeostat)

theorem reopenHomeostatProcess_settles (r : HomeostatReopen) (db : Database) :
    (reopenHomeostatProcess r).Settles db (CommitsWith r.Makes
      (fun db' => (db'.homeostats.find? (r.runId, r.homeostatId)).any fun h => h.status = "open")
      db) := by
  refine (reopenHomeostatProcess_reopens r db).imp fun db' reopened => ?_
  rcases reopened with rfl | ⟨homeostat, process, written, -, -, -, -, pair⟩
  · exact .inl rfl
  · refine .inr ⟨_, ⟨homeostat, rfl⟩, written, ?_⟩
    beta_reduce
    rw [pair.homeostats, if_pos rfl]
    rfl

/-- The promotions of one call. -/
def ChildrenCall.Makes (c : ChildrenCall) (children : List CorrelationChildTransition)
    (w : Write) : Prop :=
  ∃ child ∈ children, w = .act c.runId child.processId (.promote c child)

theorem applyChild_commits {c : ChildrenCall} {child : CorrelationChildTransition}
    {row : ProcessRow} {db db' : Database}
    (h : (applyChild c child).eval db = (.ok row, db')) :
    Commits (· = .act c.runId child.processId (.promote c child)) db db' := by
  simp only [applyChild, bind_ok, require_ok, getProcess_ok, commandByKey_ok] at h
  obtain ⟨_, _, ⟨-, rfl⟩, _, _, ⟨-, rfl⟩, process, _, ⟨⟨-, known⟩, here, rfl⟩, _, _, ⟨rfl, rfl⟩, h⟩ := h
  cases found : db.commandByKey c.runId (ChildrenCall.key child) with
  | some prior =>
    simp only [found, bind_ok, require_ok, pure_ok] at h
    obtain ⟨_, _, ⟨-, rfl⟩, -, rfl⟩ := h
    exact .inl rfl
  | none =>
    simp only [found, bind_ok, require_ok, getProcess_ok, decide_eq_true_eq] at h
    obtain ⟨_, _, ⟨pending, rfl⟩, _, _, update, _, _, ⟨changed, rfl⟩, _, _, command, _, _, event,
      -, -, rfl⟩ := h
    obtain ⟨old, current, -, rfl⟩ := updateProcess_one update changed
    obtain rfl := Option.some.inj (current.symm.trans here)
    obtain ⟨commands, stored, rfl⟩ := insertCommand_rows command
    obtain ⟨after, told, rfl⟩ := appendEventInTx_rows event
    exact .inr ⟨_, rfl, .act here pending
      (find?_updated (f := c.update child old) (fun _ => rfl) here)
      (.intro rfl known stored (.one told))⟩

theorem applyChildren_does {c : ChildrenCall} {children : List CorrelationChildTransition}
    {rows : List ProcessRow} {db db' : Database}
    (h : (applyChildren c children).eval db = (.ok rows, db')) : Does (c.Makes children) db db' := by
  induction children generalizing db rows with
  | nil =>
    obtain ⟨-, rfl⟩ := pure_ok.mp h
    exact .refl _
  | cons child children ih =>
    simp only [applyChildren, bind_ok, pure_ok] at h
    obtain ⟨_, _, first, _, _, later, -, rfl⟩ := h
    refine .trans ((applyChild_commits first).does.imp ?_) ((ih later).imp ?_)
    · rintro w rfl
      exact ⟨child, List.mem_cons_self, rfl⟩
    · rintro w ⟨other, member, rfl⟩
      exact ⟨other, .tail _ member, rfl⟩

theorem applyCorrelationChildren_settles (c : ChildrenCall)
    (children : List CorrelationChildTransition) (db : Database) :
    (applyCorrelationChildren c children).Settles db (Does (c.Makes children) db) :=
  .afterRead (requireRun_reads _) fun _ _ => .require fun _ => .transact fun _ _ h =>
    applyChildren_does h

end Fala.Journal
