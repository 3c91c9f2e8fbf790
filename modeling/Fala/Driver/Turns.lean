import Fala.Driver.Sweeps

/-! One turn of a drive: the leases it closes, the row it selects, the claim it makes. -/

namespace Fala.Driver
open Durable Program Journal

/-- What a row may still take: its attempts, and the end of the one it is at. -/
def rowLoad (row : ProcessRow) : Nat :=
  2 * (row.maxAttempts - row.attempt).toNat + if row.status = .running then 1 else 0

def load (db : Database) : Nat := db.processes.total rowLoad

theorem RowCalm.load {row row' : ProcessRow} (calm : RowCalm row row') : rowLoad row' ≤ rowLoad row := by
  have running := calm.running
  unfold rowLoad
  rw [calm.attempt, calm.maxAttempts]
  split <;> split <;> first | omega | (rename_i now before; exact absurd (running now) before)

theorem RowCalm.load_lt {row row' : ProcessRow} (calm : RowCalm row row')
    (running : row.status = .running) (ended : row'.status ≠ .running) : rowLoad row' < rowLoad row := by
  unfold rowLoad
  rw [calm.attempt, calm.maxAttempts, if_pos running, if_neg ended]
  omega

namespace Calm

variable {db db' : Database}

theorem rows (calm : Calm db db') (k : String × String) :
    (db'.processes.find? k).elim 0 rowLoad ≤ (db.processes.find? k).elim 0 rowLoad := by
  have keys := calm.keys k
  cases before : db.processes.find? k with
  | none =>
    rw [before, Option.isSome_none, Option.isSome_eq_false_iff, Option.isNone_iff_eq_none] at keys
    rw [keys]
  | some row =>
    rw [before] at keys
    obtain ⟨row', after⟩ := Option.isSome_iff_exists.mp keys
    rw [after]
    exact (calm.row k row row' before after).load

theorem load (calm : Calm db db') : load db' ≤ load db := Table.total_le calm.keys calm.rows

theorem load_lt (calm : Calm db db') {k : String × String} {row row' : ProcessRow}
    (before : db.processes.find? k = some row) (after : db'.processes.find? k = some row')
    (running : row.status = .running) (ended : row'.status ≠ .running) :
    Driver.load db' < Driver.load db := by
  refine Table.total_lt calm.keys calm.rows before ?_
  rw [after]
  exact (calm.row k row row' before after).load_lt running ended

end Calm

/-- The attempts of a process. -/
def attempts (db : Database) (k : String × String) : Option Int :=
  (db.processes.find? k).map ProcessRow.attempt

theorem Calm.attempts {db db' : Database} (calm : Calm db db') (k : String × String) :
    attempts db' k = attempts db k := by
  have keys := calm.keys k
  unfold Driver.attempts
  cases before : db.processes.find? k with
  | none =>
    rw [before, Option.isSome_none, Option.isSome_eq_false_iff, Option.isNone_iff_eq_none] at keys
    rw [keys]
  | some row =>
    rw [before] at keys
    obtain ⟨row', after⟩ := Option.isSome_iff_exists.mp keys
    rw [after, Option.map_some, Option.map_some, (calm.row k row row' before after).attempt]

section Claim

variable {c : ClaimRequest} {runId processId : String} {db db' : Database}

theorem attempts_claimed (written : Written db (.act runId processId (.claim c)) db') :
    (∀ k, k ≠ (runId, processId) → attempts db' k = attempts db k) ∧
      ∃ row, db.processes.find? (runId, processId) = some row ∧
        attempts db' (runId, processId) = some (row.attempt + 1) := by
  cases written with
  | act found enabled processes logged =>
    refine ⟨fun k other => ?_, _, found, ?_⟩
    · unfold attempts
      rw [processes, if_neg other]
    · unfold attempts
      rw [processes, if_pos rfl]
      rfl

theorem claimed_load (written : Written db (.act runId processId (.claim c)) db') :
    load db' < load db := by
  have keys := SameKeys.act written
  cases written with
  | @act _ _ _ row _ found enabled processes logged =>
    have remaining : row.attempt < row.maxAttempts := (of_decide_eq_true enabled.1).1
    have less : rowLoad (RowAction.apply row (.claim c)) < rowLoad row := by
      change 2 * (row.maxAttempts - (row.attempt + 1)).toNat + 1 < _
      unfold rowLoad
      omega
    refine Table.total_lt keys (fun k => ?_) found ?_
    · rw [processes]
      split
      · rename_i same
        rw [same, found]
        exact less.le
      · exact le_rfl
    · rw [processes, if_pos rfl]
      exact less

end Claim

theorem claimProcess_claims {runId processId : String} {c : ClaimRequest} {row : ProcessRow}
    {db db' : Database} (unkeyed : c.idempotencyKey = "")
    (h : (claimProcess runId processId c).eval db = (.ok row, db')) :
    Written db (.act runId processId (.claim c)) db' := by
  simp only [claimProcess, bind_ok, require_ok, transact_ok, priorClaim_ok, unkeyed] at h
  obtain ⟨_, _, ⟨-, rfl⟩, _, _, ⟨-, rfl⟩, _, _, ⟨worker, rfl⟩, _, _, ⟨-, rfl⟩, _, _, ⟨lease, rfl⟩, prior, _,
    ⟨looked, rfl⟩, claim⟩ := h
  obtain rfl : none = prior := by simpa using looked
  exact claimRow_written ⟨of_decide_eq_true worker, (of_decide_eq_true lease).1⟩ claim

theorem claimProcess_row {runId processId : String} {c : ClaimRequest} {row : ProcessRow}
    {db db' : Database} (unkeyed : c.idempotencyKey = "")
    (h : (claimProcess runId processId c).eval db = (.ok row, db')) :
    ∃ old, db.processes.find? (runId, processId) = some old ∧ claimable old c.now = true ∧
      row = claimUpdate c.workerId c.now c.leaseExpiresAt old ∧
        db'.processes.find? (runId, processId) = some row := by
  have claim := claimProcess_claims unkeyed h
  simp only [claimProcess, bind_ok, require_ok, transact_ok, priorClaim_ok, unkeyed] at h
  obtain ⟨_, _, ⟨-, rfl⟩, _, _, ⟨-, rfl⟩, _, _, ⟨-, rfl⟩, _, _, ⟨-, rfl⟩, _, _, ⟨-, rfl⟩, prior, _,
    ⟨looked, rfl⟩, h⟩ := h
  obtain rfl : none = prior := by simpa using looked
  simp only [claimRow, bind_ok, require_ok, getProcess_ok, pure_ok] at h
  obtain ⟨_, middle, _, _, _, ⟨-, rfl⟩, updated, _, ⟨-, found, rfl⟩, _, _, command, _, _, event, same, rfl⟩ := h
  subst same
  obtain ⟨commands, -, rfl⟩ := insertCommand_rows command
  obtain ⟨after, -, rfl⟩ := appendEventInTx_rows event
  cases claim with
  | @act _ _ _ old _ current enabled processes logged =>
    have stored := processes (runId, processId)
    rw [if_pos rfl] at stored
    have found : ((middle.setCommands commands).setEvents after).processes.find? (runId, processId) = some updated := found
    exact ⟨old, current, enabled.1, Option.some.inj (found.symm.trans stored), found⟩

/-- Only its claim makes an execution more than calm. -/
inductive Executes (k : String × String) (db : Database) : Database → Prop
  | refused {db' : Database} (calm : Calm db db') : Executes k db db'
  | claimed {c : ClaimRequest} {middle db' : Database}
      (claim : Written db (.act k.1 k.2 (.claim c)) middle) (calm : Calm middle db') :
      Executes k db db'

section Execution

variable {digest : Json → String} {outside : Outside} {worker : Worker} {process : ProcessRow}
  {adapter : AdapterSpec} {db : Database}

theorem afterClaim_moves (claimed : ProcessRow) :
    (if ¬ (adapter.preflight outside.processHost).isOk then
        Session.program (failClaimed worker claimed (adapter.preflight outside.processHost))
      else executeClaimed digest outside worker claimed adapter).Within (Does (Moves claimed.runId)) :=
  (settleClaimed_rows digest outside worker (.steady worker.now) claimed adapter).imp fun _ _ does =>
    does.imp fun _ moves => moves.1

theorem afterClaim_calm (claimed : ProcessRow) :
    (if ¬ (adapter.preflight outside.processHost).isOk then
        Session.program (failClaimed worker claimed (adapter.preflight outside.processHost))
      else executeClaimed digest outside worker claimed adapter).Within Calm :=
  (afterClaim_moves claimed).imp fun _ _ does => .does does fun _ => Moves.quiet

theorem driveOnce_executes :
    (driveOnce digest outside worker process adapter).Leaves db (Executes process.key db) := by
  have calm : Calm db db := refl_of Calm db
  refine .require (.refused calm) fun _ => .bind (fun message db' h => ?_) fun claimed db' h => ?_
  · rcases (claimProcess_settles process.runId process.id _ db).evaluated h with rfl | rfl | done
    · exact .refused calm
    · exact .refused calm
    · obtain ⟨w, ⟨-, rfl⟩, claim⟩ := done
      exact .claimed claim (refl_of Calm db')
  · exact .claimed (claimProcess_claims rfl h) (afterClaim_calm claimed db')

theorem driveOnce_load {one : DriverResult} {db' : Database}
    (h : driveOnce digest outside worker process adapter db = (.ok one, db')) : load db' < load db := by
  simp only [driveOnce, Session.bind_ok, Session.require_ok, Session.program_ok] at h
  obtain ⟨_, _, ⟨-, rfl⟩, claimed, middle, claim, h⟩ := h
  have calm : Calm middle db' := (afterClaim_calm claimed).left h
  exact calm.load.trans_lt (claimed_load (claimProcess_claims rfl claim))

end Execution

section Closings

variable {d : Drive} {db db' : Database}

theorem closeRow_calm (row : ProcessRow) (s : Sweep) : (closeRow d row s).Within Calm :=
  .ite (.bind ((Soft.maintain _ _).within.imp fun _ _ does => .does does fun _ => Moves.quiet) fun _ => .pure _) (.pure _)

theorem closeRows_calm (rows : List ProcessRow) (s : Sweep) : (closeRows d rows s).Within Calm := by
  induction rows generalizing s with
  | nil => exact .pure _
  | cons row rest ih => exact .bind (closeRow_calm row _) fun s' => .ite (.pure _) (ih s')

theorem listProcesses_reads (runId : String) : ReadOnly (listProcesses runId) :=
  .bind (requireRun_reads _) fun _ => .fetch _

theorem closeRuns_calm (runs : List String) (s : Sweep) : (closeRuns d runs s).Within Calm := by
  induction runs generalizing s with
  | nil => exact .pure _
  | cons run rest ih =>
    have reads : (Session.program (listProcesses run)).Within (Does (Moves run)) :=
      (Soft.reads (listProcesses_reads run)).within
    exact .bind (reads.imp fun _ _ does => .does does fun _ => Moves.quiet) fun rows =>
      .bind (closeRows_calm rows _) fun s' => .ite (.pure _) (ih s')

theorem transitionProcess_stored {t : ProcessTransition} {row : ProcessRow}
    (h : (transitionProcess t).eval db = (.ok row, db')) :
    db'.processes.find? (t.runId, t.processId) = some row := by
  simp only [transitionProcess, bind_ok, require_ok, requireRun_ok, getProcess_ok, ofExcept_ok,
    commandByKey_ok] at h
  obtain ⟨_, _, ⟨-, rfl⟩, _, _, ⟨-, rfl⟩, _, _, ⟨-, rfl⟩, current, _, ⟨-, -, rfl⟩, _, _, ⟨-, rfl⟩, output, _,
    ⟨-, rfl⟩, error, _, ⟨-, rfl⟩, prior, _, ⟨-, rfl⟩, h⟩ := h
  cases prior with
  | some prior =>
    simp only [bind_ok, ofExcept_ok, require_ok, getProcess_ok] at h
    obtain ⟨stored, _, ⟨-, rfl⟩, _, _, ⟨same, rfl⟩, -, found, rfl⟩ := h
    have named : processIdFromPayload stored "" = t.processId := (of_decide_eq_true same).1
    rw [← named]
    exact found
  | none =>
    simp only [bind_ok, require_ok, getProcess_ok] at h
    obtain ⟨_, _, -, _, _, -, _, _, -, _, _, -, _, _, -, -, found, rfl⟩ := h
    exact found

theorem maintainProcess_stored {process maintained : ProcessRow} {m : Maintenance}
    (h : (maintainProcess process m).eval db = (.ok maintained, db')) :
    ∃ current, db.processes.find? process.key = some current ∧ current.status = process.status ∧
      db'.processes.find? process.key = some maintained := by
  simp only [maintainProcess, bind_ok, require_ok, getProcess_ok] at h
  obtain ⟨_, _, ⟨-, rfl⟩, current, _, ⟨-, found, rfl⟩, _, _, ⟨same, rfl⟩, h⟩ := h
  have status : current.status = process.status := (of_decide_eq_true same).1
  refine ⟨current, found, status, ?_⟩
  split at h
  · obtain ⟨rfl, rfl⟩ := pure_ok.mp h
    exact found
  · have key := Table.find?_key found
    have here : (current.runId, current.id) = process.key := key
    rw [← here]
    unfold resolveExpired at h
    split at h
    · exact transitionProcess_stored h
    · simp only [bind_ok, require_ok] at h
      obtain ⟨_, _, ⟨-, rfl⟩, h⟩ := h
      exact transitionProcess_stored h

theorem listProcesses_ok {runId : String} {rows : List ProcessRow} {db db' : Database} :
    (listProcesses runId).eval db = (.ok rows, db') ↔
      RunKnown db runId ∧
        rows = queueOrder (db.processes.rows.filter fun r => r.runId = runId) ∧ db = db' := by
  simp only [listProcesses, bind_ok, requireRun_ok, fetch_ok]
  constructor
  · rintro ⟨_, _, ⟨known, rfl⟩, rfl, rfl⟩
    exact ⟨known, rfl, rfl⟩
  · rintro ⟨known, rfl, rfl⟩
    exact ⟨(), db, ⟨known, rfl⟩, rfl, rfl⟩

theorem closeRow_load {row : ProcessRow} {s s' : Sweep} (open_ : s.closureFailed = false)
    (h : closeRow d row s db = (.ok s', db')) (closed : s'.closureFailed = true) :
    load db' < load db := by
  have calm := (closeRow_calm row s).left h
  unfold closeRow at h
  split at h
  · rename_i expired
    simp only [Session.bind_ok, Session.program_ok, Session.pure_ok] at h
    obtain ⟨maintained, middle, h, rfl, rfl⟩ := h
    obtain ⟨current, before, status, after⟩ := maintainProcess_stored h
    refine calm.load_lt before after (status.trans expired.1) fun running => ?_
    rw [Sweep.closed, if_neg (by simp [running]), open_] at closed
    cases closed
  · obtain ⟨rfl, rfl⟩ := Session.pure_ok.mp h
    rw [open_] at closed
    cases closed

theorem closeRows_load {rows : List ProcessRow} {s s' : Sweep} (open_ : s.closureFailed = false)
    (h : closeRows d rows s db = (.ok s', db')) (closed : s'.closureFailed = true) :
    load db' < load db := by
  induction rows generalizing s db with
  | nil =>
    obtain ⟨rfl, rfl⟩ := Session.pure_ok.mp h
    rw [open_] at closed
    cases closed
  | cons row rest ih =>
    obtain ⟨between, middle, first, h⟩ := Session.bind_ok.mp h
    have calm := (closeRow_calm row s.scanned).left first
    split at h
    · obtain ⟨rfl, rfl⟩ := Session.pure_ok.mp h
      exact closeRow_load (s := s.scanned) open_ first closed
    · cases ended : between.closureFailed with
      | true =>
        have later := (closeRows_calm rest between).left h
        exact later.load.trans_lt (closeRow_load (s := s.scanned) open_ first ended)
      | false => exact (ih ended h).trans_le calm.load

theorem closeRuns_load {runs : List String} {s s' : Sweep} (open_ : s.closureFailed = false)
    (h : closeRuns d runs s db = (.ok s', db')) (closed : s'.closureFailed = true) :
    load db' < load db := by
  induction runs generalizing s db with
  | nil =>
    obtain ⟨rfl, rfl⟩ := Session.pure_ok.mp h
    rw [open_] at closed
    cases closed
  | cons run rest ih =>
    simp only [closeRuns, Session.bind_ok, Session.program_ok, listProcesses_ok] at h
    obtain ⟨rows, _, ⟨-, -, rfl⟩, between, middle, first, h⟩ := h
    have calm := (closeRows_calm rows _).left first
    split at h
    · obtain ⟨rfl, rfl⟩ := Session.pure_ok.mp h
      exact closeRows_load (s := s.entered) open_ first closed
    · cases ended : between.closureFailed with
      | true =>
        have later := (closeRuns_calm rest between).left h
        exact later.load.trans_lt (closeRows_load (s := s.entered) open_ first ended)
      | false => exact (ih ended h).trans_le calm.load

end Closings
end Fala.Driver
