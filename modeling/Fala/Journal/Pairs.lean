import Fala.Journal.Effects

/-! The operations that move a homeostat together with a process. -/

namespace Fala.Journal
open Durable Program

theorem find?_updated {db : Database} {k : String × String} {f : ProcessRow → ProcessRow}
    (keeps : ∀ p, (f p).key = p.key) {old : ProcessRow} (found : db.processes.find? k = some old)
    (other : String × String) :
    (db.processes.modify k f keeps).find? other =
      if other = k then some (f old) else db.processes.find? other := by
  rw [Table.find?_modify, found, Option.map_some]

/-- One homeostat and one process row are written, and no other. -/
structure PairWritten (db : Database) (runId homeostatId processId : String)
    (homeostat : Homeostat) (process : ProcessRow) (db' : Database) : Prop where
  homeostats : ∀ k, db'.homeostats.find? k =
    if k = (runId, homeostatId) then some homeostat else db.homeostats.find? k
  processes : ∀ k, db'.processes.find? k =
    if k = (runId, processId) then some process else db.processes.find? k
  runs : db'.runs = db.runs

/-- A park takes an owned running row, and gives it a homeostat that was not there. -/
def HomeostatPark.Parks (p : HomeostatPark) (output metadata : Text) (db db' : Database) : Prop :=
  ∃ process, db.processes.find? (p.runId, p.processId) = some process ∧
    (process.status = .running ∧ process.leaseOwner = p.actor) ∧
    db.homeostats.find? (p.runId, p.homeostatId) = none ∧
    PairWritten db p.runId p.homeostatId p.processId (p.homeostat output metadata process)
      (p.update output process) db'

theorem parkBody_ok {p : HomeostatPark} {output metadata : Text} {u : Unit} {db db' : Database}
    (known : (db.runs.find? p.runId).isSome = true) (timed : p.at_ ≠ "")
    (h : (parkBody p output metadata).eval db = (.ok u, db')) :
    db' = db ∨ Written db (.act p.runId p.processId (.park p output metadata)) db' ∧
      p.Parks output metadata db db' := by
  simp only [parkBody, bind_ok, commandByKey_ok] at h
  obtain ⟨_, _, ⟨rfl, rfl⟩, h⟩ := h
  cases found : db.commandByKey p.runId p.key with
  | some prior =>
    simp only [found, bind_ok, require_ok, getProcess_ok, pure_ok] at h
    obtain ⟨_, _, ⟨-, rfl⟩, _, _, ⟨-, -, rfl⟩, -, rfl⟩ := h
    exact .inl rfl
  | none =>
    simp only [found, bind_ok, readProcess_ok, require_ok, fetch_ok, insertHomeostat_ok, pure_ok,
      decide_eq_true_eq] at h
    obtain ⟨process, _, ⟨here, rfl⟩, _, _, ⟨owned, rfl⟩, _, _, ⟨rfl, rfl⟩, _, _, ⟨free, rfl⟩, _, _,
      ⟨homeostats, inserted, rfl⟩, _, _, update, _, _, ⟨changed, rfl⟩, _, _, command, _, _, event,
      _, _, command', _, _, event', -, rfl⟩ := h
    obtain ⟨old, current, -, rfl⟩ := updateProcess_one update changed
    obtain rfl := Option.some.inj (current.symm.trans here)
    obtain ⟨commands, stored, rfl⟩ := insertCommand_rows command
    obtain ⟨middle, first, rfl⟩ := appendEventInTx_rows event
    obtain ⟨commands', stored', rfl⟩ := insertCommand_rows command'
    obtain ⟨after, second, rfl⟩ := appendEventInTx_rows event'
    have moved := find?_updated (f := p.update output) (fun _ => rfl) here
    have opened := Table.find?_insert inserted
    refine .inr ⟨.act here ⟨timed, owned⟩ moved (.intro rfl known ?_ (.two (first.mono ?_) second)),
      old, here, owned, by simpa using free, ⟨fun k => (opened k).trans ?_, moved, rfl⟩⟩
    · exact stored'.trans ((congrArg (· ++ _) stored).trans (List.append_assoc ..))
    · exact fun c member => stored'.symm ▸ List.mem_append_left _ member
    · simp only [eq_comm (a := k)]
      rfl

theorem parkHomeostatProcess_parks (p : HomeostatPark) (db : Database) :
    (parkHomeostatProcess p).Settles db fun db' => db' = db ∨ ∃ output metadata,
      Written db (.act p.runId p.processId (.park p output metadata)) db' ∧
        p.Parks output metadata db db' := by
  refine .afterRead (requireRun_reads _) fun _ known => .require fun named =>
    .afterRead (.ofExcept _) fun output _ => .afterRead (.ofExcept _) fun metadata _ =>
    .thenRead (.transact fun _ db' h => ?_) fun _ => getProcess_reads _ _
  obtain ⟨⟨-, known⟩, -⟩ := requireRun_ok.mp known
  have timed := (of_decide_eq_true named).2.2.2
  exact (parkBody_ok known timed h).imp_right fun done => ⟨output, metadata, done⟩

/-- The terminal statuses that go together. -/
def Closes (homeostat : String) (process : ProcessStatus) : Prop :=
  (homeostat = "completed" ∧ process = .succeeded) ∨
    (homeostat = "cancelled" ∧ process = .cancelled) ∨ (homeostat = "expired" ∧ process = .timedOut)

/-- A homeostat transition takes an open homeostat and an unleased waiting row. -/
def HomeostatTransition.Resolves (t : HomeostatTransition) (output error : Text)
    (db db' : Database) : Prop :=
  ∃ homeostat process, db.homeostats.find? (t.runId, t.homeostatId) = some homeostat ∧
    homeostat.status = "open" ∧ db.processes.find? (t.runId, t.processId) = some process ∧
    (process.status = .waiting ∧ process.leaseOwner = "" ∧ process.leaseExpiresAt = "") ∧
    PairWritten db t.runId t.homeostatId t.processId (t.updateHomeostat output error homeostat)
      (t.update output error process) db'

theorem transitionHomeostatBody_ok {t : HomeostatTransition} {output error : Text} {u : Unit}
    {db db' : Database} (known : (db.runs.find? t.runId).isSome = true) (timed : t.at_ ≠ "")
    (target : t.processStatus = .succeeded ∨ t.processStatus = .cancelled ∨
      t.processStatus = .timedOut)
    (h : (transitionHomeostatBody t output error).eval db = (.ok u, db')) :
    db' = db ∨ Written db (.act t.runId t.processId (.resolve t output error)) db' ∧
      t.Resolves output error db db' := by
  simp only [transitionHomeostatBody, bind_ok, commandByKey_ok] at h
  obtain ⟨_, _, ⟨rfl, rfl⟩, h⟩ := h
  cases found : db.commandByKey t.runId t.key with
  | some prior =>
    simp only [found, bind_ok, require_ok, getProcess_ok, pure_ok] at h
    obtain ⟨_, _, ⟨-, rfl⟩, _, _, ⟨-, -, rfl⟩, -, rfl⟩ := h
    exact .inl rfl
  | none =>
    simp only [found, bind_ok, fetch_ok] at h
    obtain ⟨_, _, ⟨rfl, rfl⟩, h⟩ := h
    cases stored : db.homeostats.find? (t.runId, t.homeostatId) with
    | none => simp only [stored, raise_ok] at h
    | some homeostat =>
      simp only [stored, bind_ok, require_ok, readProcess_ok, decide_eq_true_eq, pure_ok] at h
      obtain ⟨_, _, ⟨open', rfl⟩, process, _, ⟨here, rfl⟩, _, _, ⟨waiting, rfl⟩, _, _, update, _, _,
        ⟨changed, rfl⟩, _, _, update', _, _, ⟨changed', rfl⟩, _, _, command, _, _, event, _, _,
        event', -, rfl⟩ := h
      obtain ⟨_, found, -, rfl⟩ := updateHomeostat_one update changed
      obtain rfl := Option.some.inj (found.symm.trans stored)
      obtain ⟨old, current, -, rfl⟩ := updateProcess_one update' changed'
      obtain rfl := Option.some.inj (current.symm.trans here)
      obtain ⟨commands, stored, rfl⟩ := insertCommand_rows command
      obtain ⟨middle, first, rfl⟩ := appendEventInTx_rows event
      obtain ⟨after, second, rfl⟩ := appendEventInTx_rows event'
      have moved := find?_updated (f := t.update output error) (fun _ => rfl) here
      refine .inr ⟨.act here ⟨timed, waiting.1, waiting.2.1, waiting.2.2, target⟩ moved
        (.intro rfl known stored (.two first second)), _, old, found, open', here, waiting, ?_,
        moved, rfl⟩
      intro k
      refine (Table.find?_modify db.homeostats _ k (t.updateHomeostat output error)
        (fun _ => rfl)).trans ?_
      rw [found, Option.map_some]

theorem transitionHomeostatProcess_resolves (t : HomeostatTransition) (db : Database) :
    (transitionHomeostatProcess t).Settles db fun db' => db' = db ∨
      Closes t.homeostatStatus t.processStatus ∧ ∃ output error,
        t.outputJson.canonical = some output ∧
          Written db (.act t.runId t.processId (.resolve t output error)) db' ∧
            t.Resolves output error db db' := by
  refine .afterRead (requireRun_reads _) fun _ known => .require fun closing =>
    .require fun target => .require fun agree => .require fun named =>
    .afterRead (.ofExcept _) fun output printed => .afterRead (.ofExcept _) fun error _ =>
    .thenRead (.transact fun _ db' h => ?_) fun _ => getProcess_reads _ _
  obtain ⟨⟨-, known⟩, -⟩ := requireRun_ok.mp known
  have timed := (of_decide_eq_true named).2.2.2
  have printed := canonicalJsonField_ok.mp (ofExcept_ok.mp printed).1
  refine (transitionHomeostatBody_ok known timed (of_decide_eq_true target) h).imp_right
    fun done => ⟨?_, output, error, printed, done⟩
  obtain ⟨completed, cancelled, expired⟩ := of_decide_eq_true agree
  exact (of_decide_eq_true closing).imp (fun same => ⟨same, completed same⟩)
    (Or.imp (fun same => ⟨same, cancelled same⟩) fun same => ⟨same, expired same⟩)

theorem requireRunWaiting_reads (r : HomeostatReopen) : ReadOnly (requireRunWaiting r) := by
  unfold requireRunWaiting
  split
  · refine .bind (.fetch _) fun found => ?_
    cases found with
    | none => exact .raise _
    | some run => exact .require _ _
  · exact .pure ()

/-- A reopening takes a homeostat and a row that are terminal and have attempts left. -/
def HomeostatReopen.Reopens (r : HomeostatReopen) (homeostat : Homeostat) (process : ProcessRow)
    (db db' : Database) : Prop :=
  db.homeostats.find? (r.runId, r.homeostatId) = some homeostat ∧
    ((homeostat.status = "completed" ∨ homeostat.status = "cancelled" ∨
      homeostat.status = "expired") ∧ homeostat.attempt < homeostat.maxAttempts) ∧
    db.processes.find? (r.runId, r.processId) = some process ∧
    ((process.status = .succeeded ∨ process.status = .cancelled ∨ process.status = .timedOut) ∧
      process.attempt < process.maxAttempts) ∧
    PairWritten db r.runId r.homeostatId r.processId (r.updateHomeostat homeostat)
      (r.update process) db'

theorem reopenBody_ok {r : HomeostatReopen} {u : Unit} {db db' : Database}
    (known : (db.runs.find? r.runId).isSome = true)
    (h : (reopenBody r).eval db = (.ok u, db')) :
    db' = db ∨ ∃ homeostat process,
      Written db (.act r.runId r.processId (.reopen r homeostat)) db' ∧
        r.Reopens homeostat process db db' := by
  simp only [reopenBody, bind_ok, fetch_ok] at h
  obtain ⟨_, _, waiting, _, _, ⟨rfl, rfl⟩, h⟩ := h
  obtain rfl := ((requireRunWaiting_reads r).eval db).symm.trans (congrArg Prod.snd waiting)
  cases found : db.homeostats.find? (r.runId, r.homeostatId) with
  | none => simp only [found, raise_ok] at h
  | some homeostat =>
    simp only [found, bind_ok, commandByKey_ok] at h
    obtain ⟨_, _, ⟨rfl, rfl⟩, h⟩ := h
    cases stored : db.commandByKey r.runId (r.key homeostat) with
    | some prior =>
      simp only [stored, bind_ok, require_ok, getProcess_ok, pure_ok] at h
      obtain ⟨_, _, ⟨-, rfl⟩, _, _, ⟨-, -, rfl⟩, -, rfl⟩ := h
      exact .inl rfl
    | none =>
      simp only [stored, bind_ok, require_ok, readProcess_ok, decide_eq_true_eq, pure_ok] at h
      obtain ⟨_, _, ⟨closed, rfl⟩, _, _, ⟨armed, rfl⟩, process, _, ⟨here, rfl⟩, _, _,
        ⟨terminal, rfl⟩, _, _, ⟨left, rfl⟩, _, _, update, _, _, ⟨changed, rfl⟩, _, _, update', _, _,
        ⟨changed', rfl⟩, _, _, command, _, _, event, _, _, event', -, rfl⟩ := h
      obtain ⟨_, found', -, rfl⟩ := updateHomeostat_one update changed
      obtain rfl := Option.some.inj (found'.symm.trans found)
      obtain ⟨old, current, -, rfl⟩ := updateProcess_one update' changed'
      obtain rfl := Option.some.inj (current.symm.trans here)
      obtain ⟨commands, stored, rfl⟩ := insertCommand_rows command
      obtain ⟨middle, first, rfl⟩ := appendEventInTx_rows event
      obtain ⟨after, second, rfl⟩ := appendEventInTx_rows event'
      have moved := find?_updated (f := r.update) (fun _ => rfl) here
      refine .inr ⟨_, old, .act here ⟨terminal, left⟩ moved (.intro rfl known stored
        (.two first second)), found, ⟨closed, armed⟩, here, ⟨terminal, left⟩, ?_, moved, rfl⟩
      intro k
      refine (Table.find?_modify db.homeostats _ k r.updateHomeostat (fun _ => rfl)).trans ?_
      rw [found, Option.map_some]

theorem reopenHomeostatProcess_reopens (r : HomeostatReopen) (db : Database) :
    (reopenHomeostatProcess r).Settles db fun db' => db' = db ∨ ∃ homeostat process,
      Written db (.act r.runId r.processId (.reopen r homeostat)) db' ∧
        r.Reopens homeostat process db db' := by
  refine .afterRead (requireRun_reads _) fun _ known => .require fun _ =>
    .thenRead (.transact fun _ db' h => ?_) fun _ => getProcess_reads _ _
  obtain ⟨⟨-, known⟩, -⟩ := requireRun_ok.mp known
  exact reopenBody_ok known h

end Fala.Journal
