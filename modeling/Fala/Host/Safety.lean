import Fala.Durable.Focus
import Fala.Engine.Leases
import Fala.Host.Journal

/-! What the host makes of runs and processes, in histories that mix its writes with the calls of
    the journal. -/

namespace Fala.Host
open Durable Journal Program

inductive HostCall where
  | upsertRunMetadata (u : RunUpsert)
  | transitionRun (m : RunMove)
  | upsertProcess (u : ProcessUpsert)
  | completeWaitingProcess (c : Completion)
  | recordProcessStart (s : ProcessStart)
  | recordProcessFinish (f : ProcessFinish)
  deriving DecidableEq

namespace HostCall

def program (json : HostJson) : HostCall → Sql Unit
  | upsertRunMetadata u => Host.upsertRunMetadata u
  | transitionRun m => Host.transitionRun json m
  | upsertProcess u => Host.upsertProcess u
  | completeWaitingProcess c => (Host.completeWaitingProcess c).void
  | recordProcessStart s => Host.recordProcessStart s
  | recordProcessFinish f => Host.recordProcessFinish f

end HostCall

/-- What the state machines ask of a change of the runs and the processes. -/
structure Obeys (db db' : Database) : Prop where
  runs : ∀ id old new, db.runs.find? id = some old → db'.runs.find? id = some new →
    old.status ≠ new.status → canTransitionRun (.ofValue old.status) (.ofValue new.status) = true
  processes : ∀ k old new, db.processes.find? k = some old → db'.processes.find? k = some new →
    old.status ≠ new.status → canTransitionProcess old.status new.status = true
  known : ∀ id new, db'.runs.find? id = some new → db.runs.find? id ≠ some new →
    (RunStatus.ofValue new.status).isKnown = true
  unleased : ∀ k new, db'.processes.find? k = some new → db.processes.find? k ≠ some new →
    new.status.isTerminal = true ∨ new.status = .waiting → leased new = false
  terminalRuns : ∀ id old, db.runs.find? id = some old → terminalRun old.status = true →
    db'.runs.find? id = some old
  terminalProcesses : ∀ k old, db.processes.find? k = some old → old.status.isTerminal = true →
    db'.processes.find? k = some old

/-- The state machine lets a run become another one, or be created. -/
def RunMoves (old : Option RunRecord) (new : RunRecord) : Prop :=
  (RunStatus.ofValue new.status).isKnown = true ∧
    ∀ run, old = some run → terminalRun run.status = false ∧
      (run.status = new.status ∨ canTransitionRun (.ofValue run.status) (.ofValue new.status) = true)

def ProcessMoves (old : Option ProcessRow) (new : ProcessRow) : Prop :=
  (new.status.isTerminal = true ∨ new.status = .waiting → leased new = false) ∧
    ∀ row, old = some row → row.status.isTerminal = false ∧
      (row.status = new.status ∨ canTransitionProcess row.status new.status = true)

/-- The runs are as they were, except for one that the state machine lets through. -/
def RunWritten (db db' : Database) : Prop :=
  ∀ id, db'.runs.find? id = db.runs.find? id ∨
    ∃ new, db'.runs.find? id = some new ∧ RunMoves (db.runs.find? id) new

def ProcessWritten (db db' : Database) : Prop :=
  ∀ k, db'.processes.find? k = db.processes.find? k ∨
    ∃ new, db'.processes.find? k = some new ∧ ProcessMoves (db.processes.find? k) new

/-- What a host operation writes: runs and processes that the state machines let through, of known
    runs, and nothing in the log. -/
structure Hosted (db db' : Database) : Prop where
  runs : RunWritten db db'
  processes : ProcessWritten db db'
  commands : db'.commands = db.commands
  events : db'.events = db.events
  manned : ∀ k row, db'.processes.find? k = some row →
    (db.processes.find? k).isSome = true ∨ (db.runs.find? k.1).isSome = true

theorem Hosted.obeys {db db' : Database} (hosted : Hosted db db') : Obeys db db' where
  runs id old new found found' moved := by
    rcases hosted.runs id with same | ⟨written, there, -, moves⟩
    · have alike := Option.some.inj ((same.symm.trans found').symm.trans found)
      exact absurd (congrArg _ alike.symm) moved
    · cases there.symm.trans found'
      exact (moves old found).2.resolve_left moved
  processes k old new found found' moved := by
    rcases hosted.processes k with same | ⟨written, there, -, moves⟩
    · have alike := Option.some.inj ((same.symm.trans found').symm.trans found)
      exact absurd (congrArg _ alike.symm) moved
    · cases there.symm.trans found'
      exact (moves old found).2.resolve_left moved
  known id new found changed := by
    rcases hosted.runs id with same | ⟨written, there, known, -⟩
    · exact absurd (same ▸ found) changed
    · cases there.symm.trans found
      exact known
  unleased k new found changed := by
    rcases hosted.processes k with same | ⟨written, there, unleased, -⟩
    · exact absurd (same ▸ found) changed
    · cases there.symm.trans found
      exact unleased
  terminalRuns id old found terminal := by
    rcases hosted.runs id with same | ⟨written, -, -, moves⟩
    · exact same.trans found
    · simp [(moves old found).1] at terminal
  terminalProcesses k old found terminal := by
    rcases hosted.processes k with same | ⟨written, -, -, moves⟩
    · exact same.trans found
    · simp [(moves old found).1] at terminal

theorem RunWritten.same {db db' : Database} (same : db'.runs = db.runs) : RunWritten db db' :=
  fun id => .inl (by rw [same])

theorem ProcessWritten.same {db db' : Database} (same : db'.processes = db.processes) :
    ProcessWritten db db' := fun k => .inl (by rw [same])

theorem Hosted.refl (db : Database) : Hosted db db where
  runs := .same rfl
  processes := .same rfl
  commands := rfl
  events := rfl
  manned _ _ found := .inl (Option.isSome_of_eq_some found)

section
variable {db db' : Database}

theorem insertRun_hosted {row : RunRecord} {u : Unit} (h : (insertRun row).eval db = (.ok u, db'))
    (known : (RunStatus.ofValue row.status).isKnown = true) : Hosted db db' := by
  obtain ⟨runs, inserted, rfl⟩ := insertRun_ok.mp h
  refine ⟨fun id => ?_, .same rfl, rfl, rfl, fun _ _ found => .inl (Option.isSome_of_eq_some found)⟩
  have found := Table.find?_insert inserted id
  by_cases here : row.id = id
  · have free : db.runs.find? id = none := here ▸ (Table.insert?_some.mp inserted).1
    refine .inr ⟨row, found.trans (if_pos here), known, fun run there => ?_⟩
    rw [free] at there
    cases there
  · exact .inl (found.trans (if_neg here))

theorem updateRun_hosted {id : String} {guard : RunRecord → Bool} {f : RunRecord → RunRecord}
    {keeps : ∀ r, (f r).id = r.id} {n : Nat}
    (h : (updateRun id guard f keeps).eval db = (.ok n, db'))
    (moves : ∀ run, db.runs.find? id = some run → guard run = true → RunMoves (some run) (f run)) :
    Hosted db db' ∧ db'.processes = db.processes := by
  by_cases one : n = 1
  · obtain ⟨found, rfl⟩ := updateWhere_one h one
    obtain ⟨run, stored, met⟩ := (Option.any_eq_true _ _).mp found
    refine ⟨⟨fun other => ?_, .same rfl, rfl, rfl, fun _ _ found => .inl (Option.isSome_of_eq_some found)⟩, rfl⟩
    have written := Table.find?_modify db.runs id other f keeps
    by_cases here : other = id
    · subst here
      rw [if_pos rfl, stored] at written
      exact .inr ⟨f run, written, by rw [stored]; exact moves run stored met⟩
    · exact .inl (written.trans (if_neg here))
  · rw [updateWhere_none h one]
    exact ⟨.refl db, rfl⟩

theorem insertProcess_hosted {row : ProcessRow} {u : Unit}
    (h : (insertProcess row).eval db = (.ok u, db')) (known : (db.runs.find? row.runId).isSome = true)
    (fresh : row.status.isTerminal = true ∨ row.status = .waiting → leased row = false) :
    Hosted db db' := by
  obtain ⟨-, processes, inserted, rfl⟩ := insertProcess_ok.mp h
  have found := Table.find?_insert inserted
  refine ⟨.same rfl, fun k => ?_, rfl, rfl, fun k held there => ?_⟩
  · by_cases here : row.key = k
    · have free : db.processes.find? k = none := here ▸ (Table.insert?_some.mp inserted).1
      refine .inr ⟨row, (found k).trans (if_pos here), fresh, fun old there => ?_⟩
      rw [free] at there
      cases there
    · exact .inl ((found k).trans (if_neg here))
  · by_cases here : row.key = k
    · exact .inr (here ▸ known)
    · have kept := (found k).trans (if_neg here)
      exact .inl (by rw [← kept, show processes.find? k = some held from there]; rfl)

theorem updateProcess_hosted {runId id : String} {guard : ProcessRow → Bool}
    {f : ProcessRow → ProcessRow} {keeps : ∀ p, (f p).key = p.key} {n : Nat}
    (h : (updateProcess runId id guard f keeps).eval db = (.ok n, db'))
    (moves : ∀ row, db.processes.find? (runId, id) = some row → guard row = true →
      ProcessMoves (some row) (f row)) : Hosted db db' ∧ db'.runs = db.runs := by
  by_cases one : n = 1
  · obtain ⟨found, rfl⟩ := updateWhere_one h one
    obtain ⟨row, stored, met⟩ := (Option.any_eq_true _ _).mp found
    have written := Table.find?_modify db.processes (runId, id)
    refine ⟨⟨.same rfl, fun other => ?_, rfl, rfl, fun other held there => .inl ?_⟩, rfl⟩
    · by_cases here : other = (runId, id)
      · subst here
        have written := written (runId, id) f keeps
        rw [if_pos rfl, stored] at written
        exact .inr ⟨f row, written, by rw [stored]; exact moves row stored met⟩
      · exact .inl ((written other f keeps).trans (if_neg here))
    · by_cases here : other = (runId, id)
      · rw [here, stored]
        rfl
      · have kept := (written other f keeps).trans (if_neg here)
        rw [← kept, show (db.processes.modify (runId, id) f keeps).find? other = some held from there]
        rfl
  · rw [updateWhere_none h one]
    exact ⟨.refl db, rfl⟩

theorem requireTransitionRun_ok {current target : String} {u : Unit}
    (h : (requireTransitionRun current target).eval db = (.ok u, db')) :
    (current = target ∨ canTransitionRun (.ofValue current) (.ofValue target) = true) ∧ db = db' := by
  obtain ⟨legal, rfl⟩ := require_ok.mp h
  exact ⟨of_decide_eq_true legal, rfl⟩

theorem upsertRunBody_hosted {r : RunUpsert} {u : Unit}
    (known : (RunStatus.ofValue r.status).isKnown = true)
    (h : (upsertRunBody r).eval db = (.ok u, db')) : Hosted db db' := by
  simp only [upsertRunBody, bind_ok, fetch_ok] at h
  obtain ⟨found, _, ⟨stored, rfl⟩, h⟩ := h
  cases found with
  | none => exact insertRun_hosted h known
  | some run =>
    dsimp only at h
    by_cases terminal : terminalRun run.status = true
    · rw [if_pos terminal] at h
      obtain ⟨-, rfl⟩ := require_ok.mp h
      exact .refl db
    · rw [if_neg terminal] at h
      simp only [bind_ok, pure_ok] at h
      obtain ⟨_, _, checked, _, _, update, -, rfl⟩ := h
      obtain ⟨legal, rfl⟩ := requireTransitionRun_ok checked
      refine (updateRun_hosted update fun held there _ => ?_).1
      cases stored.symm.trans there
      refine ⟨known, fun old same => ?_⟩
      cases same
      exact ⟨by simpa using terminal, legal⟩

theorem transitionRunBody_hosted {json : HostJson} {m : RunMove} {u : Unit}
    (known : (RunStatus.ofValue m.status).isKnown = true)
    (h : (transitionRunBody json m).eval db = (.ok u, db')) : Hosted db db' := by
  simp only [transitionRunBody, bind_ok, fetch_ok] at h
  obtain ⟨found, _, ⟨stored, rfl⟩, h⟩ := h
  cases found with
  | none => exact absurd h raise_ok
  | some run =>
    simp only [bind_ok, ofExcept_ok] at h
    obtain ⟨_, _, checked, encoded, _, ⟨-, rfl⟩, h⟩ := h
    obtain ⟨legal, rfl⟩ := requireTransitionRun_ok checked
    split at h
    · obtain ⟨-, rfl⟩ := pure_ok.mp h
      exact .refl db
    · simp only [bind_ok, require_ok, pure_ok] at h
      obtain ⟨_, _, ⟨open', rfl⟩, _, _, update, -, rfl⟩ := h
      refine (updateRun_hosted update fun held there _ => ?_).1
      cases stored.symm.trans there
      refine ⟨known, fun old same => ?_⟩
      cases same
      exact ⟨by simpa using open', legal⟩

theorem clearLease_unleased {runId processId : String} {row : ProcessRow} {u : Unit}
    (unleased : leased row = false) (h : (clearLease runId processId row).eval db = (.ok u, db')) :
    db' = db := by
  rw [clearLease, if_neg (by simp [unleased])] at h
  exact (pure_ok.mp h).2.symm

/-- No row that has reached a terminal status is leased. -/
def TerminalUnleased (db : Database) : Prop :=
  ∀ k row, db.processes.find? k = some row → row.status.isTerminal = true → leased row = false

theorem upsertProcessBody_hosted {r : ProcessUpsert} {status : ProcessStatus} {u : Unit}
    (terminals : TerminalUnleased db) (h : (upsertProcessBody r status).eval db = (.ok u, db')) : Hosted db db' := by
  simp only [upsertProcessBody, bind_ok, fetch_ok, require_ok] at h
  obtain ⟨_, _, ⟨here, rfl⟩, _, _, ⟨known, rfl⟩, found, _, ⟨stored, rfl⟩, h⟩ := h
  cases found with
  | none => exact insertProcess_hosted h (here ▸ known) fun _ => rfl
  | some row =>
    dsimp only at h
    by_cases terminal : row.status.isTerminal = true
    · rw [if_pos terminal] at h
      simp only [bind_ok, require_ok] at h
      obtain ⟨_, _, ⟨-, rfl⟩, h⟩ := h
      rw [clearLease_unleased (terminals _ row stored terminal) h]
      exact .refl db
    · rw [if_neg terminal] at h
      simp only [bind_ok, require_ok, pure_ok, requireTransitionProcess] at h
      obtain ⟨_, _, ⟨legal, rfl⟩, _, _, ⟨-, rfl⟩, _, _, update, -, rfl⟩ := h
      refine (updateProcess_hosted update fun held there _ => ?_).1
      cases stored.symm.trans there
      refine ⟨fun _ => rfl, fun old same => ?_⟩
      cases same
      exact ⟨by simpa using terminal, of_decide_eq_true legal⟩

theorem recordStartBody_hosted {s : ProcessStart} {u : Unit}
    (h : (recordStartBody s).eval db = (.ok u, db')) : Hosted db db' := by
  simp only [recordStartBody, bind_ok, fetch_ok, require_ok] at h
  obtain ⟨_, _, ⟨here, rfl⟩, _, _, ⟨known, rfl⟩, inserted⟩ := h
  exact insertProcess_hosted inserted (here ▸ known) fun _ => rfl

/-- A finish that the state machine lets through, and that leaves no lease behind on a row that
    has ended or waits. -/
def ProcessFinish.Legal (f : ProcessFinish) (db : Database) : Prop :=
  ∀ row, db.processes.find? (f.runId, f.processId) = some row → row.status = .running →
    ∃ status, processStatus f.status = some status ∧
      (status = .running ∨ canTransitionProcess .running status = true) ∧
        (status.isTerminal = true ∨ status = .waiting → leased row = false)

theorem recordFinishBody_hosted {f : ProcessFinish} {status : ProcessStatus} {u : Unit}
    (named : processStatus f.status = some status) (legal : f.Legal db)
    (h : (recordFinishBody f status).eval db = (.ok u, db')) : Hosted db db' := by
  simp only [recordFinishBody, bind_ok, require_ok] at h
  obtain ⟨_, _, update, -, rfl⟩ := h
  refine (updateProcess_hosted update fun row stored guarded => ?_).1
  have running : row.status = .running := of_decide_eq_true guarded
  obtain ⟨other, same, moves, unleased⟩ := legal row stored running
  cases named.symm.trans same
  refine ⟨unleased, fun old same => ?_⟩
  cases same
  rw [running]
  exact ⟨rfl, moves.imp_left Eq.symm⟩

theorem blockerOf_ok {c : Completion} {blocker : Option Homeostat}
    (h : (blockerOf c).eval db = (.ok blocker, db')) :
    db = db' ∧ ∀ id, c.blockerId = some id → db.homeostats.find? (c.runId, id) = blocker ∧
      blocker.isSome = true := by
  unfold blockerOf at h
  cases named : c.blockerId with
  | none =>
    rw [named] at h
    exact ⟨(pure_ok.mp h).2, nofun⟩
  | some id =>
    rw [named] at h
    obtain ⟨found, _, read, h⟩ := bind_ok.mp h
    obtain ⟨stored, rfl⟩ := fetch_ok.mp read
    cases found with
    | none => exact absurd h raise_ok
    | some there =>
      obtain ⟨rfl, rfl⟩ := pure_ok.mp h
      refine ⟨rfl, fun other same => ?_⟩
      cases same
      exact ⟨stored, rfl⟩

theorem closeBlocker_ok {c : Completion} {blocker : Option Homeostat} {u : Unit}
    (h : (closeBlocker c blocker).eval db = (.ok u, db')) :
    db' = db ∨ ∃ homeostats, db' = db.setHomeostats homeostats := by
  cases blocker with
  | none => exact .inl (pure_ok.mp h).2.symm
  | some held =>
    unfold closeBlocker at h
    dsimp only at h
    split at h
    · simp only [bind_ok, require_ok, decide_eq_true_eq] at h
      obtain ⟨_, _, update, one, rfl⟩ := h
      exact .inr ⟨_, (updateWhere_one update one).2⟩
    · exact .inl (pure_ok.mp h).2.symm

/-- The blocker that a completion names is there, and open or as the completion is to leave it. -/
def Completion.Unblocked (c : Completion) (db : Database) : Prop :=
  ∀ id, c.blockerId = some id →
    (db.homeostats.find? (c.runId, id)).any (fun h => h.status = "open" || c.blocked h) = true

/-- The state machine lets the run of a completion end as the completion says, where the waiting
    process is completed at all and the run has not ended. -/
def Completion.Legal (c : Completion) (db : Database) : Prop :=
  ∀ row run, db.processes.find? (c.runId, c.processId) = some row → row.status = .waiting →
    leased row = false → c.Unblocked db → db.runs.find? c.runId = some run →
      terminalRun run.status = false →
        canTransitionRun (.ofValue run.status) (.ofValue c.runStatus) = true

theorem completeRows_hosted {c : Completion} {status : ProcessStatus} {run : RunRecord}
    {blocker : Option Homeostat} {u : Unit}
    (legal : ∀ held, db.runs.find? c.runId = some held → terminalRun held.status = false →
      canTransitionRun (.ofValue held.status) (.ofValue c.runStatus) = true)
    (known : (RunStatus.ofValue c.runStatus).isKnown = true)
    (allowed : canTransitionProcess .waiting status = true)
    (h : (completeRows c status run blocker).eval db = (.ok u, db')) : Hosted db db' := by
  simp only [completeRows, bind_ok, require_ok] at h
  obtain ⟨_, first, update, _, _, ⟨-, rfl⟩, _, second, closed, _, third, ended, -, rfl⟩ := h
  obtain ⟨left, runs⟩ := updateProcess_hosted update fun row _ guarded => by
    have waiting : row.status = .waiting := (of_decide_eq_true guarded).1
    refine ⟨fun _ => rfl, fun old same => ?_⟩
    cases same
    rw [waiting]
    exact ⟨rfl, .inr allowed⟩
  have same : second.runs = first.runs ∧ second.processes = first.processes ∧
      second.commands = first.commands ∧ second.events = first.events := by
    rcases closeBlocker_ok closed with rfl | ⟨_, rfl⟩ <;> exact ⟨rfl, rfl, rfl, rfl⟩
  obtain ⟨runs', processes', commands', events'⟩ := same
  have before : second.runs = db.runs := runs'.trans runs
  obtain ⟨right, unchanged⟩ := updateRun_hosted ended fun held there guarded => by
    refine ⟨known, fun old here => ?_⟩
    cases here
    have open' : terminalRun held.status = false := by simpa using guarded
    rw [before] at there
    exact ⟨open', .inr (legal held there open')⟩
  have after : third.processes = first.processes := unchanged.trans processes'
  refine ⟨fun id => ?_, fun k => ?_, ?_, ?_, fun k row found => ?_⟩
  · have moved := right.runs id
    rw [before] at moved
    exact moved
  · rw [after]
    exact left.processes k
  · exact right.commands.trans (commands'.trans left.commands)
  · exact right.events.trans (events'.trans left.events)
  · rw [after] at found
    exact left.manned k row found

theorem completeWaitingBody_hosted {c : Completion} {status : ProcessStatus} {answer : Text}
    (terminals : TerminalUnleased db) (legal : c.Legal db)
    (known : (RunStatus.ofValue c.runStatus).isKnown = true) (ends : status.isTerminal = true)
    (allowed : canTransitionProcess .waiting status = true)
    (h : (completeWaitingBody c status).eval db = (.ok answer, db')) : Hosted db db' := by
  simp only [completeWaitingBody, bind_ok, fetch_ok] at h
  obtain ⟨found, _, ⟨stored, rfl⟩, h⟩ := h
  cases found with
  | none => exact absurd h raise_ok
  | some row =>
    simp only [bind_ok, fetch_ok] at h
    obtain ⟨held, _, ⟨there, rfl⟩, h⟩ := h
    cases held with
    | none => exact absurd h raise_ok
    | some run =>
      simp only [bind_ok] at h
      obtain ⟨blocker, middle, read, h⟩ := h
      obtain ⟨rfl, named⟩ := blockerOf_ok read
      by_cases waiting : row.status = .waiting
      · rw [if_neg (not_not.mpr waiting)] at h
        simp only [bind_ok, require_ok, pure_ok] at h
        obtain ⟨_, _, ⟨free, rfl⟩, _, _, ⟨-, rfl⟩, _, _, ⟨ready, rfl⟩, _, _, rows, -, rfl⟩ := h
        have unblocked : c.Unblocked db := by
          intro id same
          obtain ⟨stored, some'⟩ := named id same
          rw [stored]
          cases blocker with
          | none => cases some'
          | some held => exact ready
        refine completeRows_hosted (fun held found open' => ?_) known allowed rows
        exact legal row held stored waiting (by simpa using free) unblocked found open'
      · rw [if_pos waiting] at h
        simp only [bind_ok, require_ok, pure_ok] at h
        obtain ⟨_, _, ⟨exact', rfl⟩, _, _, cleared, -, rfl⟩ := h
        have reached : row.status = status := (of_decide_eq_true exact').1
        rw [clearLease_unleased (terminals _ row stored (reached ▸ ends)) cleared]
        exact .refl db

end
end Fala.Host
