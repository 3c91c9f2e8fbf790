import Fala.Engine.Calls
import Fala.Journal.Recording
import Fala.Journal.Effects

/-! The transitions of a run under the fixed keys of `RunLifecycle`, beside those of
    `transition_run_status` under keys of the caller. -/

namespace Fala.Runs
open Durable Program Journal

namespace LifecycleTransition

variable {t : LifecycleTransition} {db db' : Database} {run : RunRecord}

/-- Nothing is recorded under the ids that the transition would use. -/
structure Fresh (t : LifecycleTransition) (db : Database) : Prop where
  key : db.commandByKey t.runId t.idempotencyKey = none
  command : (t.runId, t.cid) ∉ db.commands.rows.map CommandRow.key
  event : (t.runId, t.cid ++ ":event") ∉ db.events.rows.map EventRow.unique

/-- The command under the key, and its event, are those of the same call. -/
def Replays (t : LifecycleTransition) (db : Database) : Prop :=
  ∃ prior, db.commandByKey t.runId t.idempotencyKey = some prior ∧ t.sameCommand prior = true ∧
    (db.events.rows.find? fun e => e.runId = t.runId ∧ e.commandId = prior.id).any t.sameEvent =
      true

theorem of_ok {row : RunRow} (found : db.runs.find? t.runId = some run)
    (h : (transition t).eval db = (.ok row, db')) :
    (t.Replays db ∧ db' = db) ∨
      t.Fresh db ∧ canTransitionRun (.ofValue run.status) (.ofValue t.target) = true ∧
        db'.runs.find? t.runId = some (t.update run) := by
  simp only [transition, findRun, bind_ok, require_ok, RunTransition.readRunRow_ok,
    commandByKey_ok] at h
  obtain ⟨_, _, ⟨-, rfl⟩, _, _, ⟨⟨current, here, rfl⟩, rfl⟩, prior, _, ⟨key, rfl⟩, h⟩ := h
  obtain rfl := Option.some.inj (found.symm.trans here)
  cases prior with
  | some prior =>
    simp only [bind_ok, require_ok, fetch_ok, pure_ok] at h
    obtain ⟨_, _, ⟨same, rfl⟩, _, _, ⟨rfl, rfl⟩, _, _, ⟨told, rfl⟩, -, rfl⟩ := h
    exact .inl ⟨⟨prior, key, same, told⟩, rfl⟩
  | none =>
    simp only [transitionBody, bind_ok, require_ok, transact_ok, fetch_ok, insertEvent_ok,
      insertCommand_ok, RunTransition.readRunRow_ok, decide_eq_true_eq] at h
    obtain ⟨_, _, ⟨-, rfl⟩, _, _, ⟨legal, rfl⟩, _, _, ⟨_, _, ⟨commands, recorded, rfl⟩, _, _, update,
      _, _, ⟨changed, rfl⟩, _, _, ⟨-, rfl⟩, -, events, appended, rfl⟩, -, rfl⟩ := h
    obtain ⟨-, rfl⟩ := updateWhere_one update changed
    exact .inr ⟨⟨key, (Ledger.append?_some.mp recorded).1.1,
      (Ledger.append?_some.mp appended).1.2⟩, legal, Table.find?_modified found t.update fun _ => rfl⟩

theorem of_replay (named : t.runId ≠ "" ∧ t.idempotencyKey ≠ "")
    (found : db.runs.find? t.runId = some run) (replays : t.Replays db) :
    (transition t).eval db = (.ok (.ofRecord run), db) := by
  obtain ⟨prior, key, same, told⟩ := replays
  exact (ok_bind (require_met (decide_eq_true named))).trans <|
    (ok_bind (RunTransition.readRunRow_ok.mpr ⟨⟨run, found, rfl⟩, rfl⟩)).trans <|
    (ok_bind (commandByKey_ok.mpr ⟨key, rfl⟩)).trans <| (ok_bind (require_met same)).trans <|
    (ok_bind (fetch_ok.mpr ⟨rfl, rfl⟩)).trans <| (ok_bind (require_met told)).trans rfl

theorem of_fresh (named : t.runId ≠ "" ∧ t.idempotencyKey ≠ "")
    (found : db.runs.find? t.runId = some run) (fresh : t.Fresh db)
    (legal : canTransitionRun (.ofValue run.status) (.ofValue t.target) = true) :
    ∃ row db', (transition t).eval db = (.ok row, db') ∧
      db'.runs.find? t.runId = some (t.update run) := by
  obtain ⟨commands, inserted, stored⟩ :=
    insertCommand_fresh db t.command fresh.command fresh.key
  let updated := (db.setCommands commands).setRuns (db.runs.modify t.runId t.update fun _ => rfl)
  have recorded : (t.runId, t.cid) ∈ commands.rows.map CommandRow.key :=
    List.mem_map.mpr ⟨_, stored ▸ List.mem_append_right _ (List.mem_singleton_self _), rfl⟩
  obtain ⟨events, appended, -⟩ := insertEvent_fresh updated t.event
    fresh.event (.inr recorded)
  have moved : (db.runs.modify t.runId t.update fun _ => rfl).find? t.runId =
      some (t.update run) := Table.find?_modified found t.update fun _ => rfl
  have current : ((db.setCommands commands).runs.find? t.runId).any
      (fun r => r.status = run.status) = true := by
    rw [show (db.setCommands commands).runs.find? t.runId = some run from found, Option.any_some]
    exact decide_eq_true rfl
  have body : (transitionBody t (.ofRecord run)).eval db = (.ok (), updated.setEvents events) :=
    (ok_bind inserted).trans <| (ok_bind (updateWhere_met current)).trans <|
      (ok_bind (require_met (decide_eq_true rfl))).trans <|
      (ok_bind (fetch_ok.mpr ⟨rfl, rfl⟩)).trans appended
  have known : (RunStatus.ofValue run.status).isKnown = true ∧
      (RunStatus.ofValue t.target).isKnown = true := by
    by_contra unknown
    have refused : canTransitionRun (.ofValue run.status) (.ofValue t.target) = false := by
      unfold canTransitionRun
      exact if_pos (by tauto)
    rw [refused] at legal
    cases legal
  refine ⟨.ofRecord (t.update run), updated.setEvents events, ?_, moved⟩
  exact (ok_bind (require_met (decide_eq_true named))).trans <|
    (ok_bind (RunTransition.readRunRow_ok.mpr ⟨⟨run, found, rfl⟩, rfl⟩)).trans <|
    (ok_bind (commandByKey_ok.mpr ⟨fresh.key, rfl⟩)).trans <|
    (ok_bind (require_met (decide_eq_true known))).trans <| (ok_bind (require_met legal)).trans <|
    (ok_bind (transact_ok.mpr body)).trans
      (RunTransition.readRunRow_ok.mpr ⟨⟨_, moved, rfl⟩, rfl⟩)

theorem known_of_ok {row : RunRow} (h : (transition t).eval db = (.ok row, db')) :
    (t.runId ≠ "" ∧ t.idempotencyKey ≠ "") ∧ ∃ run, db.runs.find? t.runId = some run := by
  simp only [transition, findRun, bind_ok, require_ok, RunTransition.readRunRow_ok,
    decide_eq_true_eq] at h
  obtain ⟨_, _, ⟨named, rfl⟩, _, _, ⟨⟨run, found, -⟩, rfl⟩, -⟩ := h
  exact ⟨named, run, found⟩

theorem restores (t : LifecycleTransition) (db : Database) : (transition t).Restores db := by
  refine .require fun _ => .afterRead (findRun_reads _) fun current known =>
    .afterRead (commandByKey_reads _ _) fun found _ => ?_
  obtain ⟨⟨run, here, -⟩, -⟩ := RunTransition.readRunRow_ok.mp known
  cases found with
  | some prior =>
    exact .ofReadOnly (.bind (.require _ _) fun _ => .bind (.fetch _) fun _ =>
      .bind (.require _ _) fun _ => .pure _)
  | none =>
    refine .require fun _ => .require fun _ => .followed (.transact _ _) fun _ db' body => ?_
    simp only [transitionBody, transact_ok, bind_ok, require_ok, fetch_ok, insertEvent_ok,
      insertCommand_ok, decide_eq_true_eq] at body
    obtain ⟨_, _, ⟨commands, -, rfl⟩, _, _, update, _, _, ⟨changed, rfl⟩, _, _, ⟨-, rfl⟩, -, events,
      -, rfl⟩ := body
    obtain ⟨-, rfl⟩ := updateWhere_one update changed
    have moved : (db.runs.modify t.runId t.update fun _ => rfl).find? t.runId =
        some (t.update run) := Table.find?_modified here t.update fun _ => rfl
    rw [show (findRun t.runId).eval _ = _ from
      RunTransition.readRunRow_ok.mpr ⟨⟨_, moved, rfl⟩, rfl⟩]
    rfl

end LifecycleTransition

/-- The verbs of `RunLifecycle`. -/
inductive Verb where
  | start | wait | complete | fail | requestCancel | cancel | timeout
  deriving DecidableEq

namespace Verb

/-- The call of a verb with its default key. -/
def call (runId now : String) : Verb → Sql RunRow
  | .start => Runs.start runId now
  | .wait => Runs.wait runId now
  | .complete => Runs.complete runId now
  | .fail => Runs.fail runId now
  | .requestCancel => Runs.requestCancel runId now
  | .cancel => Runs.cancel runId now
  | .timeout => Runs.timeout runId now

def transition (runId now : String) : Verb → LifecycleTransition
  | .start => ⟨runId, "active", "run.start", "run.started", now, "run.start", "", "", true, ""⟩
  | .wait => ⟨runId, "waiting", "run.wait", "run.waiting", now, "run.wait", "", "", true, ""⟩
  | .complete =>
    ⟨runId, "completed", "run.complete", "run.completed", now, "run.complete", "", "", true, ""⟩
  | .fail => ⟨runId, "failed", "run.fail", "run.failed", now, "run.fail", "", "", true, ""⟩
  | .requestCancel =>
    ⟨runId, "cancel_requested", "run.cancel", "run.cancel_requested", now, "run.cancel.request", "",
      "cancel_requested", true, ""⟩
  | .cancel =>
    ⟨runId, "cancelled", "run.cancel", "run.cancelled", now, "run.cancel", "", "cancelled", true, ""⟩
  | .timeout =>
    ⟨runId, "timed_out", "run.timeout", "run.timed_out", now, "run.timeout", "", "timed_out", true,
      ""⟩

theorem call_eq (v : Verb) (runId now : String) :
    v.call runId now = Runs.transition (v.transition runId now) := by cases v <;> rfl

def target (v : Verb) : String := (v.transition "" "").target

theorem transition_target (v : Verb) (runId now : String) :
    (v.transition runId now).target = v.target := by cases v <;> rfl

theorem transition_runId (v : Verb) (runId now : String) :
    (v.transition runId now).runId = runId := by cases v <;> rfl

theorem transition_now (v : Verb) (runId now : String) :
    (v.transition runId now).now = now := by cases v <;> rfl

theorem transition_key (v : Verb) (runId now : String) :
    (v.transition runId now).idempotencyKey ≠ "" := by cases v <;> simp [transition]

theorem target_ne (v : Verb) : v.target ≠ "" := by cases v <;> decide

end Verb

/-- One transition of a run, issued through both interfaces. -/
structure RunStep where
  verb : Verb
  now : String
  key : String
  reason : String := ""

namespace RunStep

def lifecycle (s : RunStep) (runId : String) : LifecycleTransition := s.verb.transition runId s.now

def journal (s : RunStep) (runId : String) : RunTransition :=
  ⟨runId, s.verb.target, s.now, s.key, s.reason⟩

end RunStep

/-- The store of `RunLifecycle` and the store of the journal after a step. -/
def bothStep (runId : String) (dbs : Database × Database) (s : RunStep) : Database × Database :=
  (((s.verb.call runId s.now).eval dbs.1).2,
    ((transitionRunStatus (s.journal runId)).eval dbs.2).2)

/-- The columns of a run that a transition moves. -/
def runColumns (db : Database) (runId : String) : Option (String × String × String) :=
  (db.runs.find? runId).map fun r => (r.status, r.startedAt, r.finishedAt)

section
variable (runId : String) (dbs : Database × Database) (s : RunStep)

def LifecycleAccepts : Prop := ∃ row db, (s.verb.call runId s.now).eval dbs.1 = (.ok row, db)

def JournalAccepts : Prop :=
  ∃ result db, (transitionRunStatus (s.journal runId)).eval dbs.2 = (.ok result, db)

/-- Both interfaces take the step alike, and a legal step reaches its status. -/
structure Alike : Prop where
  accepted : LifecycleAccepts runId dbs s ↔ JournalAccepts runId dbs s
  same : runColumns (bothStep runId dbs s).1 runId = runColumns (bothStep runId dbs s).2 runId
  moved : runId ≠ "" → ∀ run, dbs.1.runs.find? runId = some run →
    canTransitionRun (.ofValue run.status) (.ofValue s.verb.target) = true →
      LifecycleAccepts runId dbs s ∧
        ((bothStep runId dbs s).1.runs.find? runId).any (fun r => r.status = s.verb.target) = true

/-- The key of the verb is unused where the step is legal, and records nothing that the step
    would repeat where it is not. -/
def Unhindered : Prop :=
  runId ≠ "" → ∀ run, dbs.1.runs.find? runId = some run →
    if canTransitionRun (.ofValue run.status) (.ofValue s.verb.target) then
      s.now ≠ "" ∧ (s.lifecycle runId).Fresh dbs.1
    else ¬ (s.lifecycle runId).Replays dbs.1

end

theorem canTransitionRun_ne {source target : RunStatus}
    (legal : canTransitionRun source target = true) : source ≠ target := by
  rintro rfl
  unfold canTransitionRun at legal
  split at legal
  · cases legal
  · split at legal
    · cases legal
    · rw [if_pos rfl] at legal
      cases legal

section
variable {runId : String} {dbs : Database × Database} {s : RunStep}

theorem lifecycle_call (runId : String) (s : RunStep) :
    s.verb.call runId s.now = transition (s.lifecycle runId) := s.verb.call_eq runId s.now

theorem lifecycle_rejected (rejected : ¬ LifecycleAccepts runId dbs s) :
    (bothStep runId dbs s).1 = dbs.1 := by
  have restores := (s.lifecycle runId).restores dbs.1
  simp only [LifecycleAccepts, bothStep, lifecycle_call] at rejected ⊢
  cases h : (transition (s.lifecycle runId)).eval dbs.1 with
  | mk result db =>
    cases result with
    | ok row => exact absurd ⟨row, db, h⟩ rejected
    | error message => exact restores message db h

theorem journal_rejected (rejected : ¬ JournalAccepts runId dbs s) :
    (bothStep runId dbs s).2 = dbs.2 := by
  have restores := (s.journal runId).restores dbs.2
  simp only [JournalAccepts, bothStep] at rejected ⊢
  cases h : (transitionRunStatus (s.journal runId)).eval dbs.2 with
  | mk result db =>
    cases result with
    | ok row => exact absurd ⟨row, db, h⟩ rejected
    | error message => exact restores message db h

theorem alike_iff (same : runColumns dbs.1 runId = runColumns dbs.2 runId)
    (fresh : (s.journal runId).Fresh dbs.2) (keyed : s.key ≠ "") :
    Alike runId dbs s ↔ Unhindered runId dbs s := by
  have left : ∀ {row db}, (s.verb.call runId s.now).eval dbs.1 = (.ok row, db) →
      (transition (s.lifecycle runId)).eval dbs.1 = (.ok row, db) := by
    intro row db h
    rwa [lifecycle_call] at h
  have named : (s.lifecycle runId).runId = runId := s.verb.transition_runId runId s.now
  have target : (s.lifecycle runId).target = s.verb.target := s.verb.transition_target runId s.now
  have now : (s.lifecycle runId).now = s.now := s.verb.transition_now runId s.now
  by_cases empty : runId = ""
  · have rejected : ¬ LifecycleAccepts runId dbs s := fun ⟨_, _, h⟩ =>
      (LifecycleTransition.known_of_ok (left h)).1.1 (named.trans empty)
    have rejected' : ¬ JournalAccepts runId dbs s := fun ⟨_, _, h⟩ =>
      (RunTransition.known_of_ok h).2.1 empty
    refine iff_of_true ⟨iff_of_false rejected rejected', ?_, fun known => absurd empty known⟩
      fun known => absurd empty known
    rw [lifecycle_rejected rejected, journal_rejected rejected', same]
  cases found : dbs.1.runs.find? runId with
  | none =>
    have missing : dbs.2.runs.find? runId = none := by
      simpa [runColumns, found, eq_comm] using same
    have rejected : ¬ LifecycleAccepts runId dbs s := by
      rintro ⟨_, _, h⟩
      obtain ⟨-, run, here⟩ := LifecycleTransition.known_of_ok (left h)
      rw [named, found] at here
      cases here
    have rejected' : ¬ JournalAccepts runId dbs s := by
      rintro ⟨_, _, h⟩
      obtain ⟨-, -, run, here⟩ := RunTransition.known_of_ok h
      rw [show (s.journal runId).runId = runId from rfl, missing] at here
      cases here
    refine iff_of_true ⟨iff_of_false rejected rejected', ?_, fun _ run here => ?_⟩
      fun _ run here => ?_
    · rw [lifecycle_rejected rejected, journal_rejected rejected', same]
    · rw [found] at here
      cases here
    · rw [found] at here
      cases here
  | some run =>
    obtain ⟨run', found', columns⟩ : ∃ run', dbs.2.runs.find? runId = some run' ∧
        (run'.status, run'.startedAt, run'.finishedAt) =
          (run.status, run.startedAt, run.finishedAt) := by
      simpa [runColumns, found, eq_comm, Option.map_eq_some_iff] using same
    simp only [Prod.mk.injEq] at columns
    obtain ⟨status, started, finished⟩ := columns
    have here : dbs.1.runs.find? (s.lifecycle runId).runId = some run := by
      rw [named, found]
    have keyed' : (s.lifecycle runId).runId ≠ "" ∧ (s.lifecycle runId).idempotencyKey ≠ "" :=
      ⟨by rw [named]; exact empty, s.verb.transition_key runId s.now⟩
    have condition : Unhindered runId dbs s ↔
        if canTransitionRun (.ofValue run.status) (.ofValue s.verb.target) then
          s.now ≠ "" ∧ (s.lifecycle runId).Fresh dbs.1
        else ¬ (s.lifecycle runId).Replays dbs.1 :=
      ⟨fun free => free empty run found, fun free _ other same => by
        obtain rfl := Option.some.inj (found.symm.trans same)
        exact free⟩
    rw [condition]
    cases legal : canTransitionRun (.ofValue run.status) (.ofValue s.verb.target) with
    | true =>
      rw [if_pos rfl]
      have different : run.status ≠ s.verb.target := fun same =>
        canTransitionRun_ne legal (congrArg RunStatus.ofValue same)
      constructor
      · intro alike
        obtain ⟨accepts, reached⟩ := alike.moved empty run found legal
        obtain ⟨_, _, h⟩ := alike.accepted.mp accepts
        refine ⟨(RunTransition.known_of_ok h).1.2.1, ?_⟩
        obtain ⟨row, db, h⟩ := accepts
        rcases LifecycleTransition.of_ok here (left h) with ⟨-, rfl⟩ | ⟨unused, -⟩
        · simp only [bothStep, h, found, Option.any_some, decide_eq_true_eq] at reached
          exact absurd reached different
        · exact unused
      · rintro ⟨timed, unused⟩
        obtain ⟨row, db, h, moved⟩ :=
          LifecycleTransition.of_fresh keyed' here unused (target.symm ▸ legal)
        have h : (s.verb.call runId s.now).eval dbs.1 = (.ok row, db) := by
          rw [lifecycle_call, h]
        obtain ⟨result, db', h', moved'⟩ := RunTransition.of_fresh (t := s.journal runId)
          ⟨s.verb.target_ne, timed, keyed⟩ empty found' fresh (status.symm ▸ legal)
        rw [named] at moved
        have first : (bothStep runId dbs s).1 = db := by rw [bothStep, h]
        have second : (bothStep runId dbs s).2 = db' := by rw [bothStep, h']
        refine ⟨iff_of_true ⟨row, db, h⟩ ⟨result, db', h'⟩, ?_, fun _ _ _ _ => ⟨⟨row, db, h⟩, ?_⟩⟩
        · rw [first, second]
          simp only [runColumns, moved, show db'.runs.find? runId = _ from moved', Option.map_some,
            LifecycleTransition.update, RunTransition.update, target, now, started, finished]
          rfl
        · rw [first, moved, Option.any_some]
          exact decide_eq_true target
    | false =>
      rw [if_neg (by decide)]
      have rejected' : ¬ JournalAccepts runId dbs s := by
        rintro ⟨_, _, h⟩
        rcases RunTransition.of_ok found' h with ⟨⟨prior, key, -⟩, -⟩ | ⟨-, allowed, -⟩
        · rw [fresh.key] at key
          cases key
        · rw [status] at allowed
          exact absurd (allowed.symm.trans legal) (by decide)
      constructor
      · intro alike replays
        refine rejected' (alike.accepted.mp ⟨.ofRecord run, dbs.1, ?_⟩)
        rw [lifecycle_call, LifecycleTransition.of_replay keyed' here replays]
      · intro unrepeated
        have rejected : ¬ LifecycleAccepts runId dbs s := by
          rintro ⟨_, _, h⟩
          rcases LifecycleTransition.of_ok here (left h) with ⟨replays, -⟩ | ⟨-, allowed, -⟩
          · exact unrepeated replays
          · rw [target] at allowed
            exact absurd (allowed.symm.trans legal) (by decide)
        refine ⟨iff_of_false rejected rejected', ?_, fun _ other same allowed => ?_⟩
        · rw [lifecycle_rejected rejected, journal_rejected rejected', same]
        · obtain rfl := Option.some.inj (found.symm.trans same)
          exact absurd (allowed.symm.trans legal) (by decide)

end

namespace LifecycleCreation

variable {c : LifecycleCreation} {db : Database}

/-- A replay returns for a stored command that is the creation of the same run. -/
def ReplaysItself (c : LifecycleCreation) (db : Database) : Prop :=
  ∀ result db', (createResult c).eval db = (.ok result, db') → result.replayed = true →
    ∃ stored, db.commandByKey c.runId c.idempotencyKey = some stored ∧
      stored.commandType = "run.create" ∧ stored.payload = c.payload

/-- The key of an acceptable creation holds nothing else, where the run has its identity. -/
def KeyKept (c : LifecycleCreation) (db : Database) : Prop :=
  c.runId ≠ "" ∧ c.idempotencyKey ≠ "" → (RunStatus.ofValue c.status).isKnown = true →
    ∀ run stored, db.runs.find? c.runId = some run → run.identity = c.identity →
      db.commandByKey c.runId c.idempotencyKey = some stored →
      stored.commandType = "run.create" ∧ stored.payload = c.payload

theorem replaysItself_iff : c.ReplaysItself db ↔ c.KeyKept db := by
  constructor
  · intro faithful named known run stored found identity key
    have body : (createBody c).eval db = (.ok true, db) :=
      (ok_bind (commandByKey_ok.mpr ⟨key, rfl⟩)).trans rfl
    have read : (fetch fun db => (db.runs.find? c.runId,
        db.commandByKey c.runId c.idempotencyKey) : Sql _).eval db =
        (.ok (some run, some stored), db) := fetch_ok.mpr ⟨by rw [found, key], rfl⟩
    have replayed : (createResult c).eval db = (.ok ⟨run, stored, true⟩, db) :=
      (ok_bind (require_met (decide_eq_true named))).trans <| (ok_bind (require_met known)).trans <|
        (ok_bind (transact_ok.mpr body)).trans <| (ok_bind read).trans <|
        (ok_bind (require_met (decide_eq_true identity))).trans rfl
    obtain ⟨prior, here, created⟩ := faithful _ _ replayed rfl
    obtain rfl := Option.some.inj (key.symm.trans here)
    exact created
  · intro kept result db' h replayed
    simp only [createResult, bind_ok, require_ok, transact_ok, fetch_ok, decide_eq_true_eq] at h
    obtain ⟨_, _, ⟨named, rfl⟩, _, _, ⟨known, rfl⟩, again, committed, body, read, later, ⟨read_eq, same⟩,
      h⟩ := h
    subst same
    simp only [createBody, bind_ok, commandByKey_ok] at body
    obtain ⟨_, _, ⟨rfl, rfl⟩, body⟩ := body
    cases key : db.commandByKey c.runId c.idempotencyKey with
    | none =>
      simp only [key, bind_ok, fetch_ok, require_ok, pure_ok] at body
      obtain ⟨_, _, -, _, _, -, _, _, -, _, _, -, _, _, -, rfl, -⟩ := body
      subst read_eq
      cases found : committed.runs.find? c.runId with
      | none => simp [found, raise_ok] at h
      | some run =>
        simp only [found, bind_ok, require_ok] at h
        obtain ⟨_, _, -, h⟩ := h
        cases key' : committed.commandByKey c.runId c.idempotencyKey with
        | none => simp [key', raise_ok] at h
        | some stored =>
          simp only [key', pure_ok] at h
          obtain ⟨rfl, -⟩ := h
          cases replayed
    | some stored =>
      simp only [key, pure_ok] at body
      obtain ⟨rfl, rfl⟩ := body
      subst read_eq
      cases found : db.runs.find? c.runId with
      | none => simp [found, raise_ok] at h
      | some run =>
        simp only [found, key, bind_ok, require_ok, decide_eq_true_eq] at h
        obtain ⟨_, _, ⟨identity, rfl⟩, -⟩ := h
        exact ⟨stored, rfl, kept named known run stored found identity key⟩

end LifecycleCreation

/-- Through both interfaces, a run takes the same steps in the same way exactly when each legal one
    finds the key of its verb unused and no other finds itself recorded; and a creation replays
    for nothing but itself exactly when its key holds nothing else. -/
theorem lifecycles_agree_iff (db : Database) (runId : String) (steps : List RunStep)
    (fresh : Along (bothStep runId) (fun dbs s => (s.journal runId).Fresh dbs.2 ∧ s.key ≠ "")
      (db, db) steps) :
    (Along (bothStep runId) (Alike runId) (db, db) steps ↔
      Along (bothStep runId) (Unhindered runId) (db, db) steps) ∧
    ∀ c : LifecycleCreation, c.ReplaysItself db ↔ c.KeyKept db :=
  ⟨fresh.iff (I := fun dbs => runColumns dbs.1 runId = runColumns dbs.2 runId) rfl
      (fun _ _ same unused => alike_iff same unused.1 unused.2) fun _ _ _ alike => alike.same,
    fun _ => LifecycleCreation.replaysItself_iff⟩

/-- A run that was created. -/
def createdRun : List (Call × Option Nat) :=
  [(.lifecycle (.createResult { runId := "run", createdAt := "t0" }), none)]

/-- The run starts, waits, and starts again. -/
def resumed : List RunStep :=
  [⟨.start, "t1", "one", ""⟩, ⟨.wait, "t2", "two", ""⟩, ⟨.start, "t3", "three", ""⟩]

instance (t : RunTransition) (db : Database) : Decidable (t.Fresh db) :=
  decidable_of_iff (db.commandByKey t.runId t.idempotencyKey = none ∧
      (db.commands.rows.map CommandRow.key).contains (t.runId, t.idempotencyKey) = false ∧
      (db.events.rows.map EventRow.unique).contains (t.runId, t.idempotencyKey ++ ":event") = false)
    ⟨fun fresh => ⟨fresh.1, (by simpa using fresh.2.1), (by simpa using fresh.2.2)⟩,
      fun f => ⟨f.key, (by simpa using f.command), (by simpa using f.event)⟩⟩

instance (t : LifecycleTransition) (db : Database) : Decidable (t.Fresh db) :=
  decidable_of_iff (db.commandByKey t.runId t.idempotencyKey = none ∧
      (db.commands.rows.map CommandRow.key).contains (t.runId, t.cid) = false ∧
      (db.events.rows.map EventRow.unique).contains (t.runId, t.cid ++ ":event") = false)
    ⟨fun fresh => ⟨fresh.1, (by simpa using fresh.2.1), (by simpa using fresh.2.2)⟩,
      fun f => ⟨f.key, (by simpa using f.command), (by simpa using f.event)⟩⟩

theorem unhindered_of {runId : String} {dbs : Database × Database} {s : RunStep}
    (legal : (dbs.1.runs.find? runId).any (fun r =>
      canTransitionRun (.ofValue r.status) (.ofValue s.verb.target)) = true)
    (timed : s.now ≠ "") (fresh : (s.lifecycle runId).Fresh dbs.1) : Unhindered runId dbs s := by
  intro _ run found
  rw [found, Option.any_some] at legal
  rw [if_pos legal]
  exact ⟨timed, fresh⟩

theorem lifecycles_agree_started :
    Along (bothStep "run") (Alike "run")
      (after (fun _ => "") createdRun, after (fun _ => "") createdRun) (resumed.take 2) := by
  refine (lifecycles_agree_iff _ "run" _ ?_).1.mpr ?_
  · exact ⟨by decide +kernel, by decide +kernel, trivial⟩
  · exact ⟨unhindered_of (by decide +kernel) (by decide) (by decide +kernel),
      unhindered_of (by decide +kernel) (by decide) (by decide +kernel), trivial⟩

/-- `RunLifecycle` refuses to start a run a second time, after it has waited. -/
theorem resumption_refused :
    ¬ ∀ (calls : List (Call × Option Nat)) (runId : String) (steps : List RunStep),
      Along (bothStep runId) (fun dbs s => (s.journal runId).Fresh dbs.2 ∧ s.key ≠ "")
          (after (fun _ => "") calls, after (fun _ => "") calls) steps →
        (steps.map RunStep.now).Pairwise (· < ·) →
          Along (bothStep runId) (Alike runId)
            (after (fun _ => "") calls, after (fun _ => "") calls) steps := by
  intro agree
  have fresh : Along (bothStep "run") (fun dbs s => (s.journal "run").Fresh dbs.2 ∧ s.key ≠ "")
      (after (fun _ => "") createdRun, after (fun _ => "") createdRun) resumed :=
    ⟨by decide +kernel, by decide +kernel, by decide +kernel, trivial⟩
  obtain ⟨-, -, third, -⟩ := agree createdRun "run" resumed fresh (by decide)
  have accepted := third.accepted
  rw [LifecycleAccepts, JournalAccepts, returns_iff, returns_iff] at accepted
  have refused := accepted.mpr (by decide +kernel)
  revert refused
  decide +kernel

end Fala.Runs
