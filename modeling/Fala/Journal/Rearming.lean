import Fala.Journal.Consistency
import Fala.Journal.Recording

/-! What the operations on pairs record, and when they return. -/

namespace Fala.Journal
open Durable Program

variable {db db' : Database} {runId key : String}

/-- Nothing is recorded under a key and under the ids that a pair operation makes of it. -/
structure Unused (db : Database) (runId key : String) : Prop where
  free : db.commandByKey runId key = none
  command : (runId, key) ∉ db.commands.rows.map CommandRow.key
  event : (runId, key ++ ":event") ∉ db.events.rows.map EventRow.unique
  processEvent : (runId, key ++ ":process-event") ∉ db.events.rows.map EventRow.unique

theorem eventId_ne_processEventId (key other : String) :
    key ++ ":event" ≠ other ++ ":process-event" := by
  intro same
  have letters := congrArg (fun id => (id.toList.reverse.drop 5).head?) same
  simp at letters

/-- The log of a pair operation: a command under its key, and the two events of it. -/
structure PairLogged (db : Database) (runId key : String) (db' : Database) : Prop where
  unused : Unused db runId key
  commands : ∃ command : CommandRow, command.key = (runId, key) ∧ command.unique = (runId, key) ∧
    db'.commands.rows = db.commands.rows ++ [command]
  events : ∃ first second : EventRow, first.unique = (runId, key ++ ":event") ∧
    second.unique = (runId, key ++ ":process-event") ∧
    db'.events.rows = db.events.rows ++ [first, second]

theorem Logged.pair {command : CommandRow} {first second : EventInput} (consistent : Consistent db)
    (logged : Logged db runId [command] [(key, first), (key, second)] db') (named : key ≠ "")
    (primary : command.key = (runId, key)) (unique : command.unique = (runId, key))
    (one : first.id = key ++ ":event") (two : second.id = key ++ ":process-event") :
    PairLogged db runId key db' := by
  obtain ⟨-, -, stored, told⟩ := logged
  have distinct := db'.commands.primaryDistinct
  have distinct' := db'.commands.uniqueDistinct
  rw [stored, List.map_append, List.nodup_append] at distinct distinct'
  have fresh : (runId, key) ∉ db.commands.rows.map CommandRow.key := fun member =>
    distinct.2.2 _ member command.key (by simp) primary.symm
  have fresh' : (runId, key) ∉ db.commands.rows.map CommandRow.unique := fun member =>
    distinct'.2.2 _ member command.unique (by simp) unique.symm
  have unreferenced (event : EventInput) (sequence : Nat) :
      event.row runId key sequence ∉ db.events.rows := fun member =>
    fresh ((consistent.referenced _ member).resolve_left named)
  generalize written : db'.events.rows = after at told
  cases told with
  | cons here later =>
    cases here with
    | replayed sequence member => exact absurd member (unreferenced _ _)
    | appended free _ =>
      cases later with
      | cons here last =>
        cases last
        cases here with
        | replayed sequence member =>
          rcases List.mem_append.mp member with member | member
          · exact absurd member (unreferenced _ _)
          · have same := congrArg EventRow.id (List.mem_singleton.mp member)
            exact absurd (one.symm.trans (same.symm.trans two)) (eventId_ne_processEventId _ _)
        | appended free' _ =>
          rw [one] at free
          rw [two] at free'
          have written := written.trans (List.append_assoc ..)
          refine ⟨⟨Ledger.find?_none.mpr fresh', fresh, free, fun member => free' ?_⟩,
            ⟨command, primary, unique, stored⟩,
            _, _, ?_, ?_, written⟩
          · rw [List.map_append]
            exact List.mem_append_left _ member
          · exact congrArg (runId, ·) one
          · exact congrArg (runId, ·) two

theorem HomeostatTransition.logged {t : HomeostatTransition} {output error : Text}
    (written : Written db (.act t.runId t.processId (.resolve t output error)) db')
    (consistent : Consistent db) (named : t.key ≠ "") : PairLogged db t.runId t.key db' := by
  cases written with
  | act _ _ _ logged => exact logged.pair consistent named rfl rfl rfl rfl

theorem HomeostatReopen.logged {r : HomeostatReopen} {homeostat : Homeostat}
    (written : Written db (.act r.runId r.processId (.reopen r homeostat)) db')
    (consistent : Consistent db) (named : r.key homeostat ≠ "") :
    PairLogged db r.runId (r.key homeostat) db' := by
  cases written with
  | act _ _ _ logged => exact logged.pair consistent named rfl rfl rfl rfl

theorem PairLogged.unused_iff (logged : PairLogged db runId key db') (other : String) :
    Unused db' runId other ↔ Unused db runId other ∧ other ≠ key := by
  obtain ⟨-, ⟨command, primary, unique, commands⟩, first, second, one, two, events⟩ := logged
  have free : db'.commandByKey runId other = none ↔
      db.commandByKey runId other = none ∧ other ≠ key := by
    refine Ledger.find?_none.trans (.trans ?_ (and_congr_left' Ledger.find?_none.symm))
    rw [commands, List.map_append, List.map_singleton, unique, List.mem_append,
      List.mem_singleton, not_or, Prod.mk.injEq]
    simp
  constructor
  · intro unused
    obtain ⟨before, apart⟩ := free.mp unused.free
    refine ⟨⟨before, fun member => unused.command ?_, fun member => unused.event ?_,
      fun member => unused.processEvent ?_⟩, apart⟩
    · rw [commands, List.map_append]
      exact List.mem_append_left _ member
    · rw [events, List.map_append]
      exact List.mem_append_left _ member
    · rw [events, List.map_append]
      exact List.mem_append_left _ member
  · rintro ⟨unused, apart⟩
    have apart' (ending : String) : other ++ ending ≠ key ++ ending := by simpa using apart
    refine ⟨free.mpr ⟨unused.free, apart⟩, ?_, ?_, ?_⟩
    · rw [commands, List.map_append, List.map_singleton, primary]
      simp [unused.command, apart]
    · rw [events, List.map_append]
      simp [one, two, unused.event, apart', eventId_ne_processEventId]
    · rw [events, List.map_append]
      simp [one, two, unused.processEvent, apart', (eventId_ne_processEventId _ _).symm]

theorem PairLogged.commandByKey (logged : PairLogged db runId key db') {other : String}
    (apart : other ≠ key) : db'.commandByKey runId other = db.commandByKey runId other := by
  obtain ⟨-, ⟨command, -, unique, commands⟩, -⟩ := logged
  refine Ledger.find?_append commands _ (.inr ?_)
  rw [unique]
  simpa using Ne.symm apart

theorem updateHomeostat_met {runId id : String} (guard : Homeostat → Bool)
    (f : Homeostat → Homeostat) (keeps : ∀ h, (f h).key = h.key) {homeostat : Homeostat}
    (found : db.homeostats.find? (runId, id) = some homeostat) (met : guard homeostat = true) :
    (updateHomeostat runId id guard f keeps).eval db =
      (.ok 1, db.setHomeostats (db.homeostats.modify (runId, id) f keeps)) :=
  updateWhere_met (by simp only [found, Option.any_some, met])

theorem pairLog_fresh (db : Database) (command : CommandRow) (first second : EventInput)
    (unused : Unused db command.runId key) (id : command.id = key)
    (unique : command.idempotencyKey = key) (one : first.id = key ++ ":event")
    (two : second.id = key ++ ":process-event") (named : first.eventType ≠ "" ∧ first.createdAt ≠ "")
    (named' : second.eventType ≠ "" ∧ second.createdAt ≠ "")
    (version : first.schemaVersion = 1 ∧ second.schemaVersion = 1) :
    ∃ commands events, commands.rows ≠ db.commands.rows ∧ (insertCommand command >>= fun _ =>
      appendEventInTx command.runId key first >>= fun _ =>
      appendEventInTx command.runId key second >>= fun _ => (pure () : Sql Unit)).eval db =
        (.ok (), (db.setCommands commands).setEvents events) := by
  have ending (tail : String) (nonempty : tail ≠ "") : key ++ tail ≠ "" := by
    simp [nonempty]
  obtain ⟨commands, inserted, stored⟩ := insertCommand_fresh db command
    (by rw [CommandRow.key, id]; exact unused.command) (by rw [unique]; exact unused.free)
  have recorded : (command.runId, key) ∈ commands.rows.map CommandRow.key :=
    List.mem_map.mpr ⟨command, stored ▸ List.mem_append_right _ (List.mem_singleton_self _),
      by rw [CommandRow.key, id]⟩
  obtain ⟨row, events, appended, rows⟩ := appendEventInTx_fresh (db.setCommands commands)
    first ⟨one ▸ ending _ (by decide), named⟩ (by omega) (one ▸ unused.event)
    (.inr recorded)
  have fresh : (command.runId, second.id) ∉ events.rows.map EventRow.unique := by
    rw [rows, List.map_append, two]
    simp only [List.mem_append, not_or]
    refine ⟨unused.processEvent, fun member => ?_⟩
    have same := congrArg Prod.snd (List.mem_singleton.mp member)
    exact eventId_ne_processEventId key key (one.symm.trans same.symm)
  obtain ⟨row', events', appended', -⟩ := appendEventInTx_fresh
    ((db.setCommands commands).setEvents events) second
    ⟨two ▸ ending _ (by decide), named'⟩ (by omega) fresh (.inr recorded)
  refine ⟨commands, events', ?_, (ok_bind inserted).trans <| (ok_bind appended).trans <|
    (ok_bind appended').trans rfl⟩
  simp [stored]

/-- A homeostat transition of which nothing is recorded goes through on an open homeostat and
    an unleased waiting row. -/
theorem transitionHomeostatBody_fresh {t : HomeostatTransition} (output error : Text)
    {homeostat : Homeostat} {process : ProcessRow} (unused : Unused db t.runId t.key)
    (timed : t.at_ ≠ "") (stored : db.homeostats.find? (t.runId, t.homeostatId) = some homeostat)
    (stands : homeostat.status = "open")
    (found : db.processes.find? (t.runId, t.processId) = some process)
    (waiting : process.status = .waiting ∧ process.leaseOwner = "" ∧ process.leaseExpiresAt = "") :
    ∃ db', (transitionHomeostatBody t output error).eval db = (.ok (), db') ∧ db' ≠ db := by
  let moved := db.setHomeostats
    (db.homeostats.modify (t.runId, t.homeostatId) (t.updateHomeostat output error) fun _ => rfl)
  let updated := moved.setProcesses
    (moved.processes.modify (t.runId, t.processId) (t.update output error) fun _ => rfl)
  have found' : moved.processes.find? (t.runId, t.processId) = some process := found
  have typed (kind : String) (status : String) (nonempty : kind ≠ "") : kind ++ status ≠ "" := by
    simp [nonempty]
  obtain ⟨commands, events, apart, logged⟩ := pairLog_fresh updated
    (plainCommand t.runId t.key t.commandType t.actor (t.payload output error) t.at_)
    (t.event (t.key ++ ":event") ("homeostat." ++ t.homeostatStatus)
      (t.payload output error) process)
    (t.event (t.key ++ ":process-event") ("process." ++ t.processStatus.value)
      (t.payload output error) process)
    ⟨unused.free, unused.command, unused.event, unused.processEvent⟩ rfl rfl rfl rfl
    ⟨typed _ _ (by decide), timed⟩ ⟨typed _ _ (by decide), timed⟩ ⟨rfl, rfl⟩
  have looked : (commandByKey t.runId t.key).eval db = (.ok none, db) :=
    commandByKey_ok.mpr ⟨unused.free, rfl⟩
  have read : (fetch fun db => db.homeostats.find? (t.runId, t.homeostatId) : Sql _).eval db =
      (.ok (some homeostat), db) := fetch_ok.mpr ⟨stored, rfl⟩
  refine ⟨_, (ok_bind looked).trans <| (ok_bind read).trans <|
    (ok_bind (require_met (decide_eq_true stands))).trans <|
    (ok_bind (readProcess_ok.mpr ⟨found, rfl⟩)).trans <|
    (ok_bind (require_met (decide_eq_true waiting))).trans <|
    (ok_bind (updateHomeostat_met (fun h => h.status = "open") (t.updateHomeostat output error)
      (fun _ => rfl) stored (decide_eq_true stands))).trans <|
    (ok_bind (require_met (decide_eq_true rfl))).trans <|
    (ok_bind (updateProcess_met (fun r => r.status = .waiting ∧ r.leaseOwner = "")
      (t.update output error) (fun _ => rfl) found'
      (decide_eq_true ⟨waiting.1, waiting.2.1⟩))).trans <|
    (ok_bind (require_met (decide_eq_true rfl))).trans logged, fun same => apart ?_⟩
  exact congrArg (fun db => db.commands.rows) same

theorem transitionHomeostatProcess_fresh {t : HomeostatTransition} {output error : Text}
    {homeostat : Homeostat} {process : ProcessRow}
    (known : (requireRun t.runId).eval db = (.ok (), db))
    (closes : Closes t.homeostatStatus t.processStatus)
    (named : t.homeostatId ≠ "" ∧ t.processId ≠ "" ∧ t.actor ≠ "" ∧ t.at_ ≠ "")
    (printed : t.outputJson.canonical = some output)
    (printed' : t.errorJson.canonical = some error) (unused : Unused db t.runId t.key)
    (stored : db.homeostats.find? (t.runId, t.homeostatId) = some homeostat)
    (stands : homeostat.status = "open")
    (found : db.processes.find? (t.runId, t.processId) = some process)
    (waiting : process.status = .waiting ∧ process.leaseOwner = "" ∧ process.leaseExpiresAt = "") :
    ∃ row db', (transitionHomeostatProcess t).eval db = (.ok row, db') ∧ db' ≠ db := by
  have closing : t.homeostatStatus = "completed" ∨ t.homeostatStatus = "cancelled" ∨
      t.homeostatStatus = "expired" := closes.imp And.left (Or.imp And.left And.left)
  have target : t.processStatus = .succeeded ∨ t.processStatus = .cancelled ∨
      t.processStatus = .timedOut := closes.imp And.right (Or.imp And.right And.right)
  have agree : t.statusesAgree = true := by
    unfold HomeostatTransition.statusesAgree
    rcases closes with ⟨same, same'⟩ | ⟨same, same'⟩ | ⟨same, same'⟩ <;>
      rw [same, same'] <;> decide
  obtain ⟨⟨nonempty, here⟩, -⟩ := requireRun_ok.mp known
  obtain ⟨db', body, apart⟩ := transitionHomeostatBody_fresh output error
    unused named.2.2.2 stored stands found waiting
  obtain ⟨-, _, old, -, -, -, -, moved⟩ :=
    (transitionHomeostatBody_ok here named.2.2.2 target body).resolve_left apart
  refine ⟨t.update output error old, db', ?_, apart⟩
  exact (ok_bind known).trans <| (ok_bind (require_met (decide_eq_true closing))).trans <|
    (ok_bind (require_met (decide_eq_true target))).trans <| (ok_bind (require_met agree)).trans <|
    (ok_bind (require_met (decide_eq_true named))).trans <|
    (ok_bind (ofExcept_ok.mpr ⟨canonicalJsonField_ok.mpr printed, rfl⟩)).trans <|
    (ok_bind (ofExcept_ok.mpr ⟨canonicalJsonField_ok.mpr printed', rfl⟩)).trans <|
    (ok_bind (transact_ok.mpr body)).trans <| getProcess_ok.mpr
      ⟨⟨nonempty, moved.runs ▸ here⟩, (moved.processes _).trans (if_pos rfl), rfl⟩

theorem reopenBody_fresh {r : HomeostatReopen} {homeostat : Homeostat} {process : ProcessRow}
    (unused : Unused db r.runId (r.key homeostat)) (timed : r.at_ ≠ "")
    (waiting : (requireRunWaiting r).eval db = (.ok (), db))
    (stored : db.homeostats.find? (r.runId, r.homeostatId) = some homeostat)
    (closed : homeostat.status = "completed" ∨ homeostat.status = "cancelled" ∨
      homeostat.status = "expired") (armed : homeostat.attempt < homeostat.maxAttempts)
    (found : db.processes.find? (r.runId, r.processId) = some process)
    (terminal : process.status = .succeeded ∨ process.status = .cancelled ∨
      process.status = .timedOut) (left : process.attempt < process.maxAttempts) :
    ∃ db', (reopenBody r).eval db = (.ok (), db') ∧ db' ≠ db := by
  let moved := db.setHomeostats
    (db.homeostats.modify (r.runId, r.homeostatId) r.updateHomeostat fun _ => rfl)
  let updated := moved.setProcesses
    (moved.processes.modify (r.runId, r.processId) r.update fun _ => rfl)
  have found' : moved.processes.find? (r.runId, r.processId) = some process := found
  let key := r.key homeostat
  obtain ⟨commands, events, apart, logged⟩ := pairLog_fresh updated
    (plainCommand r.runId key "homeostat.reopen" r.actor r.payload r.at_)
    (r.event (key ++ ":event") "homeostat.reopened" process)
    (r.event (key ++ ":process-event") "process.waiting" process)
    ⟨unused.free, unused.command, unused.event, unused.processEvent⟩ rfl rfl rfl rfl
    ⟨by simp [HomeostatReopen.event], timed⟩ ⟨by simp [HomeostatReopen.event], timed⟩ ⟨rfl, rfl⟩
  have read : (fetch fun db => db.homeostats.find? (r.runId, r.homeostatId) : Sql _).eval db =
      (.ok (some homeostat), db) := fetch_ok.mpr ⟨stored, rfl⟩
  have looked : (commandByKey r.runId key).eval db = (.ok none, db) :=
    commandByKey_ok.mpr ⟨unused.free, rfl⟩
  refine ⟨_, (ok_bind waiting).trans <| (ok_bind read).trans <| (ok_bind looked).trans <|
    (ok_bind (require_met (decide_eq_true closed))).trans <|
    (ok_bind (require_met (decide_eq_true armed))).trans <|
    (ok_bind (readProcess_ok.mpr ⟨found, rfl⟩)).trans <|
    (ok_bind (require_met (decide_eq_true terminal))).trans <|
    (ok_bind (require_met (decide_eq_true left))).trans <|
    (ok_bind (updateHomeostat_met
      (fun h => h.status = homeostat.status ∧ h.attempt < h.maxAttempts) r.updateHomeostat
      (fun _ => rfl) stored (decide_eq_true ⟨rfl, armed⟩))).trans <|
    (ok_bind (require_met (decide_eq_true rfl))).trans <|
    (ok_bind (updateProcess_met
      (fun p => p.status = process.status ∧ p.attempt < p.maxAttempts) r.update (fun _ => rfl)
      found' (decide_eq_true ⟨rfl, left⟩))).trans <|
    (ok_bind (require_met (decide_eq_true rfl))).trans logged, fun same => apart ?_⟩
  exact congrArg (fun db => db.commands.rows) same

theorem reopenHomeostatProcess_fresh {r : HomeostatReopen} {homeostat : Homeostat}
    {process : ProcessRow} (known : (requireRun r.runId).eval db = (.ok (), db))
    (named : r.homeostatId ≠ "" ∧ r.processId ≠ "" ∧ r.actor ≠ "" ∧ r.at_ ≠ "")
    (unused : Unused db r.runId (r.key homeostat))
    (waiting : (requireRunWaiting r).eval db = (.ok (), db))
    (stored : db.homeostats.find? (r.runId, r.homeostatId) = some homeostat)
    (closed : homeostat.status = "completed" ∨ homeostat.status = "cancelled" ∨
      homeostat.status = "expired") (armed : homeostat.attempt < homeostat.maxAttempts)
    (found : db.processes.find? (r.runId, r.processId) = some process)
    (terminal : process.status = .succeeded ∨ process.status = .cancelled ∨
      process.status = .timedOut) (left : process.attempt < process.maxAttempts) :
    ∃ row db', (reopenHomeostatProcess r).eval db = (.ok row, db') ∧ db' ≠ db := by
  obtain ⟨⟨nonempty, here⟩, -⟩ := requireRun_ok.mp known
  obtain ⟨db', body, apart⟩ := reopenBody_fresh unused named.2.2.2 waiting stored closed armed found
    terminal left
  obtain ⟨_, old, -, -, -, -, -, moved⟩ := (reopenBody_ok here body).resolve_left apart
  refine ⟨r.update old, db', ?_, apart⟩
  exact (ok_bind known).trans <| (ok_bind (require_met (decide_eq_true named))).trans <|
    (ok_bind (transact_ok.mpr body)).trans <| getProcess_ok.mpr
      ⟨⟨nonempty, moved.runs ▸ here⟩, (moved.processes _).trans (if_pos rfl), rfl⟩

/-- The reopening is the one that is recorded under its key. -/
def HomeostatReopen.Replays (r : HomeostatReopen) (homeostat : Homeostat) (db : Database) : Prop :=
  ∃ prior, db.commandByKey r.runId (r.key homeostat) = some prior ∧
    prior.commandType = "homeostat.reopen" ∧ prior.payload = r.payload ∧ prior.createdAt = r.at_

theorem reopenBody_spent {r : HomeostatReopen} {homeostat : Homeostat} {u : Unit}
    (stored : db.homeostats.find? (r.runId, r.homeostatId) = some homeostat)
    (spent : homeostat.maxAttempts ≤ homeostat.attempt)
    (h : (reopenBody r).eval db = (.ok u, db')) :
    (requireRunWaiting r).eval db = (.ok (), db) ∧ r.Replays homeostat db := by
  simp only [reopenBody, bind_ok, fetch_ok] at h
  obtain ⟨_, _, waiting, _, _, ⟨rfl, rfl⟩, h⟩ := h
  obtain rfl := ((requireRunWaiting_reads r).eval db).symm.trans (congrArg Prod.snd waiting)
  refine ⟨waiting, ?_⟩
  simp only [stored, bind_ok, commandByKey_ok] at h
  obtain ⟨_, _, ⟨rfl, rfl⟩, h⟩ := h
  cases found : db.commandByKey r.runId (r.key homeostat) with
  | some prior =>
    simp only [found, bind_ok, require_ok, decide_eq_true_eq] at h
    obtain ⟨_, _, ⟨same, -⟩, -⟩ := h
    exact ⟨prior, found, same⟩
  | none =>
    simp only [found, bind_ok, require_ok, decide_eq_true_eq] at h
    obtain ⟨_, _, -, _, _, ⟨left, -⟩, -⟩ := h
    exact absurd left (Int.not_lt.mpr spent)

theorem reopenBody_replays {r : HomeostatReopen} {homeostat : Homeostat} {process : ProcessRow}
    (known : r.runId ≠ "" ∧ (db.runs.find? r.runId).isSome = true)
    (waiting : (requireRunWaiting r).eval db = (.ok (), db))
    (stored : db.homeostats.find? (r.runId, r.homeostatId) = some homeostat)
    (found : db.processes.find? (r.runId, r.processId) = some process)
    (replays : r.Replays homeostat db) : (reopenBody r).eval db = (.ok (), db) := by
  obtain ⟨prior, recorded, same⟩ := replays
  have read : (fetch fun db => db.homeostats.find? (r.runId, r.homeostatId) : Sql _).eval db =
      (.ok (some homeostat), db) := fetch_ok.mpr ⟨stored, rfl⟩
  have looked : (commandByKey r.runId (r.key homeostat)).eval db = (.ok (some prior), db) :=
    commandByKey_ok.mpr ⟨recorded, rfl⟩
  exact (ok_bind waiting).trans <| (ok_bind read).trans <| (ok_bind looked).trans <|
    (ok_bind (require_met (decide_eq_true same))).trans <|
    (ok_bind (getProcess_ok.mpr ⟨known, found, rfl⟩)).trans rfl

theorem reopenHomeostatProcess_restores {r : HomeostatReopen} {process : ProcessRow}
    (found : db.processes.find? (r.runId, r.processId) = some process) :
    (reopenHomeostatProcess r).Restores db := by
  refine .afterRead (requireRun_reads _) fun _ known => .require fun _ =>
    .followed (.transact _ _) fun _ db' returned => ?_
  obtain ⟨known, -⟩ := requireRun_ok.mp known
  refine returns_iff.mp ?_
  rcases reopenBody_ok known.2 (transact_ok.mp returned) with rfl | ⟨_, old, -, -, -, -, -, moved⟩
  · exact ⟨process, _, getProcess_ok.mpr ⟨known, found, rfl⟩⟩
  · exact ⟨r.update old, _, getProcess_ok.mpr
      ⟨⟨known.1, moved.runs ▸ known.2⟩, (moved.processes _).trans (if_pos rfl), rfl⟩⟩

theorem reopenHomeostatProcess_spent {r : HomeostatReopen} {homeostat : Homeostat}
    {process : ProcessRow} (known : (requireRun r.runId).eval db = (.ok (), db))
    (named : r.homeostatId ≠ "" ∧ r.processId ≠ "" ∧ r.actor ≠ "" ∧ r.at_ ≠ "")
    (stored : db.homeostats.find? (r.runId, r.homeostatId) = some homeostat)
    (spent : homeostat.maxAttempts ≤ homeostat.attempt)
    (found : db.processes.find? (r.runId, r.processId) = some process) :
    ((reopenHomeostatProcess r).eval db).1.isOk = true ↔
      (requireRunWaiting r).eval db = (.ok (), db) ∧ r.Replays homeostat db := by
  rw [← returns_iff]
  constructor
  · rintro ⟨row, db', returned⟩
    simp only [reopenHomeostatProcess, bind_ok, transact_ok] at returned
    obtain ⟨_, _, here, _, _, args, _, _, body, -⟩ := returned
    obtain ⟨-, rfl⟩ := requireRun_ok.mp here
    obtain ⟨-, rfl⟩ := require_ok.mp args
    exact reopenBody_spent stored spent body
  · rintro ⟨waiting, replays⟩
    have here := (requireRun_ok.mp known).1
    exact ⟨process, db, (ok_bind known).trans <|
      (ok_bind (require_met (decide_eq_true named))).trans <|
      (ok_bind (transact_ok.mpr (reopenBody_replays here waiting stored found replays))).trans <|
      getProcess_ok.mpr ⟨here, found, rfl⟩⟩

end Fala.Journal
