import Fala.Domain.Retained
import Fala.Engine.Actions
import Fala.Engine.Rooted

/-! A journal refers only to what it stores, also while runs are deleted from it. -/

namespace Fala
open Durable Program Journal Domain Bridge

/-! The log. -/

namespace Journal

/-- The commands of a write are of its run. -/
def Write.Own (db : Database) (w : Write) : Prop := ∀ c ∈ (w.log db).2.1, c.runId = (w.log db).1

theorem Write.own_act {db : Database} {runId processId : String} {action : RowAction}
    (own : ∀ old : ProcessRow, old.runId = runId → ∀ c ∈ action.commands old, c.runId = runId) :
    Write.Own db (.act runId processId action) := by
  intro c member
  cases found : db.processes.find? (runId, processId) with
  | none => simp [Write.log, found] at member
  | some old =>
    have here : old.runId = runId := congrArg Prod.fst (Table.find?_key found)
    simp only [Write.log, found] at member ⊢
    exact own old here c member

theorem own_one {runId : String} {row : CommandRow} (own : row.runId = runId) : ∀ c ∈ [row], c.runId = runId := by
  intro c member
  rw [List.mem_singleton.mp member]
  exact own

theorem ProcessCall.makes_own {call : ProcessCall} {db : Database} {w : Write} (makes : call.Makes w) : w.Own db := by
  cases call with
  | createRun r =>
    cases makes
    exact own_one rfl
  | scheduleProcess s =>
    obtain ⟨_, _, _, _, _, same⟩ := makes
    cases same
    exact own_one rfl
  | claimProcess runId processId c =>
    cases makes
    exact Write.own_act fun old here => own_one here
  | claimNextReady =>
    obtain ⟨_, _, _, same⟩ | ⟨_, _, _, same⟩ := makes <;> cases same
    · exact Write.own_act fun old here => own_one here
    · exact Write.own_act fun old here => own_one here
  | transitionProcess t =>
    obtain ⟨_, _, _, _, same⟩ := makes
    cases same
    exact Write.own_act fun _ _ => own_one rfl
  | advanceCorrelationReady =>
    obtain ⟨_, _, _, _, _, same⟩ := makes
    cases same
    exact Write.own_act fun _ _ => own_one rfl
  | applyCorrelationChildren =>
    obtain ⟨_, _, same⟩ := makes
    cases same
    exact Write.own_act fun _ _ => own_one rfl
  | parkHomeostatProcess p =>
    obtain ⟨_, _, same⟩ := makes
    cases same
    refine Write.own_act fun _ _ c member => ?_
    rcases List.mem_cons.mp member with rfl | member
    · rfl
    · exact own_one rfl c member
  | transitionHomeostatProcess =>
    obtain ⟨_, _, _, same⟩ := makes
    cases same
    exact Write.own_act fun _ _ => own_one rfl
  | reopenHomeostatProcess =>
    obtain ⟨_, same⟩ := makes
    cases same
    exact Write.own_act fun _ _ => own_one rfl

/-- A command that a caller supplies has to be of the run that the call is about. -/
def RecordCall.Supplied : RecordCall → Prop
  | .scheduleProcessWithCommand process command _ => command.runId = process.runId
  | .transitionProcessWithCommand t => t.command.runId = t.runId
  | _ => True

theorem RecordCall.makes_own {call : RecordCall} {db : Database} {w : Write} (makes : call.Makes w)
    (supplied : call.Supplied) : w.Own db := by
  cases call with
  | appendCommand c =>
    cases makes
    exact own_one rfl
  | submitCommand c events =>
    cases makes
    exact own_one rfl
  | recordViolation v =>
    cases makes
    exact own_one rfl
  | appendEvent =>
    cases makes
    exact fun _ member => nomatch member
  | transitionRunStatus t =>
    cases makes
    exact own_one rfl
  | scheduleProcessWithCommand process command events =>
    obtain ⟨_, _, _, _, _, same⟩ := makes
    cases same
    exact own_one supplied
  | transitionProcessWithCommand t =>
    obtain ⟨_, _, _, _, same⟩ := makes
    cases same
    exact Write.own_act fun _ _ => own_one supplied

theorem RecordCall.supplied {call : RecordCall} {db : Database} {faults : Option Nat}
    (changed : (call.program.run ⟨db, faults⟩).2.store ≠ db) : call.Supplied := by
  cases call with
  | scheduleProcessWithCommand process command events =>
    have settled : (Journal.scheduleProcessWithCommand process command events).Settles db fun _ =>
        command.runId = process.runId :=
      .require fun same => .require fun _ => .require fun _ => .transact fun _ _ _ => of_decide_eq_true same
    rcases settled.void faults with same | ⟨-, same⟩
    · exact absurd same changed
    · exact same
  | transitionProcessWithCommand t =>
    have settled : (Journal.transitionProcessWithCommand t).Settles db fun _ => t.command.runId = t.runId :=
      .require fun same => .require fun _ => .require fun _ =>
        .thenRead (.transact fun _ _ _ => of_decide_eq_true same) fun _ => .bind (getProcess_reads _ _) fun _ => .pure _
    rcases settled.void faults with same | ⟨-, same⟩
    · exact absurd same changed
    · exact same
  | _ => exact trivial

end Journal

theorem LifecycleCall.makes_own {call : LifecycleCall} {db : Database} {w : Write} (makes : call.Makes w) :
    w.Own db := by
  cases call with
  | createResult c =>
    cases makes
    exact own_one rfl
  | transition t =>
    cases makes
    exact own_one rfl

theorem submits_own {c : CommandAppend} {events : List EventInput} {db : Database} {w : Write}
    (submits : Submits c events w) : w.Own db := by
  cases submits
  exact own_one rfl

theorem unrecorded_own {db : Database} {w : Write} (unrecorded : Unrecorded w) : w.Own db := by
  obtain ⟨_, same⟩ := unrecorded
  cases same
  exact fun _ member => nomatch member

theorem StoreCall.makes_own {call : StoreCall} {db : Database} {w : Write} (makes : call.Makes w) : w.Own db := by
  cases call with
  | recordReaction row c =>
    have ⟨_, submits⟩ := makes
    exact submits_own submits
  | acceptImpulse a =>
    cases makes
    exact own_one rfl
  | registerImpulseType | recordImpulseRelation | recordAssociation | saveHomeostat | transitionHomeostat
  | saveProjection => exact submits_own makes
  | _ => exact unrecorded_own makes

theorem Bridge.BridgeRecord.Stores.own {r : BridgeRecord} {db : Database} {w : Write} (stores : r.Stores w) :
    w.Own db := by
  obtain ⟨_, _, same, rfl | rfl, -⟩ := stores <;> cases same
  · exact fun _ member => nomatch member
  · exact own_one rfl

theorem BridgeCall.makes_own {call : BridgeCall} {db : Database} {w : Write} (makes : call.Makes w) : w.Own db := by
  cases call with
  | enqueueBridgeDelivery e =>
    obtain ⟨_, _, same⟩ := makes
    cases same
    exact own_one rfl
  | importInboxDelivery | importBridgeDelivery => exact Bridge.BridgeRecord.Stores.own makes
  | putDelivery => exact unrecorded_own makes
  | _ =>
    obtain ⟨_, _, stores⟩ := makes
    exact stores.own

theorem Call.makes_own {digest : Json → String} {call : Call} {db : Database} {faults : Option Nat}
    (changed : step digest db (call, faults) ≠ db) {middle : Database} {w : Write} (makes : call.Makes w) :
    w.Own middle := by
  cases call with
  | process c => exact c.makes_own makes
  | record c => exact c.makes_own makes (RecordCall.supplied changed)
  | lifecycle c => exact c.makes_own makes
  | store c => exact c.makes_own makes
  | bridge c => exact c.makes_own makes

/-- The commands of the log lie in stored runs. -/
def CommandsHoused (db : Database) : Prop := ∀ c ∈ db.commands.rows, (db.runs.find? c.runId).isSome = true

theorem Journal.Written.commandsHoused {db db' : Database} {w : Write} (written : Written db w db') (own : w.Own db)
    (housed : CommandsHoused db) : CommandsHoused db' := by
  have logged := written.logged
  intro c member
  rw [logged.stored, List.mem_append] at member
  rcases member with member | member
  · exact logged.kept _ (housed c member)
  · rw [own c member]
    exact logged.known

/-! The processes. -/

/-- Processes that are told to belong to an impulse belong to a known one. -/
def ProcessesLinked (known : String × String → Prop) (db : Database) : Prop :=
  ∀ p ∈ db.processes.rows, p.impulseId = "" ∨ known (p.runId, p.impulseId)

theorem Journal.RowAction.impulseId_apply (old : ProcessRow) (action : RowAction) :
    (action.apply old).impulseId = old.impulseId := by
  cases action <;> rfl

theorem Journal.Written.processesLinked {db db' : Database} {w : Write} {known : String × String → Prop}
    (written : Written db w db')
    (scheduled : ∀ row commands events, w = .schedule row commands events →
      row.impulseId = "" ∨ known (row.runId, row.impulseId))
    (linked : ProcessesLinked known db) : ProcessesLinked known db' := by
  intro p member
  have found := Table.find?_some.mpr ⟨member, rfl⟩
  cases written with
  | record processes => exact linked p (processes ▸ member)
  | schedule inserted =>
    rw [(Table.insert?_some.mp inserted).2, List.mem_append, List.mem_singleton] at member
    rcases member with member | rfl
    · exact linked p member
    · exact scheduled _ _ _ rfl
  | @act runId processId action old _ stored _ processes =>
    rw [processes] at found
    split at found
    · cases found
      have here := linked old (Table.find?_some.mp stored).1
      have run : (action.apply old).runId = old.runId := congrArg Prod.fst (RowAction.key_apply old action)
      rw [RowAction.impulseId_apply, run]
      exact here
    · exact linked p (Table.find?_some.mp found).1

theorem scheduleProcess_linked (s : ProcessSchedule) (db : Database) :
    (scheduleProcess s).Settles db fun db' =>
      db' = db ∨ s.impulseId = "" ∨ ImpulseStored db s.runId s.impulseId := by
  refine .afterRead (requireRun_reads _) fun _ _ => .require fun _ =>
    .thenRead (.transact fun _ db' h => ?_) fun _ => getProcess_reads _ _
  simp only [scheduleBody, bind_ok, commandByKey_ok] at h
  obtain ⟨_, _, ⟨rfl, rfl⟩, h⟩ := h
  cases found : db.commandByKey s.runId s.key with
  | some prior =>
    simp only [found, bind_ok, require_ok, pure_ok] at h
    obtain ⟨_, _, ⟨-, rfl⟩, -, rfl⟩ := h
    exact .inl rfl
  | none =>
    simp only [found, bind_ok, ofExcept_ok, fetch_ok] at h
    obtain ⟨input, _, ⟨-, rfl⟩, metadata, _, ⟨-, rfl⟩, schema, _, ⟨-, rfl⟩, _, _, ⟨rfl, rfl⟩, h⟩ := h
    cases stored : db.processes.find? (s.runId, s.processId) with
    | some existing => simp [stored, bind_ok, require_ok, raise_ok] at h
    | none =>
      simp only [stored, bind_ok, insertProcess_ok] at h
      obtain ⟨_, _, ⟨referenced, -⟩, -⟩ := h
      exact .inr referenced

theorem scheduleProcessWithCommand_linked (process : ProcessRow) (command : CommandRow) (events : List EventInput)
    (db : Database) : (scheduleProcessWithCommand process command events).Settles db fun db' =>
      db' = db ∨ process.impulseId = "" ∨ ImpulseStored db process.runId process.impulseId := by
  refine .require fun _ => .require fun _ => .require fun _ => .transact fun _ db' h => ?_
  simp only [bind_ok, commandByKey_ok] at h
  obtain ⟨_, _, ⟨rfl, rfl⟩, h⟩ := h
  cases found : db.commandByKey command.runId command.idempotencyKey with
  | some stored =>
    simp only [found, pure_ok] at h
    exact .inl h.2.symm
  | none =>
    simp only [found, bind_ok, require_ok, requireRun_ok, ofExcept_ok, fetch_ok, insertProcess_ok] at h
    obtain ⟨_, _, ⟨-, rfl⟩, _, _, ⟨-, rfl⟩, _, _, ⟨-, rfl⟩, _, _, ⟨-, rfl⟩, _, _, ⟨-, rfl⟩, _, _, ⟨-, rfl⟩, _, _,
      ⟨-, rfl⟩, _, _, ⟨-, rfl⟩, _, _, ⟨referenced, -⟩, -⟩ := h
    exact .inr referenced

theorem Call.schedules_linked {digest : Json → String} {call : Call} {db : Database} {faults : Option Nat}
    (changed : step digest db (call, faults) ≠ db) {row : ProcessRow} {commands : List CommandRow}
    {events : List (String × EventInput)} (makes : call.Makes (.schedule row commands events)) :
    row.impulseId = "" ∨ ImpulseStored db row.runId row.impulseId := by
  cases call with
  | process c =>
    cases c with
    | scheduleProcess s =>
      have ⟨_, _, _, _, _, same⟩ := makes
      cases same
      rcases (scheduleProcess_linked s db).void faults with unchanged | ⟨-, unchanged | linked⟩
      · exact absurd unchanged changed
      · exact absurd unchanged changed
      · exact linked
    | createRun => cases makes
    | claimProcess => cases makes
    | claimNextReady => obtain ⟨_, _, -, same⟩ | ⟨_, _, -, same⟩ := makes <;> cases same
    | transitionProcess => obtain ⟨_, _, -, -, same⟩ := makes; cases same
    | advanceCorrelationReady => obtain ⟨_, _, _, -, -, same⟩ := makes; cases same
    | applyCorrelationChildren => obtain ⟨_, -, same⟩ := makes; cases same
    | parkHomeostatProcess => obtain ⟨_, _, same⟩ := makes; cases same
    | transitionHomeostatProcess => obtain ⟨_, _, -, same⟩ := makes; cases same
    | reopenHomeostatProcess => obtain ⟨_, same⟩ := makes; cases same
  | record c =>
    cases c with
    | scheduleProcessWithCommand process command events =>
      have ⟨_, _, _, _, _, same⟩ := makes
      cases same
      rcases (scheduleProcessWithCommand_linked process command events db).void faults with
        unchanged | ⟨-, unchanged | linked⟩
      · exact absurd unchanged changed
      · exact absurd unchanged changed
      · exact linked
    | transitionProcessWithCommand => obtain ⟨_, _, -, -, same⟩ := makes; cases same
    | _ => cases makes
  | lifecycle c => cases c <;> cases makes
  | store c => obtain ⟨_, _, _, same⟩ := c.makes_record makes; cases same
  | bridge c => obtain ⟨_, _, _, same⟩ := c.makes_record makes; cases same

/-! The whole store. -/

/-- Every row of every table lies in a stored run and names what is stored in that run. -/
structure Referential (db : Database) : Prop where
  log : Consistent db
  commands : CommandsHoused db
  processes : ProcessesLinked (fun k => ImpulseStored db k.1 k.2) db
  rooted : Rooted (fun _ => False) db

theorem Referential.empty : Referential .empty where
  log := .empty
  commands := List.forall_mem_nil _
  processes := List.forall_mem_nil _
  rooted := .empty

theorem step_referential (digest : Json → String) {db : Database} (held : Referential db) (call : Call × Option Nat) :
    Referential (step digest db call) := by
  obtain ⟨call, faults⟩ := call
  by_cases same : step digest db (call, faults) = db
  · rw [same]
    exact held
  · have does := step_does digest held.log (call, faults)
    -- the impulses that were stored before the call are still stored after it
    have rooted : Rooted (fun k => ImpulseStored db k.1 k.2) (step digest db (call, faults)) :=
      Call.rooted digest call ⟨db, faults⟩ { held.rooted with marked := fun _ => id }
    have processes : ProcessesLinked (fun k => ImpulseStored db k.1 k.2) (step digest db (call, faults)) :=
      does.induct held.processes fun {_ _ w} makes written linked => written.processesLinked
        (fun row commands events scheduled => Call.schedules_linked same (scheduled ▸ makes)) linked
    exact {
      log := step_consistent digest held.log (call, faults)
      commands := does.induct held.commands fun makes written housed =>
        written.commandsHoused (Call.makes_own same makes) housed
      processes := fun p member => (processes p member).imp_right (rooted.marked _)
      rooted := { rooted with marked := nofun } }

/-! The deletion of runs. -/

namespace Domain.Deleted

variable {runId : String} {terminalOnly : Bool} {a a' : Archive} {counts : RunDeleteCounts}
  (deleted : Deleted runId terminalOnly a a' counts)
include deleted

theorem run_kept {id : String} (apart : id ≠ runId) (stored : (a.db.runs.find? id).isSome = true) :
    (a'.db.runs.find? id).isSome = true := by
  have ⟨run, found⟩ := Option.isSome_iff_exists.mp stored
  have ⟨member, key⟩ := Table.find?_some.mp found
  have other : run.id ≠ runId := key ▸ apart
  have kept : run ∈ a'.db.runs.rows := (deleted.rows .runs run).mpr ⟨member, other⟩
  exact Option.isSome_iff_exists.mpr ⟨run, Table.find?_some.mpr ⟨kept, key⟩⟩

theorem known_kept {id : String} (apart : id ≠ runId) (known : RunKnown a.db id) : RunKnown a'.db id :=
  ⟨known.1, deleted.run_kept apart known.2⟩

theorem impulse_kept {run id : String} (apart : run ≠ runId) (stored : ImpulseStored a.db run id) :
    ImpulseStored a'.db run id := by
  have ⟨row, found⟩ := Option.isSome_iff_exists.mp stored
  have ⟨member, key⟩ := Table.find?_some.mp found
  have here : row.runId = run := congrArg Prod.fst key
  have other : row.runId ≠ runId := here.symm ▸ apart
  have kept : row ∈ a'.db.impulses.rows := (deleted.rows .impulses row).mpr ⟨member, other⟩
  exact Option.isSome_iff_exists.mpr ⟨row, Table.find?_some.mpr ⟨kept, key⟩⟩

theorem consistent (held : Consistent a.db) : Consistent a'.db where
  numbered := by
    intro id
    by_cases here : id = runId
    · have gone : streamRows EventRow.runId a'.db.events.rows id = [] := here ▸ deleted.gone .events
      rw [gone]
      rfl
    · have kept : streamRows EventRow.runId a'.db.events.rows id = streamRows EventRow.runId a.db.events.rows id :=
        deleted.kept .events id here
      rw [kept]
      exact held.numbered id
  housed := by
    intro e member
    have ⟨stored, apart⟩ := (deleted.rows .events e).mp member
    exact deleted.run_kept apart (held.housed e stored)
  manned := by
    intro k p found
    have ⟨member, key⟩ := Table.find?_some.mp found
    have ⟨stored, apart⟩ := (deleted.rows .processes p).mp member
    have here : p.runId = k.1 := congrArg Prod.fst key
    exact deleted.run_kept (here ▸ apart) (held.manned k p (Table.find?_some.mpr ⟨stored, key⟩))
  referenced := by
    intro e member
    have ⟨stored, apart⟩ := (deleted.rows .events e).mp member
    refine (held.referenced e stored).imp_right fun named => ?_
    have ⟨c, held, key⟩ := List.mem_map.mp named
    have here : c.runId = e.runId := congrArg Prod.fst key
    have other : c.runId ≠ runId := here.symm ▸ apart
    exact List.mem_map.mpr ⟨c, (deleted.rows .commands c).mpr ⟨held, other⟩, key⟩

theorem rooted (held : Rooted (fun _ => False) a.db) : Rooted (fun _ => False) a'.db where
  impulses row member := by
    have ⟨stored, apart⟩ := (deleted.rows .impulses row).mp member
    exact deleted.known_kept apart (held.impulses row stored)
  impulseTypes row member := by
    have ⟨stored, apart⟩ := (deleted.rows .impulseTypes row).mp member
    exact deleted.known_kept apart (held.impulseTypes row stored)
  impulseRelations row member := by
    have ⟨stored, apart⟩ := (deleted.rows .impulseRelations row).mp member
    have ⟨known, source, target⟩ := held.impulseRelations row stored
    exact ⟨deleted.known_kept apart known, deleted.impulse_kept apart source, deleted.impulse_kept apart target⟩
  associations row member := by
    have ⟨stored, apart⟩ := (deleted.rows .associations row).mp member
    exact deleted.known_kept apart (held.associations row stored)
  reactions row member := by
    have ⟨stored, apart⟩ := (deleted.rows .reactions row).mp member
    have ⟨known, named⟩ := held.reactions row stored
    exact ⟨deleted.known_kept apart known, named.imp_right (deleted.impulse_kept apart)⟩
  homeostats row member := by
    have ⟨stored, apart⟩ := (deleted.rows .homeostats row).mp member
    exact deleted.known_kept apart (held.homeostats row stored)
  projections row member := by
    have ⟨stored, apart⟩ := (deleted.rows .projections row).mp member
    exact deleted.known_kept apart (held.projections row stored)
  bridgeOutbox row member := by
    have ⟨stored, apart⟩ := (deleted.rows .bridgeOutbox row).mp member
    exact (held.bridgeOutbox row stored).imp_left (deleted.known_kept apart)
  bridgeInbox row member := by
    have ⟨stored, apart⟩ := (deleted.rows .bridgeInbox row).mp member
    exact (held.bridgeInbox row stored).imp_left (deleted.known_kept apart)
  marked := nofun

theorem referential (held : Referential a.db) : Referential a'.db where
  log := deleted.consistent held.log
  commands c member := by
    have ⟨stored, apart⟩ := (deleted.rows .commands c).mp member
    exact deleted.run_kept apart (held.commands c stored)
  processes p member := by
    have ⟨stored, apart⟩ := (deleted.rows .processes p).mp member
    exact (held.processes p stored).imp_right (deleted.impulse_kept apart)
  rooted := deleted.rooted held.rooted

end Domain.Deleted

/-- What is done to a journal file: a call, or the deletion of a run. -/
inductive FileCall where
  | call (c : Call)
  | deleteRun (runId : String) (terminalOnly : Bool)
  deriving DecidableEq

/-- The file after it, with a statement failing where the faults say. -/
def fileStep (digest : Json → String) (a : Archive) : FileCall × Option Nat → Archive
  | (.call c, faults) => { a with db := step digest a.db (c, faults) }
  | (.deleteRun runId terminalOnly, faults) => ((deleteRun runId terminalOnly).run ⟨a, faults⟩).2.store

theorem fileStep_referential (digest : Json → String) {a : Archive} (held : Referential a.db)
    (call : FileCall × Option Nat) : Referential (fileStep digest a call).db := by
  obtain ⟨call, faults⟩ := call
  cases call with
  | call c => exact step_referential digest held (c, faults)
  | deleteRun runId terminalOnly =>
    show Referential ((deleteRun runId terminalOnly).run ⟨a, faults⟩).2.store.db
    cases ran : (deleteRun runId terminalOnly).run ⟨a, faults⟩ with
    | mk result left =>
      cases result with
      | ok counts => exact (deleteRunBody_ok (transact_ok.mp (eval_of_run ran))).referential held
      | error message =>
        have back : left.store = a := RollsBack.transact _ _ faults message left ran
        show Referential left.store.db
        rw [back]
        exact held

/-- After every history of calls and deletions of runs, whichever of their statements fail, the file refers only to what
    it stores. -/
theorem file_referential (digest : Json → String) (triggers : Table Trigger.name)
    (calls : List (FileCall × Option Nat)) :
    Referential (Durable.execute (fileStep digest) ⟨.empty, triggers⟩ calls).db :=
  execute_induction (I := fun a : Archive => Referential a.db) .empty
    (fun _ call held => fileStep_referential digest held call) calls

end Fala
