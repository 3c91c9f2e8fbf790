import Fala.Journal.RowInvariant

/-! What the event log tells of the statuses of the processes. -/

namespace Fala.Journal
open Durable

/-- The status that the type of an event denotes. -/
def statusTold : String → Option ProcessStatus
  | "process.scheduled" | "process.ready" => some .ready
  | "process.claimed" => some .running
  | "process.waiting" => some .waiting
  | "process.completed" | "process.succeeded" => some .succeeded
  | "process.failed" => some .failed
  | "process.retry_scheduled" => some .retryWait
  | "process.cancel_requested" => some .cancelRequested
  | "process.skipped" => some .skipped
  | "process.cancelled" => some .cancelled
  | "process.timed_out" => some .timedOut
  | _ => none

def tells (k : String × String) (e : EventRow) : Option ProcessStatus :=
  if (e.runId, e.processId) = k then statusTold e.eventType else none

/-- The status of a process, recomputed from the events alone: the last one told. -/
def recount (events : List EventRow) (k : String × String) : Option ProcessStatus :=
  (events.filterMap (tells k)).getLast?

/-- The log grows, and each status that changed is told by a new event under a new command. -/
structure Announced (db db' : Database) : Prop where
  commands : db.commands.rows <+: db'.commands.rows
  events : db.events.rows <+: db'.events.rows
  told : ∀ k row, db'.processes.find? k = some row → (db.processes.find? k).map ProcessRow.status ≠ some row.status →
    ∃ command ∈ db'.commands.rows, command ∉ db.commands.rows ∧
      ∃ event ∈ db'.events.rows, event ∉ db.events.rows ∧ (event.runId, event.commandId) = command.key ∧
        tells k event = some row.status

/-- Every row has the status that the events tell. -/
def Recounted (db : Database) : Prop :=
  ∀ k row, db.processes.find? k = some row → recount db.events.rows k = some row.status

instance : Std.Refl Announced where
  refl _ := ⟨List.prefix_rfl, List.prefix_rfl, fun _ _ found changed => absurd (by rw [found]; rfl) changed⟩

instance : IsTrans Database Announced where
  trans _ middle _ first later := by
    refine ⟨first.commands.trans later.commands, first.events.trans later.events, fun k row found changed => ?_⟩
    by_cases same : (middle.processes.find? k).map ProcessRow.status = some row.status
    · obtain ⟨between, held, status⟩ := Option.map_eq_some_iff.mp same
      obtain ⟨command, stored, fresh, event, logged, new, named, told⟩ := first.told k between held (status ▸ changed)
      exact ⟨command, later.commands.subset stored, fresh, event, later.events.subset logged, new, named,
        status ▸ told⟩
    · obtain ⟨command, stored, fresh, event, logged, new, named, told⟩ := later.told k row found same
      exact ⟨command, stored, fun old => fresh (first.commands.subset old), event, logged,
        fun old => new (first.events.subset old), named, told⟩

/-- None of the events of a write tells a status. -/
def Untold (events : List (String × EventInput)) : Prop := ∀ entry ∈ events, statusTold entry.2.eventType = none

/-- The events of a write tell one status of one process, under a command of the write. -/
structure Herald (commands : List CommandRow) (events : List (String × EventInput)) (k : String × String)
    (status : ProcessStatus) : Prop where
  told : ∃ entry ∈ events, entry.2.processId = k.2 ∧ statusTold entry.2.eventType = some status ∧ entry.1 ≠ "" ∧
    ∃ command ∈ commands, command.key = (k.1, entry.1)
  only : ∀ entry ∈ events, statusTold entry.2.eventType ≠ none →
    entry.2.processId = k.2 ∧ statusTold entry.2.eventType = some status

theorem statusTold_head {eventType : String} {status : ProcessStatus} (told : statusTold eventType = some status) :
    eventType.toList.head? = some 'p' := by
  unfold statusTold at told
  split at told
  all_goals first
    | decide
    | cases told

theorem statusTold_other {eventType : String} (other : eventType.toList.head? ≠ some 'p') : statusTold eventType = none := by
  cases told : statusTold eventType with
  | none => rfl
  | some status => exact absurd (statusTold_head told) other

theorem Untold.unclaimed {events : List (String × EventInput)} (untold : Untold events) : Unclaimed events := by
  intro entry member same
  have none_ := untold entry member
  rw [same] at none_
  cases none_

section
variable {db db' : Database} {runId : String} {commands : List CommandRow} {events : List (String × EventInput)}

theorem EventsStored.added {rows after : List EventRow} (told : EventsStored commands runId events rows after) :
    ∀ e ∈ after, e ∈ rows ∨ ∃ entry ∈ events, ∃ sequence, e = entry.2.row runId entry.1 sequence :=
  told.forall (fun _ => .inl) fun entry member sequence _ => .inr ⟨entry, member, sequence, rfl⟩

theorem Logged.commandsGrown (logged : Logged db runId commands events db') : db.commands.rows <+: db'.commands.rows :=
  logged.stored ▸ List.prefix_append ..

theorem Logged.grown (logged : Logged db runId commands events db') :
    ∃ new, db'.events.rows = db.events.rows ++ new ∧
      ∀ e ∈ new, e ∉ db.events.rows ∧ ∃ entry ∈ events, ∃ sequence, e = entry.2.row runId entry.1 sequence := by
  obtain ⟨new, grown⟩ := logged.told.extends
  refine ⟨new, grown.symm, fun e member => ?_⟩
  have unstored : e ∉ db.events.rows := by
    have distinct := db'.events.primaryDistinct
    rw [← grown, List.map_append, List.nodup_append] at distinct
    intro stored
    exact distinct.2.2 _ (List.mem_map_of_mem stored) _ (List.mem_map_of_mem member) rfl
  refine ⟨unstored, ?_⟩
  have added := logged.told.added e (grown ▸ List.mem_append_right _ member)
  exact added.resolve_left unstored

theorem Logged.untold (logged : Logged db runId commands events db') (untold : Untold events) (k : String × String) :
    recount db'.events.rows k = recount db.events.rows k := by
  obtain ⟨new, grown, own⟩ := logged.grown
  have silent : new.filterMap (tells k) = [] := by
    rw [List.filterMap_eq_nil_iff]
    intro e member
    obtain ⟨-, entry, given, sequence, rfl⟩ := own e member
    unfold tells
    split
    · exact untold entry given
    · rfl
  unfold recount
  rw [grown, List.filterMap_append, silent, List.append_nil]

theorem Logged.stored_fresh (logged : Logged db runId commands events db') (consistent : Consistent db)
    {entry : String × EventInput} (member : entry ∈ events) (named : entry.1 ≠ "") {command : CommandRow}
    (own : command ∈ commands) (key : command.key = (runId, entry.1)) :
    command ∉ db.commands.rows ∧ ∃ sequence, entry.2.row runId entry.1 sequence ∈ db'.events.rows ∧
      entry.2.row runId entry.1 sequence ∉ db.events.rows := by
  have distinct := db'.commands.primaryDistinct
  rw [logged.stored, List.map_append, List.nodup_append] at distinct
  have unrecorded : (runId, entry.1) ∉ db.commands.rows.map CommandRow.key := fun recorded =>
    distinct.2.2 _ recorded _ (List.mem_map_of_mem own) key.symm
  obtain ⟨sequence, present⟩ := logged.told.present entry member
  refine ⟨fun stored => unrecorded (key ▸ List.mem_map_of_mem stored), sequence, present, fun stored => ?_⟩
  exact unrecorded ((consistent.referenced _ stored).resolve_left named)

variable {k : String × String} {status : ProcessStatus}

theorem Logged.heralded (logged : Logged db k.1 commands events db') (consistent : Consistent db)
    (herald : Herald commands events k status) :
    (∃ command ∈ db'.commands.rows, command ∉ db.commands.rows ∧
      ∃ event ∈ db'.events.rows, event ∉ db.events.rows ∧ (event.runId, event.commandId) = command.key ∧
        tells k event = some status) ∧
      recount db'.events.rows k = some status ∧
        ∀ k', k' ≠ k → recount db'.events.rows k' = recount db.events.rows k' := by
  obtain ⟨entry, member, process, told, named, command, own, key⟩ := herald.told
  obtain ⟨fresh, sequence, present, unstored⟩ := logged.stored_fresh consistent member named own key
  have telling : tells k (entry.2.row k.1 entry.1 sequence) = some status := by
    have place : (k.1, entry.2.processId) = k := Prod.ext rfl process
    exact (if_pos place).trans told
  obtain ⟨new, grown, added⟩ := logged.grown
  have onlyTold (k' : String × String) : ∀ s ∈ new.filterMap (tells k'), k' = k ∧ s = status := by
    intro s heard
    obtain ⟨e, memberNew, heard⟩ := List.mem_filterMap.mp heard
    obtain ⟨-, other, given, sequence, rfl⟩ := added e memberNew
    unfold tells at heard
    split at heard
    · rename_i place
      have heard : statusTold other.2.eventType = some s := heard
      obtain ⟨here, same⟩ := herald.only other given (by rw [heard]; exact nofun)
      refine ⟨?_, Option.some.inj (heard.symm.trans same)⟩
      rw [← place]
      exact Prod.ext rfl here
    · cases heard
  refine ⟨⟨command, ?_, fresh, _, present, unstored, key.symm, telling⟩, ?_, fun k' other => ?_⟩
  · rw [logged.stored]
    exact List.mem_append_right _ own
  · have heard : status ∈ new.filterMap (tells k) := by
      refine List.mem_filterMap.mpr ⟨_, ?_, telling⟩
      rw [grown] at present
      exact (List.mem_append.mp present).resolve_left unstored
    unfold recount
    rw [grown, List.filterMap_append, List.getLast?_append_of_ne_nil _ (List.ne_nil_of_mem heard)]
    have last := List.getLast_mem (List.ne_nil_of_mem heard)
    rw [List.getLast?_eq_some_getLast (List.ne_nil_of_mem heard), (onlyTold k _ last).2]
  · have silent : new.filterMap (tells k') = [] :=
      List.eq_nil_iff_forall_not_mem.mpr fun s heard => other (onlyTold k' s heard).1
    unfold recount
    rw [grown, List.filterMap_append, silent, List.append_nil]

end

/-- The action is made on the row that its arguments name, and a transition or a caller's command tells the status
    that it writes. -/
def RowAction.Tells (k : String × String) : RowAction → Prop
  | .claim _ | .expire .. => True
  | .transition t _ _ => (t.runId, t.processId) = k ∧ t.toStatus ≠ .pending ∧ t.toStatus ≠ .running
  | .command t output error =>
    (t.runId, t.processId) = k ∧
      ∀ old, Herald (RowAction.commands old (.command t output error)) (RowAction.events old (.command t output error)) k
        t.target
  | .park p _ _ => (p.runId, p.processId) = k
  | .resolve t _ _ => (t.runId, t.processId) = k
  | .reopen r _ => (r.runId, r.processId) = k
  | .promote c child => (c.runId, child.processId) = k

/-- A write that tells each status that it writes, and no other. -/
def Write.Tells : Write → Prop
  | .record _ _ events => Untold events
  | .schedule row commands events => Herald commands events row.key row.status
  | .act runId processId action => action.Tells (runId, processId)

section
variable {k : String × String} {old : ProcessRow}

theorem Herald.one {command : CommandRow} {event : EventInput} {status : ProcessStatus} (here : command.runId = k.1)
    (named : command.id ≠ "") (process : event.processId = k.2) (told : statusTold event.eventType = some status) :
    Herald [command] [(command.id, event)] k status where
  told := ⟨_, List.mem_singleton_self _, process, told, named, command, List.mem_singleton_self _, Prod.ext here rfl⟩
  only entry member _ := by
    obtain rfl := List.mem_singleton.mp member
    exact ⟨process, told⟩

theorem transitionEventType_told {target : ProcessStatus} (pending : target ≠ .pending) (running : target ≠ .running) :
    statusTold (transitionEventType target) = some target := by
  cases target <;> first | rfl | exact absurd rfl pending | exact absurd rfl running

theorem ProcessTransition.effectiveKey_ne (t : ProcessTransition) : t.effectiveKey ≠ "" := by
  unfold ProcessTransition.effectiveKey
  split
  · intro same
    simpa [ProcessTransition.defaultKey] using congrArg String.toList same
  · assumption

theorem ProcessSchedule.key_ne (s : ProcessSchedule) : s.key ≠ "" := by
  unfold ProcessSchedule.key
  split
  · assumption
  · exact fun same => by simpa using congrArg String.toList same

theorem RowAction.herald {action : RowAction} (here : old.key = k) (enabled : action.Enabled old)
    (tells : action.Tells k) : Herald (action.commands old) (action.events old) k (action.apply old).status := by
  subst here
  cases action with
  | claim c => exact .one rfl (c.commandId_ne _) rfl rfl
  | expire worker now =>
    refine .one rfl ?_ rfl rfl
    intro same
    simpa [expireCommand, failKey] using congrArg String.toList same
  | transition t output error =>
    obtain ⟨place, pending, running⟩ := tells
    exact .one (congrArg Prod.fst place) t.effectiveKey_ne (congrArg Prod.snd place)
      (transitionEventType_told pending running)
  | command t output error => exact tells.2 old
  | park p output metadata =>
    have place : (p.runId, p.processId) = old.key := tells
    have named : p.key ++ ":process" ≠ "" := fun same => by simpa using congrArg String.toList same
    refine ⟨⟨_, .tail _ (List.mem_singleton_self _), congrArg Prod.snd place, rfl, named, _,
      .tail _ (List.mem_singleton_self _), congrArg (Prod.mk · _) (congrArg Prod.fst place)⟩, ?_⟩
    rintro entry (_ | ⟨_, _ | ⟨_, ⟨⟩⟩⟩) told
    · exact absurd rfl told
    · exact ⟨congrArg Prod.snd place, rfl⟩
  | resolve t output error =>
    have place : (t.runId, t.processId) = old.key := tells
    obtain ⟨-, -, -, -, target⟩ := enabled
    have told : statusTold ("process." ++ t.processStatus.value) = some t.processStatus := by
      rcases target with same | same | same <;> rw [same] <;> decide
    have homeostat : statusTold ("homeostat." ++ t.homeostatStatus) = none := statusTold_other (by simp)
    have named : t.key ≠ "" := by
      unfold HomeostatTransition.key
      split
      · assumption
      · exact fun same => by simpa using congrArg String.toList same
    refine ⟨⟨_, .tail _ (List.mem_singleton_self _), congrArg Prod.snd place, told, named, _,
      List.mem_singleton_self _, congrArg (Prod.mk · _) (congrArg Prod.fst place)⟩, ?_⟩
    rintro entry (_ | ⟨_, _ | ⟨_, ⟨⟩⟩⟩) heard
    · exact absurd homeostat heard
    · exact ⟨congrArg Prod.snd place, told⟩
  | reopen r homeostat =>
    have place : (r.runId, r.processId) = old.key := tells
    have named : r.key homeostat ≠ "" := by
      unfold HomeostatReopen.key
      split
      · assumption
      · exact fun same => by simpa using congrArg String.toList same
    refine ⟨⟨_, .tail _ (List.mem_singleton_self _), congrArg Prod.snd place, rfl, named, _,
      List.mem_singleton_self _, congrArg (Prod.mk · _) (congrArg Prod.fst place)⟩, ?_⟩
    rintro entry (_ | ⟨_, _ | ⟨_, ⟨⟩⟩⟩) heard
    · exact absurd rfl heard
    · exact ⟨congrArg Prod.snd place, rfl⟩
  | promote c child =>
    have place : (c.runId, child.processId) = old.key := tells
    refine .one (congrArg Prod.fst place) ?_ (congrArg Prod.snd place) rfl
    intro same
    simpa [ChildrenCall.command, ChildrenCall.key] using congrArg String.toList same

end

theorem Written.tells {db db' : Database} {w : Write} (written : Written db w db') (tells : w.Tells)
    (consistent : Consistent db) : Announced db db' ∧ (Recounted db → Recounted db') := by
  cases written with
  | record processes logged =>
    refine ⟨⟨logged.commandsGrown, logged.told.extends, fun k row found changed => ?_⟩, fun recounted k row found => ?_⟩
    · rw [processes] at found
      exact absurd (by rw [found]; rfl) changed
    · rw [processes] at found
      rw [logged.untold tells, recounted k row found]
  | @schedule row commands events _ inserted logged =>
    obtain ⟨announced, here, others⟩ := logged.heralded consistent tells
    refine ⟨⟨logged.commandsGrown, logged.told.extends, fun k new found changed => ?_⟩, fun recounted k new found => ?_⟩
    · rw [Table.find?_insert inserted] at found
      split at found
      · rename_i same
        cases found
        exact same ▸ announced
      · exact absurd (by rw [found]; rfl) changed
    · rw [Table.find?_insert inserted] at found
      split at found
      · rename_i same
        cases found
        exact same ▸ here
      · rename_i other
        rw [others k fun same => other same.symm, recounted k new found]
  | @act runId processId action old _ current enabled processes logged =>
    have herald := RowAction.herald (Table.find?_key current) enabled tells
    obtain ⟨announced, here, others⟩ := logged.heralded consistent herald
    refine ⟨⟨logged.commandsGrown, logged.told.extends, fun k new found changed => ?_⟩, fun recounted k new found => ?_⟩
    · rw [processes] at found
      split at found
      · rename_i same
        cases found
        exact same ▸ announced
      · exact absurd (by rw [found]; rfl) changed
    · rw [processes] at found
      split at found
      · rename_i same
        cases found
        exact same ▸ here
      · rename_i other
        rw [others k other, recounted k new found]

end Fala.Journal
