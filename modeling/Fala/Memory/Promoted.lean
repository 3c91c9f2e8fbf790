import Fala.Memory.Effects

namespace Fala.Memory
open Correlation Durable
open Jsonl (Bytes Ember utf8)

variable {τ : Type} [Seconds τ]

/-- The status that `instantiate_correlation_path` plans. -/
def plannedStatus (conduction : List String) : ProcessStatus := if conduction = [] then .ready else .pending

def aboutRun (eventType _processId : String) : Bool := eventType = "run.created" || eventType = "run.status.changed"

def aboutProcess (id eventType processId : String) : Bool :=
  processId = id && (eventType = "process.scheduled" || eventType = "process.readied" ||
    eventType = "process.claimed" || eventType = "process.completed" || eventType = "process.failed")

/-- The status of a run that the last event about it tells. -/
def RunTold (told : String × String) (status : String) : Prop :=
  (told.1 = "run.created" ∧ status = "created") ∨
    (told.1 = "run.status.changed" ∧ told.2 = oneField "status" status)

/-- The status of a process that the last event about it implies. -/
def impliedStatus (planned : ProcessStatus) (told : String × String) : Option ProcessStatus :=
  if told.1 = "process.scheduled" then some planned
  else if told.1 = "process.readied" then some .ready
  else if told.1 = "process.claimed" then some .running
  else if told.1 = "process.completed" then some .succeeded
  else if told.1 = "process.failed" then some .failed
  else none

theorem aboutRun_apart {eventType runProcess : String} (about : aboutRun eventType runProcess = true)
    (id processId : String) : aboutProcess id eventType processId = false := by
  simp only [aboutRun, Bool.or_eq_true, decide_eq_true_eq] at about
  rcases about with rfl | rfl <;> exact Bool.and_false _

theorem RunTold.status_eq {told : String × String} {status other : String} (first : RunTold told status)
    (second : RunTold told other) : status = other := by
  rcases first with ⟨created, rfl⟩ | ⟨changed, payload⟩ <;> rcases second with ⟨created', rfl⟩ | ⟨changed', payload'⟩
  · rfl
  · rw [created] at changed'
    exact absurd changed' (by decide)
  · rw [changed] at created'
    exact absurd created' (by decide)
  · have same := congrArg String.toList (payload.symm.trans payload')
    simp only [oneField, String.toList_append] at same
    exact String.ext (List.append_cancel_left (List.append_cancel_right same))

namespace MemoryRuntime

/-- The statuses are the ones that the log tells. -/
structure Folded (rt : MemoryRuntime τ) : Prop where
  runs (runId : String) (row : RunRow) (held : rt.runs.get runId = some row) :
    ∃ told, rt.journal.told runId aboutRun = some told ∧ RunTold told row.status
  processes (row : ProcessRecord τ) (held : row ∈ rt.journal.processes.rows) :
    ∃ extra told, rt.extras.get row.id = some extra ∧
      rt.journal.told row.runId (aboutProcess row.id) = some told ∧
      impliedStatus (plannedStatus extra.conduction) told = some row.status

end MemoryRuntime

theorem JournalLog.told_posted {log : JournalLog} {runId key commandType eventType actor impulseId processId
    payloadJson : String}
    (fresh : log.hasKey (cmdKey runId key) = false) (other : String) (kind : String → String → Bool) :
    (log.posted (runtimeUnit runId key commandType eventType actor impulseId processId payloadJson)).told other kind =
      if runId = other ∧ kind eventType processId = true then some (eventType, payloadJson)
      else log.told other kind := by
  generalize unitOf : runtimeUnit runId key commandType eventType actor impulseId processId payloadJson = u
  have unused : log.Fresh [u] := by
    subst unitOf
    exact ⟨fresh, trivial⟩
  have grown := told_appendBatch unused u.command.runId other kind
  rw [posted, grown]
  subst unitOf
  by_cases here : runId = other
  · by_cases about : kind eventType processId = true
    · simp [eventsIn, CommandUnit.eventsOf, runtimeUnit, here, about, lastTold, EventRecord.tells]
    · simp [eventsIn, CommandUnit.eventsOf, runtimeUnit, here, about, lastTold]
  · simp [eventsIn, CommandUnit.eventsOf, runtimeUnit, here, lastTold]

namespace MemoryRuntime

section Posts

variable {rt : MemoryRuntime τ} {runId key commandType eventType actor impulseId payloadJson : String}

omit [Seconds τ] in
theorem Folded.post_run (row : RunRow) (folded : rt.Folded) (fresh : rt.journal.hasKey (cmdKey runId key) = false)
    (about : aboutRun eventType "" = true) (told : RunTold (eventType, payloadJson) row.status) :
    Folded { rt.post (runtimeUnit runId key commandType eventType actor impulseId "" payloadJson) with
      runs := rt.runs.set runId row } where
  runs other held found := by
    show ∃ told, (rt.journal.toJournalLog.posted _).told other aboutRun = some told ∧ _
    rw [Dict.get_set] at found
    rw [JournalLog.told_posted fresh]
    by_cases here : runId = other
    · rw [if_pos here] at found
      cases found
      exact ⟨_, if_pos ⟨here, about⟩, told⟩
    · rw [if_neg here] at found
      rw [if_neg fun both => here both.1]
      exact folded.runs other held found
  processes held member := by
    have ⟨extra, before, found, last, implied⟩ := folded.processes held member
    refine ⟨extra, before, found, ?_, implied⟩
    show (rt.journal.toJournalLog.posted _).told held.runId (aboutProcess held.id) = some before
    rw [JournalLog.told_posted fresh, aboutRun_apart about, if_neg (by simp), last]

omit [Seconds τ] in
theorem Folded.post_process (row : ProcessRecord τ) {extras : Dict String ProcessExtra} {extra : ProcessExtra}
    (folded : rt.Folded) (fresh : rt.journal.hasKey (cmdKey row.runId key) = false)
    (about : aboutProcess row.id eventType row.id = true)
    (held : extras.get row.id = some extra)
    (others : ∀ id, id ≠ row.id → extras.get id = rt.extras.get id)
    (implied : impliedStatus (plannedStatus extra.conduction) (eventType, payloadJson) = some row.status) :
    Folded { rt with
      journal := { rt.journal with
        toJournalLog := rt.journal.toJournalLog.posted
          (runtimeUnit row.runId key commandType eventType actor impulseId row.id payloadJson)
        processes := rt.journal.processes.upsert row }
      extras } where
  runs other found member := by
    have ⟨before, last, told⟩ := folded.runs other found member
    refine ⟨before, ?_, told⟩
    show (rt.journal.toJournalLog.posted _).told other aboutRun = some before
    have notRun : ¬ (row.runId = other ∧ aboutRun eventType row.id = true) := by
      rintro ⟨-, run⟩
      rw [aboutRun_apart run] at about
      cases about
    rw [JournalLog.told_posted fresh, if_neg notRun, last]
  processes found member := by
    show ∃ extra told, extras.get found.id = some extra ∧
      (rt.journal.toJournalLog.posted _).told found.runId (aboutProcess found.id) = some told ∧ _
    rw [JournalLog.told_posted fresh]
    rcases Table.mem_upsert.mp member with rfl | ⟨member, other⟩
    · exact ⟨extra, _, held, if_pos ⟨rfl, about⟩, implied⟩
    · have ⟨extra, before, kept, last, implied⟩ := folded.processes found member
      have notHere : ¬ (row.runId = found.runId ∧ aboutProcess found.id eventType row.id = true) := by
        rintro ⟨-, about⟩
        simp only [aboutProcess, Bool.and_eq_true, decide_eq_true_eq] at about
        exact other about.1.symm
      rw [if_neg notHere]
      exact ⟨extra, before, (others _ other).trans kept, last, implied⟩

omit [Seconds τ] in
theorem Folded.post_other (folded : rt.Folded) (notRun : aboutRun eventType "" = false)
    (notProcess : ∀ id, aboutProcess id eventType "" = false) :
    (rt.post (runtimeUnit runId key commandType eventType actor impulseId "" payloadJson)).Folded := by
  by_cases known : rt.journal.hasKey (cmdKey runId key) = true
  · have same : rt.journal.toJournalLog.posted
        (runtimeUnit runId key commandType eventType actor impulseId "" payloadJson) = rt.journal.toJournalLog :=
      JournalLog.posted_known known
    unfold post
    rw [same]
    exact folded
  · have fresh := Bool.eq_false_iff.mpr known
    constructor
    · intro other row held
      have ⟨told, last, tells⟩ := folded.runs other row held
      refine ⟨told, ?_, tells⟩
      show (rt.journal.toJournalLog.posted _).told other aboutRun = some told
      rw [JournalLog.told_posted fresh, notRun, if_neg (by simp), last]
    · intro row held
      have ⟨extra, told, found, last, implied⟩ := folded.processes row held
      refine ⟨extra, told, found, ?_, implied⟩
      show (rt.journal.toJournalLog.posted _).told row.runId (aboutProcess row.id) = some told
      rw [JournalLog.told_posted fresh, notProcess, if_neg (by simp), last]

end Posts

section Operations

variable {rt : MemoryRuntime τ}

omit [Seconds τ] in
theorem Folded.put (row : ProcessRecord τ) {extra : ProcessExtra}
    {key commandType eventType actor impulseId payloadJson : String} (folded : rt.Folded)
    (fresh : rt.journal.hasKey (cmdKey row.runId key) = false)
    (about : aboutProcess row.id eventType row.id = true)
    (implied : impliedStatus (plannedStatus extra.conduction) (eventType, payloadJson) = some row.status) :
    (rt.put (runtimeUnit row.runId key commandType eventType actor impulseId row.id payloadJson) row extra).Folded :=
  folded.post_process row fresh about ((Dict.get_set ..).trans (if_pos rfl))
    (fun _ other => (Dict.get_set ..).trans (if_neg (Ne.symm other))) implied

omit [Seconds τ] in
theorem Folded.createRun (folded : rt.Folded) (runId title metadataJson idempotencyKey : String) :
    (rt.createRun runId title metadataJson idempotencyKey).2.Folded := by
  rw [createRun_eq]
  by_cases known : rt.journal.hasKey (createUnit runId idempotencyKey).key = true
  · rw [if_pos known]
    exact folded
  · rw [if_neg known]
    exact folded.post_run _ (Bool.eq_false_iff.mpr known) rfl (.inl ⟨rfl, rfl⟩)

omit [Seconds τ] in
theorem Folded.setRunStatus {runId status idempotencyKey : String} (folded : rt.Folded)
    (logs : ∀ row ∈ rt.runs.get runId, canTransitionRun (.ofValue row.status) (.ofValue status) = true →
      rt.journal.hasKey (statusUnit runId status idempotencyKey).key = false) :
    (rt.setRunStatus runId status idempotencyKey).2.Folded := by
  rw [setRunStatus_eq]
  cases held : rt.runs.get runId with
  | none => exact folded
  | some row =>
    dsimp only
    by_cases legal : canTransitionRun (.ofValue row.status) (.ofValue status) = true
    · rw [if_pos legal]
      exact folded.post_run { row with status } (logs row held legal) rfl (.inr ⟨rfl, rfl⟩)
    · rw [if_neg legal]
      exact folded

omit [Seconds τ] in
theorem Folded.acceptImpulse (folded : rt.Folded) (impulse : Impulse) (idempotencyKey : String) :
    (rt.acceptImpulse impulse idempotencyKey).2.Folded := by
  have ⟨impulses, effect⟩ := rt.acceptImpulse_eq impulse idempotencyKey
  rw [effect]
  by_cases missing : (rt.runs.get impulse.runId).isNone = true
  · rw [if_pos missing]
    exact folded
  · have posted : (rt.post (impulseUnit impulse idempotencyKey)).Folded :=
      folded.post_other rfl fun _ => Bool.and_false _
    rw [if_neg missing]
    exact ⟨posted.runs, posted.processes⟩

omit [Seconds τ] in
theorem Folded.extra (folded : rt.Folded) {row : ProcessRecord τ} (held : row ∈ rt.journal.processes.rows) :
    ∃ extra, rt.extras.get row.id = some extra := by
  have ⟨extra, _, found, _⟩ := folded.processes row held
  exact ⟨extra, found⟩

theorem Folded.scheduleProcessPlan {plan : CorrelationProcessPlan Bytes} (folded : rt.Folded)
    (logs : rt.journal.hasKey (scheduleUnit plan).key = false → plan.status = plannedStatus plan.conduction) :
    (rt.scheduleProcessPlan plan).2.Folded := by
  rw [scheduleProcessPlan_eq]
  by_cases known : rt.journal.hasKey (scheduleUnit plan).key = true
  · rw [if_pos known]
    exact folded
  · have fresh := Bool.eq_false_iff.mpr known
    rw [if_neg known]
    refine folded.put (.planned plan rt.clock) fresh ?_ (congrArg some (logs fresh).symm)
    simp [aboutProcess]

theorem Folded.finishProcess {processId actor : String} {toStatus : ProcessStatus} {outputJson : Bytes}
    {unitOf : ProcessRecord τ → CommandUnit} {commandType eventType : String}
    {keyOf payloadOf : ProcessRecord τ → String} (folded : rt.Folded)
    (shape : ∀ row, unitOf row =
      runtimeUnit row.runId (keyOf row) commandType eventType actor "" row.id (payloadOf row))
    (about : ∀ id, aboutProcess id eventType id = true)
    (implied : ∀ planned payload, impliedStatus planned (eventType, payload) = some toStatus)
    (logs : ∀ row ∈ rt.journal.processes.find? processId, ∀ finished,
      row.transitionProcess toStatus actor = .ok finished →
      rt.journal.hasKey (unitOf finished.unleased).key = false) :
    (rt.finishProcess processId toStatus actor outputJson unitOf).2.Folded := by
  rw [finishProcess_eq]
  cases found : rt.journal.processes.find? processId with
  | none => exact folded
  | some row =>
    dsimp only
    cases moved : row.transitionProcess toStatus actor with
    | error => exact folded
    | ok finished =>
      have fresh := logs row found finished moved
      have ⟨held, here⟩ := Table.find?_some.mp found
      have ⟨extra, before⟩ := folded.extra held
      have columns := (transitionProcess_columns moved).2
      dsimp only
      generalize finished.unleased = last at columns fresh
      have same : last.id = processId := by
        rw [columns]
        exact here
      subst same
      rw [here] at before
      rw [seedFinished_eq before, shape last]
      rw [shape last] at fresh
      exact folded.put last fresh (about _) (by rw [implied, columns])

end Operations

end MemoryRuntime
end Fala.Memory

namespace Fala.Memory
open Correlation Durable
open Jsonl (Bytes Ember)

variable {τ : Type} [Seconds τ] (e : Ember) (digest : Json → String)

/-! What `advance` reads while it promotes one process after another. -/

/-- What an entry of `extras` can conduct: its effector, its output, and whether it is conducted. -/
abbrev Upstream := String × Bytes × Bool

/-- The conduction members that upstreams give, as `advance` collects them. -/
def collect (conduction : List String) : List (Except String Upstream) → Except String (List (String × Bytes))
  | [] => .ok []
  | entry :: rest => do
    let upstream ← entry
    if upstream.1 ∈ conduction ∧ upstream.2.2 then
      let payload ← MemoryRuntime.domainPayload e digest upstream.2.1
      return (upstream.1, payload) :: (← collect conduction rest)
    else collect conduction rest

namespace MemoryRuntime

def upstream (rt : MemoryRuntime τ) (entry : String × ProcessExtra) : Except String Upstream :=
  (rt.journal.getProcess entry.1).map fun row => (entry.2.effectorId, entry.2.outputJson, conducts row.status)

def upstreams (rt : MemoryRuntime τ) : List (Except String Upstream) := rt.extras.rows.map rt.upstream

omit [Seconds τ] in
theorem conductionMembers_eq (rt : MemoryRuntime τ) (conduction : List String)
    (entries : List (String × ProcessExtra)) :
    rt.conductionMembers e digest conduction entries = collect e digest conduction (entries.map rt.upstream) := by
  induction entries with
  | nil => rfl
  | cons entry rest ih =>
    obtain ⟨id, extra⟩ := entry
    simp only [conductionMembers, List.map_cons, collect, upstream, ih]
    cases rt.journal.getProcess id with
    | error => rfl
    | ok row => rfl

omit [Seconds τ] in
theorem conductionInput_congr {rt other : MemoryRuntime τ} (same : rt.upstreams = other.upstreams)
    (conduction : List String) : rt.conductionInput e digest conduction = other.conductionInput e digest conduction := by
  unfold conductionInput
  rw [conductionMembers_eq, conductionMembers_eq]
  exact congrArg (fun entries => (collect e digest conduction entries).map fun members =>
    Jsonl.objectText [("conduction", Jsonl.objectText members)]) same

/-- The conduction of a process raises. -/
def conductionRaises (rt : MemoryRuntime τ) (processId : String) : Bool :=
  (rt.extras.get processId).any fun extra => !(rt.conductionInput e digest extra.conduction).isOk

/-- The processes that `advance` comes to: it stops at the first whose conduction raises. -/
def reached (rt : MemoryRuntime τ) : List String → List String
  | [] => []
  | processId :: rest =>
    processId :: if rt.conductionRaises e digest processId then [] else rt.reached rest

/-- Promoting other processes leaves what `advance` reads of the ones that it has still to come to. -/
structure Ahead (start rt : MemoryRuntime τ) (runId : String) (ids : List String) : Prop where
  rows : ∀ id ∈ ids, rt.journal.processes.find? id = start.journal.processes.find? id
  extras : ∀ id ∈ ids, rt.extras.get id = start.extras.get id
  keys : ∀ id ∈ ids, rt.journal.hasKey (readyUnit runId id).key = start.journal.hasKey (readyUnit runId id).key
  upstreams : rt.upstreams = start.upstreams

omit [Seconds τ] in
theorem Ahead.refl (rt : MemoryRuntime τ) (runId : String) (ids : List String) : Ahead rt rt runId ids :=
  ⟨fun _ _ => rfl, fun _ _ => rfl, fun _ _ => rfl, rfl⟩

/-- The runtime after a process is promoted, before it is conducted anything. -/
def promoted (rt : MemoryRuntime τ) (runId : String) (row : ProcessRecord τ) : MemoryRuntime τ :=
  { rt with
    journal := { rt.journal with
      toJournalLog := rt.journal.toJournalLog.posted (readyUnit runId row.id)
      processes := rt.journal.processes.upsert { row with status := .ready } } }

omit [Seconds τ] in
theorem readyProcess_eq (rt : MemoryRuntime τ) (runId : String) (row : ProcessRecord τ) :
    ∃ result, rt.readyProcess runId row = (.ok result, rt.promoted runId row) := by
  unfold readyProcess
  dsimp only
  split
  · rename_i known
    have known : rt.journal.hasKey (readyUnit runId row.id).key = true := known
    have same : rt.promoted runId row = { rt with journal := rt.journal.seedProcess { row with status := .ready } } := by
      unfold promoted
      rw [JournalLog.posted_known known]
      rfl
    rw [same]
    exact ⟨_, rfl⟩
  · have ⟨result, _, done⟩ := MemoryRuntime.appendUnit_eq
      { rt with journal := rt.journal.seedProcess { row with status := .ready } } (readyUnit runId row.id) fun _ rt => rt
    exact ⟨result, done⟩

omit [Seconds τ] in
theorem upstreams_promoted {rt : MemoryRuntime τ} (runId : String) {row : ProcessRecord τ}
    (held : rt.journal.processes.find? row.id = some row) (pending : row.status = .pending) :
    (rt.promoted runId row).upstreams = rt.upstreams := by
  refine List.map_congr_left fun entry _ => ?_
  show Except.map _ ((rt.promoted runId row).journal.getProcess entry.1) = Except.map _ (rt.journal.getProcess entry.1)
  have found : (rt.promoted runId row).journal.processes.find? entry.1 =
      if row.id = entry.1 then some { row with status := .ready } else rt.journal.processes.find? entry.1 :=
    Table.find?_upsert ..
  unfold InMemoryJournal.getProcess
  rw [found]
  by_cases here : row.id = entry.1
  · rw [if_pos here, ← here, held]
    simp [Except.map, conducts, pending]
  · rw [if_neg here]

omit [Seconds τ] in
theorem upstreams_input (rt : MemoryRuntime τ) {id : String} {extra : ProcessExtra} (held : rt.extras.get id = some extra)
    (inputJson : Bytes) :
    MemoryRuntime.upstreams { rt with extras := rt.extras.set id { extra with inputJson } } = rt.upstreams :=
  Dict.map_set (f := rt.upstream) held rfl

omit [Seconds τ] in
theorem advanceOne_eq {rt : MemoryRuntime τ} {row : ProcessRecord τ} {extra : ProcessExtra} (runId : String)
    (held : rt.journal.processes.find? row.id = some row) (pending : row.status = .pending)
    (found : rt.extras.get row.id = some extra) :
    rt.advanceOne e digest runId row.id =
      match rt.conductionInput e digest extra.conduction with
      | .error message => (.error message, rt.promoted runId row)
      | .ok inputJson =>
        (.ok (), { rt.promoted runId row with extras := rt.extras.set row.id { extra with inputJson } }) := by
  have ⟨result, promotes⟩ := rt.readyProcess_eq runId row
  have same := conductionInput_congr e digest (upstreams_promoted runId held pending) extra.conduction
  unfold advanceOne InMemoryJournal.getProcess
  rw [held]
  dsimp only
  rw [if_neg (not_not.mpr pending), promotes]
  dsimp only
  unfold injectConduction
  rw [show (rt.promoted runId row).extras.get row.id = some extra from found]
  dsimp only
  rw [same]
  cases rt.conductionInput e digest extra.conduction with
  | error => rfl
  | ok => rfl

theorem readyUnit_key_ne (runId : String) {id other : String} (apart : id ≠ other) :
    (readyUnit runId id).key ≠ (readyUnit runId other).key := by
  intro same
  have texts := congrArg String.toList same
  simp only [CommandUnit.key, CommandRecord.key, readyUnit, runtimeUnit, cmdKey, String.toList_append] at texts
  exact apart (String.ext (List.append_cancel_left (List.append_cancel_left texts)))

omit [Seconds τ] in
theorem Ahead.next {start rt : MemoryRuntime τ} {row : ProcessRecord τ} {extra : ProcessExtra} {rest : List String}
    (ahead : Ahead start rt row.runId (row.id :: rest)) (first : row.id ∉ rest)
    (held : rt.journal.processes.find? row.id = some row) (pending : row.status = .pending)
    (found : rt.extras.get row.id = some extra) (inputJson : Bytes) :
    Ahead start { rt.promoted row.runId row with extras := rt.extras.set row.id { extra with inputJson } }
      row.runId rest := by
  have apart : ∀ id ∈ rest, row.id ≠ id := fun id member same => first (same ▸ member)
  constructor
  · intro id member
    rw [← ahead.rows id (List.mem_cons_of_mem _ member)]
    exact (Table.find?_upsert ..).trans (if_neg (apart id member))
  · intro id member
    rw [← ahead.extras id (List.mem_cons_of_mem _ member)]
    exact (Dict.get_set ..).trans (if_neg (apart id member))
  · intro id member
    have other := readyUnit_key_ne row.runId (apart id member)
    rw [← ahead.keys id (List.mem_cons_of_mem _ member)]
    refine (JournalLog.hasKey_posted ..).trans ?_
    rw [decide_eq_false other, Bool.false_or]
  · have promoted := upstreams_promoted row.runId held pending
    have injected := upstreams_input (rt.promoted row.runId row) found inputJson
    exact injected.trans (promoted.trans ahead.upstreams)

omit [Seconds τ] in
theorem Ahead.raises {start rt : MemoryRuntime τ} {runId id : String} {ids : List String} {extra : ProcessExtra}
    (ahead : Ahead start rt runId ids) (member : id ∈ ids) (found : rt.extras.get id = some extra) :
    start.conductionRaises e digest id = !(rt.conductionInput e digest extra.conduction).isOk := by
  have input := conductionInput_congr e digest ahead.upstreams extra.conduction
  rw [conductionRaises, ← ahead.extras id member, found, Option.any_some, input]

end MemoryRuntime
end Fala.Memory
