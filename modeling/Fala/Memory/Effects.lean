import Fala.Memory.Indexed
import Fala.Memory.Runtime
import Fala.Durable.History

namespace Fala.Memory
open Durable

/-! What the last event of a kind says. -/

/-- What an event says: its type and its payload. -/
def EventRecord.tells (event : EventRecord) : String × String := (event.eventType, event.payloadJson)

/-- The last of the events that are of the kind; a kind looks at the type and the process. -/
def lastTold (kind : String → String → Bool) (events : List EventRecord) : Option (String × String) :=
  ((events.filter fun event => kind event.eventType event.processId).getLast?).map (·.tells)

section
variable {kind : String → String → Bool}

theorem lastTold_append (kind : String → String → Bool) (events later : List EventRecord) :
    lastTold kind (events ++ later) = (lastTold kind later).or (lastTold kind events) := by
  unfold lastTold
  rw [List.filter_append, List.getLast?_append, Option.map_or]

theorem lastTold_none {events : List EventRecord}
    (other : ∀ event ∈ events, kind event.eventType event.processId = false) : lastTold kind events = none := by
  have empty : (events.filter fun event => kind event.eventType event.processId) = [] := by
    rw [List.filter_eq_nil_iff]
    exact fun event member => by simp [other event member]
  rw [lastTold, empty]
  rfl

theorem lastTold_some {events : List EventRecord} {told : String × String}
    (any : ∃ event ∈ events, kind event.eventType event.processId = true)
    (all : ∀ event ∈ events, kind event.eventType event.processId = true → event.tells = told) :
    lastTold kind events = some told := by
  have ⟨event, member, holds⟩ := any
  have listed : event ∈ events.filter fun event => kind event.eventType event.processId :=
    List.mem_filter.mpr ⟨member, holds⟩
  have last := List.getLast?_eq_some_getLast (List.ne_nil_of_mem listed)
  rw [lastTold, last, Option.map_some]
  have ⟨held, good⟩ := List.mem_filter.mp (List.mem_of_getLast? last)
  rw [all _ held good]

theorem lastTold_assignedFrom (command : CommandRecord) (sequence : Int) (events : List EventRecord) :
    lastTold kind (assignedFrom command sequence events) = lastTold kind events := by
  induction events generalizing sequence with
  | nil => rfl
  | cons event rest ih =>
    have later := lastTold_append kind [event] rest
    have assigned := lastTold_append kind [event.assigned command (sequence + 1)]
      (assignedFrom command (sequence + 1) rest)
    have same : lastTold kind [event.assigned command (sequence + 1)] = lastTold kind [event] := by
      unfold lastTold
      by_cases here : kind event.eventType event.processId = true <;>
        simp [EventRecord.assigned, EventRecord.tells, here]
    rw [List.singleton_append] at later assigned
    rw [assignedFrom, assigned, later, ih, same]

end

namespace JournalLog

/-- What the last event of a kind in a run says. -/
def told (log : JournalLog) (runId : String) (kind : String → String → Bool) : Option (String × String) :=
  lastTold kind (log.events runId)

/-- The events that units record for a run. -/
def eventsIn (units : List CommandUnit) (runId : String) : List EventRecord :=
  units.flatMap (·.eventsOf runId)

theorem told_acceptUnit (log : JournalLog) (u : CommandUnit) (runId : String)
    (kind : String → String → Bool) :
    (log.acceptUnit u).2.told runId kind = (lastTold kind (u.eventsOf runId)).or (log.told runId kind) := by
  unfold told CommandUnit.eventsOf
  rw [events_acceptUnit]
  by_cases here : u.command.runId = runId
  · have accepted : (log.acceptUnit u).1.events =
        assignedFrom u.command (log.eventSeq u.command.runId) u.events := rfl
    rw [if_pos here, if_pos here, lastTold_append, accepted, lastTold_assignedFrom]
  · rw [if_neg here, if_neg here]
    rfl

theorem told_acceptAll (log : JournalLog) (units : List CommandUnit) (runId : String)
    (kind : String → String → Bool) :
    (log.acceptAll units).2.told runId kind =
      (lastTold kind (eventsIn units runId)).or (log.told runId kind) := by
  induction units generalizing log with
  | nil => rfl
  | cons u rest ih =>
    have step := ih (log.acceptUnit u).2
    show (((log.acceptUnit u).2).acceptAll rest).2.told runId kind = _
    have both : lastTold kind (eventsIn (u :: rest) runId) =
        (lastTold kind (eventsIn rest runId)).or (lastTold kind (u.eventsOf runId)) := lastTold_append ..
    rw [step, told_acceptUnit, ← Option.or_assoc, both]

theorem told_appendBatch {log : JournalLog} {units : List CommandUnit} (fresh : log.Fresh units)
    (batchRunId runId : String) (kind : String → String → Bool) :
    (log.appendBatch (.of batchRunId units)).2.told runId kind =
      (lastTold kind (eventsIn units runId)).or (log.told runId kind) := by
  by_cases none : units = []
  · subst none
    rfl
  · have accepted : log.appendBatch (.of batchRunId units) = _ := appendBatch_fresh none fresh
    rw [accepted]
    exact told_acceptAll log units runId kind

/-- The log after a unit is accepted or replayed. -/
def posted (log : JournalLog) (u : CommandUnit) : JournalLog :=
  (log.appendBatch (.of u.command.runId [u])).2

theorem posted_known {log : JournalLog} {u : CommandUnit} (known : log.hasKey u.key = true) :
    log.posted u = log := by
  have ⟨stored, found⟩ := Option.isSome_iff_exists.mp known
  simp [posted, appendBatch, JournalBatch.of, found]

theorem hasKey_posted (log : JournalLog) (u : CommandUnit) (key : String) :
    (log.posted u).hasKey key = (decide (u.key = key) || log.hasKey key) := by
  by_cases known : log.hasKey u.key = true
  · rw [posted_known known]
    by_cases same : u.key = key
    · subst same
      simp [known]
    · simp [same]
  · have fresh : log.Fresh [u] := ⟨Bool.eq_false_iff.mpr known, trivial⟩
    have accepted : log.appendBatch (.of u.command.runId [u]) = _ := appendBatch_fresh (List.cons_ne_nil _ _) fresh
    rw [posted, accepted]
    exact hasKey_acceptUnit log u key

end JournalLog

namespace MemoryRuntime

variable {τ : Type} [Seconds τ]

omit [Seconds τ] in
theorem appendUnit_eq (rt : MemoryRuntime τ) (u : CommandUnit)
    (commit : AppendResult → MemoryRuntime τ → MemoryRuntime τ) :
    ∃ result : AppendResult, result.replayed = rt.journal.hasKey u.key ∧
      rt.appendUnit u commit =
        (.ok result, commit result
          { rt with journal := { rt.journal with toJournalLog := rt.journal.toJournalLog.posted u } }) := by
  have answer := JournalLog.appendBatch_answer rt.journal.toJournalLog (.of u.command.runId [u])
  unfold appendUnit InMemoryJournal.appendBatch JournalLog.posted
  generalize rt.journal.toJournalLog.appendBatch (.of u.command.runId [u]) = outcome at answer
  cases answer with
  | empty none => cases none
  | @replays lead others stored units known =>
    cases units
    exact ⟨_, by simp [JournalLog.hasKey, known], rfl⟩
  | partly units _ member => cases units; cases member
  | accepts _ fresh => exact ⟨_, fresh.1.symm, rfl⟩
  | @stops done rest lead v units =>
    have length := congrArg List.length units
    simp [JournalBatch.of] at length

end MemoryRuntime
end Fala.Memory

namespace Fala.Memory
open Correlation Durable
open Jsonl (Bytes Ember utf8)

variable {τ : Type} [Seconds τ]

inductive RuntimeCall (τ : Type) where
  | createRun (runId title metadataJson idempotencyKey : String)
  | setRunStatus (runId status idempotencyKey : String)
  | acceptImpulse (impulse : Impulse) (idempotencyKey : String)
  | schedule (plan : CorrelationProcessPlan Bytes)
  | complete (processId actor outputJson idempotencyKey : String)
  | fail (processId actor errorJson : String)
  | advance (runId : String)
  | claim (workerId runId : String) (leaseSeconds : τ)
  | tick (seconds : τ)

namespace MemoryRuntime

section
variable (e : Ember) (digest : Json → String)

def step (rt : MemoryRuntime τ) : RuntimeCall τ → MemoryRuntime τ
  | .createRun runId title metadataJson idempotencyKey => (rt.createRun runId title metadataJson idempotencyKey).2
  | .setRunStatus runId status idempotencyKey => (rt.setRunStatus runId status idempotencyKey).2
  | .acceptImpulse impulse idempotencyKey => (rt.acceptImpulse impulse idempotencyKey).2
  | .schedule plan => (rt.scheduleProcessPlan plan).2
  | .complete processId actor outputJson idempotencyKey =>
    (rt.completeProcess processId actor outputJson idempotencyKey).2
  | .fail processId actor errorJson => (rt.failProcess processId actor errorJson).2
  | .advance runId => (rt.advance e digest runId).2
  | .claim workerId runId leaseSeconds => (rt.claimNext workerId runId leaseSeconds).2
  | .tick seconds => { rt with clock := rt.clock + seconds }

end

/-! What each operation does to the runtime, said once. -/

/-- The runtime after a unit is accepted or replayed. -/
def post (rt : MemoryRuntime τ) (u : CommandUnit) : MemoryRuntime τ :=
  { rt with journal := { rt.journal with toJournalLog := rt.journal.toJournalLog.posted u } }

/-- A row is written with its extra, after a unit about it. -/
def put (rt : MemoryRuntime τ) (u : CommandUnit) (row : ProcessRecord τ) (extra : ProcessExtra) : MemoryRuntime τ :=
  { rt.post u with
    journal := { rt.journal with
      toJournalLog := rt.journal.toJournalLog.posted u
      processes := rt.journal.processes.upsert row }
    extras := rt.extras.set row.id extra }

section

variable {rt : MemoryRuntime τ}

omit [Seconds τ] in
theorem createRun_eq (rt : MemoryRuntime τ) (runId title metadataJson idempotencyKey : String) :
    (rt.createRun runId title metadataJson idempotencyKey).2 =
      if rt.journal.hasKey (createUnit runId idempotencyKey).key then rt
      else { rt.post (createUnit runId idempotencyKey) with
        runs := rt.runs.set runId ⟨runId, "created", title, metadataJson⟩ } := by
  unfold createRun
  by_cases known : rt.journal.hasKey (createUnit runId idempotencyKey).key = true
  · rw [if_pos known]
    exact congrArg Prod.snd (if_pos known)
  · have ⟨result, replayed, done⟩ := rt.appendUnit_eq (createUnit runId idempotencyKey) fun result rt =>
      if result.replayed then rt else { rt with runs := rt.runs.set runId ⟨runId, "created", title, metadataJson⟩ }
    rw [if_neg known]
    refine (congrArg Prod.snd (if_neg known)).trans ?_
    rw [done, replayed, Bool.eq_false_iff.mpr known]
    rfl

omit [Seconds τ] in
theorem setRunStatus_eq (rt : MemoryRuntime τ) (runId status idempotencyKey : String) :
    (rt.setRunStatus runId status idempotencyKey).2 =
      match rt.runs.get runId with
      | none => rt
      | some row =>
        if canTransitionRun (.ofValue row.status) (.ofValue status) then
          { rt.post (statusUnit runId status idempotencyKey) with runs := rt.runs.set runId { row with status } }
        else rt := by
  unfold setRunStatus
  cases rt.runs.get runId with
  | none => rfl
  | some row =>
    dsimp only
    by_cases legal : canTransitionRun (.ofValue row.status) (.ofValue status) = true
    · have ⟨result, _, done⟩ := rt.appendUnit_eq (statusUnit runId status idempotencyKey) fun _ rt =>
        { rt with runs := rt.runs.set runId { row with status } }
      rw [if_neg (not_not.mpr legal), if_pos legal, done]
      rfl
    · rw [if_pos legal, if_neg legal]

omit [Seconds τ] in
theorem acceptImpulse_eq (rt : MemoryRuntime τ) (impulse : Impulse) (idempotencyKey : String) :
    ∃ impulses, (rt.acceptImpulse impulse idempotencyKey).2 =
      if (rt.runs.get impulse.runId).isNone then rt
      else { rt.post (impulseUnit impulse idempotencyKey) with impulses } := by
  unfold acceptImpulse
  by_cases missing : (rt.runs.get impulse.runId).isNone = true
  · rw [if_pos missing]
    exact ⟨rt.impulses, (if_pos missing).symm⟩
  · have ⟨result, _, done⟩ := rt.appendUnit_eq (impulseUnit impulse idempotencyKey) fun result rt =>
      if result.replayed then rt else { rt with impulses := rt.impulses.set impulse.id impulse }
    rw [if_neg missing, done]
    dsimp only
    by_cases replayed : result.replayed = true
    · exact ⟨rt.impulses, by rw [if_pos replayed, if_neg missing]; rfl⟩
    · exact ⟨rt.impulses.set impulse.id impulse, by rw [if_neg replayed, if_neg missing]; rfl⟩

theorem scheduleProcessPlan_eq (rt : MemoryRuntime τ) (plan : CorrelationProcessPlan Bytes) :
    (rt.scheduleProcessPlan plan).2 =
      if rt.journal.hasKey (scheduleUnit plan).key then rt
      else rt.put (scheduleUnit plan) (.planned plan rt.clock) (.planned plan) := by
  unfold scheduleProcessPlan
  by_cases known : rt.journal.hasKey (scheduleUnit plan).key = true
  · rw [if_pos known]
    exact congrArg Prod.snd (if_pos known)
  · have ⟨result, replayed, done⟩ := rt.appendUnit_eq (scheduleUnit plan) fun result rt =>
      if result.replayed then rt
      else { rt with
        journal := rt.journal.seedProcess (.planned plan rt.clock)
        extras := rt.extras.set plan.id (.planned plan) }
    rw [if_neg known]
    refine (congrArg Prod.snd (if_neg known)).trans ?_
    rw [done, replayed, Bool.eq_false_iff.mpr known]
    rfl

theorem transitionProcess_columns {row finished : ProcessRecord τ} {toStatus : ProcessStatus} {actor : String}
    (moved : row.transitionProcess toStatus actor = .ok finished) :
    canTransitionProcess row.status toStatus = true ∧
      finished.unleased = { row with status := toStatus, leaseOwner := "", leaseExpiresAt := 0 } := by
  unfold ProcessRecord.transitionProcess at moved
  split at moved
  · cases moved
  · rename_i legal
    split at moved
    · cases moved
    · split at moved <;> cases moved <;> exact ⟨not_not.mp legal, rfl⟩

theorem finishProcess_eq {processId actor : String} {toStatus : ProcessStatus} {outputJson : Bytes}
    {unitOf : ProcessRecord τ → CommandUnit} :
    (rt.finishProcess processId toStatus actor outputJson unitOf).2 =
      match rt.journal.processes.find? processId with
      | none => rt
      | some row =>
        match row.transitionProcess toStatus actor with
        | .error _ => rt
        | .ok finished =>
          (rt.post (unitOf finished.unleased)).seedFinished processId finished.unleased outputJson := by
  unfold finishProcess InMemoryJournal.getProcess
  cases rt.journal.processes.find? processId with
  | none => rfl
  | some row =>
    dsimp only
    cases row.transitionProcess toStatus actor with
    | error => rfl
    | ok finished =>
      have ⟨result, _, done⟩ := rt.appendUnit_eq (unitOf finished.unleased) fun _ rt =>
        rt.seedFinished processId finished.unleased outputJson
      dsimp only
      rw [done]
      rfl

omit [Seconds τ] in
theorem seedFinished_eq {u : CommandUnit} {row : ProcessRecord τ} {extra : ProcessExtra}
    (held : rt.extras.get row.id = some extra) (outputJson : Bytes) :
    (rt.post u).seedFinished row.id row outputJson = rt.put u row { extra with outputJson } := by
  unfold seedFinished
  rw [show (rt.post u).extras.get row.id = some extra from held]
  rfl

end

end MemoryRuntime
end Fala.Memory
