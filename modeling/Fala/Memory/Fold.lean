import Fala.Jsonl.Reader
import Fala.Memory.Promoted

namespace Fala.Memory
open Correlation Durable
open Jsonl (Bytes Ember utf8)

variable {τ : Type} [Seconds τ]

namespace MemoryRuntime

section Advance

variable (e : Ember) (digest : Json → String)

omit [Seconds τ] in
theorem Folded.promoted {rt : MemoryRuntime τ} {row : ProcessRecord τ} {extras : Dict String ProcessExtra}
    {extra : ProcessExtra} (folded : rt.Folded) (fresh : rt.journal.hasKey (readyUnit row.runId row.id).key = false)
    (held : extras.get row.id = some extra) (others : ∀ id, id ≠ row.id → extras.get id = rt.extras.get id) :
    Folded { rt.promoted row.runId row with extras } := by
  refine folded.post_process { row with status := .ready } fresh ?_ held others rfl
  show aboutProcess row.id "process.readied" row.id = true
  simp [aboutProcess]

omit [Seconds τ] in
/-- Every process that `advance` comes to is logged as it becomes ready. -/
theorem Folded.advanceEach {runId : String} {ids : List String} {start rt : MemoryRuntime τ} (folded : rt.Folded)
    (distinct : ids.Nodup) (ahead : Ahead start rt runId ids)
    (waiting : ∀ id ∈ ids, ∃ row, start.journal.processes.find? id = some row ∧ row.runId = runId ∧ row.status = .pending)
    (logs : ∀ id ∈ start.reached e digest ids, start.journal.hasKey (readyUnit runId id).key = false) :
    (rt.advanceEach e digest runId ids).2.Folded := by
  induction ids generalizing rt with
  | nil => exact folded
  | cons id rest ih =>
    have ⟨first, later⟩ := List.nodup_cons.mp distinct
    have ⟨row, held, run, pending⟩ := waiting id List.mem_cons_self
    rw [← ahead.rows id List.mem_cons_self] at held
    have ⟨member, here⟩ := Table.find?_some.mp held
    subst here run
    have ⟨extra, found⟩ := folded.extra member
    have unused := logs row.id List.mem_cons_self
    rw [← ahead.keys row.id List.mem_cons_self] at unused
    have conducted := ahead.raises e digest List.mem_cons_self found
    unfold MemoryRuntime.advanceEach
    rw [advanceOne_eq e digest row.runId held pending found]
    cases outcome : rt.conductionInput e digest extra.conduction with
    | error message => exact folded.promoted unused found fun _ _ => rfl
    | ok inputJson =>
      have set : (rt.extras.set row.id { extra with inputJson }).get row.id = some { extra with inputJson } :=
        (Dict.get_set ..).trans (if_pos rfl)
      have kept : ∀ id, id ≠ row.id → (rt.extras.set row.id { extra with inputJson }).get id = rt.extras.get id :=
        fun id other => (Dict.get_set ..).trans (if_neg (Ne.symm other))
      have grown := folded.promoted unused set kept
      refine ih grown later (ahead.next first held pending found inputJson) ?_ ?_
      · exact fun id member => waiting id (List.mem_cons_of_mem _ member)
      · intro id member
        rw [outcome] at conducted
        refine logs id ?_
        rw [reached, conducted]
        exact List.mem_cons_of_mem _ member

/-- The processes that `advance` would promote. -/
def promotable (rt : MemoryRuntime τ) (runId : String) : List String :=
  (rt.advancement runId).readied.map (·.id)

omit [Seconds τ] in
theorem promotable_eq (rt : MemoryRuntime τ) (runId : String) :
    rt.promotable runId = (readyStates (rt.executionStates runId)).map (·.processId) := by
  unfold promotable advancement advanceCorrelationStates
  rw [List.map_map]
  rfl

omit [Seconds τ] in
theorem promotable_waiting {rt : MemoryRuntime τ} {runId id : String} (listed : id ∈ rt.promotable runId) :
    ∃ row, rt.journal.processes.find? id = some row ∧ row.runId = runId ∧ row.status = .pending := by
  rw [promotable_eq] at listed
  have ⟨state, member, same⟩ := List.mem_map.mp listed
  have ⟨waits, _⟩ := List.mem_filter.mp member
  have ⟨states, pending⟩ := List.mem_filter.mp waits
  have ⟨row, held, here⟩ := List.mem_map.mp states
  have ⟨rows, run⟩ := List.mem_filter.mp held
  subst here
  exact ⟨row, Table.find?_some.mpr ⟨rows, same⟩, of_decide_eq_true run, of_decide_eq_true pending⟩

omit [Seconds τ] in
theorem promotable_nodup (rt : MemoryRuntime τ) (runId : String) : (rt.promotable runId).Nodup := by
  have states : ((rt.executionStates runId).map (·.processId)).Nodup := by
    unfold executionStates
    rw [List.map_map]
    exact List.Nodup.sublist (List.Sublist.map _ List.filter_sublist) rt.journal.processes.distinct
  rw [promotable_eq]
  refine List.Nodup.sublist (List.Sublist.map _ ?_) states
  exact List.filter_sublist.trans List.filter_sublist

omit [Seconds τ] in
theorem Folded.advance {rt : MemoryRuntime τ} {runId : String} (folded : rt.Folded)
    (logs : ∀ id ∈ rt.reached e digest (rt.promotable runId), rt.journal.hasKey (readyUnit runId id).key = false) :
    (rt.advance e digest runId).2.Folded :=
  folded.advanceEach e digest (rt.promotable_nodup runId) (.refl rt runId _) (fun _ => promotable_waiting) logs

end Advance

section Claim

variable {rt : MemoryRuntime τ} {r : ClaimRequest τ}

theorem mem_claimUnits {u : CommandUnit} (member : u ∈ rt.journal.claimUnits r) :
    (∃ row ∈ rt.journal.expired r, u = r.failUnit row) ∨
      ∃ chosen ∈ (rt.journal.queue r).head?, u = r.claimUnit (chosen.claim r.workerId r.now r.leaseSeconds) := by
  rcases List.mem_append.mp member with reaped | taken
  · have ⟨row, expired, same⟩ := List.mem_map.mp reaped
    exact .inl ⟨row, expired, same.symm⟩
  · have ⟨chosen, head, same⟩ := Option.map_eq_some_iff.mp (Option.mem_toList.mp taken)
    exact .inr ⟨chosen, head, same.symm⟩

theorem mem_eventsIn {units : List CommandUnit} {runId : String} {event : EventRecord} :
    event ∈ JournalLog.eventsIn units runId ↔ ∃ u ∈ units, u.command.runId = runId ∧ event ∈ u.events := by
  simp only [JournalLog.eventsIn, List.mem_flatMap, CommandUnit.eventsOf]
  refine exists_congr fun u => and_congr_right fun _ => ?_
  by_cases here : u.command.runId = runId <;> simp [here]

theorem claim_event {runId : String} {event : EventRecord}
    (member : event ∈ JournalLog.eventsIn (rt.journal.claimUnits r) runId) :
    (∃ row ∈ rt.journal.expired r, event.processId = row.id ∧ event.tells = ("process.failed", oneField "process_id" row.id)) ∨
      ∃ chosen ∈ (rt.journal.queue r).head?, event.processId = chosen.id ∧ event.tells.1 = "process.claimed" ∧
        event ∈ (r.claimUnit (chosen.claim r.workerId r.now r.leaseSeconds)).events := by
  have ⟨u, listed, _, held⟩ := mem_eventsIn.mp member
  rcases mem_claimUnits listed with ⟨row, expired, rfl⟩ | ⟨chosen, head, rfl⟩
  · cases List.mem_singleton.mp held
    exact .inl ⟨row, expired, rfl, rfl⟩
  · have held' := held
    cases List.mem_singleton.mp held
    exact .inr ⟨chosen, head, rfl, rfl, held'⟩

theorem Folded.granted (folded : rt.Folded) (fresh : rt.journal.Fresh (rt.journal.claimUnits r)) (batchRunId : String) :
    Folded { rt with journal := { rt.journal.granted r with
      toJournalLog := (rt.journal.toJournalLog.appendBatch (.of batchRunId (rt.journal.claimUnits r))).2 } } := by
  have told (runId : String) (kind : String → String → Bool) :=
    JournalLog.told_appendBatch fresh batchRunId runId kind
  have chosenRow {chosen : ProcessRecord τ} (head : chosen ∈ (rt.journal.queue r).head?) :
      ∃ rest, rt.journal.queue r = chosen :: rest := List.head?_eq_some_iff.mp head
  constructor
  · intro runId row held
    obtain ⟨before, last, tells⟩ := folded.runs runId row held
    refine ⟨before, ?_, tells⟩
    show JournalLog.told _ runId aboutRun = some before
    rw [told, lastTold_none, Option.none_or, last]
    intro event member
    rcases claim_event member with ⟨_, _, _, tells⟩ | ⟨_, _, _, tells, _⟩
    · have type : event.eventType = "process.failed" := congrArg Prod.fst tells
      rw [type]
      rfl
    · have type : event.eventType = "process.claimed" := tells
      rw [type]
      rfl
  · intro row held
    show ∃ extra told, rt.extras.get row.id = some extra ∧
      JournalLog.told _ row.runId (aboutProcess row.id) = some told ∧ _
    rw [told]
    -- Rows that the claim leaves alone, of which its events say nothing.
    have kept (row : ProcessRecord τ) (member : row ∈ rt.journal.processes.rows) (stays : r.reaps row = false)
        (other : ∀ chosen ∈ (rt.journal.queue r).head?, chosen.id ≠ row.id) :
        ∃ extra told, rt.extras.get row.id = some extra ∧
          (lastTold (aboutProcess row.id) (JournalLog.eventsIn (rt.journal.claimUnits r) row.runId)).or
            (rt.journal.told row.runId (aboutProcess row.id)) = some told ∧
          impliedStatus (plannedStatus extra.conduction) told = some row.status := by
      rw [lastTold_none, Option.none_or]
      · exact folded.processes row member
      · intro event listed
        have apart : event.processId ≠ row.id := by
          rcases claim_event listed with ⟨reaped, expired, same, _⟩ | ⟨chosen, head, same, _⟩
          · intro here
            obtain ⟨found, reaps⟩ := List.mem_filter.mp expired
            have one := Table.find?_some.mpr ⟨found, same.symm.trans here⟩
            rw [Table.find?_some.mpr ⟨member, rfl⟩] at one
            cases one
            rw [stays] at reaps
            cases reaps
          · exact fun here => other chosen head (same.symm.trans here)
        simp [aboutProcess, apart]
    have reaped (row : ProcessRecord τ) (member : row ∈ rt.journal.processes.rows) (reaps : r.reaps row = true) :
        ∃ extra told, rt.extras.get row.id = some extra ∧
          (lastTold (aboutProcess row.id) (JournalLog.eventsIn (rt.journal.claimUnits r) row.runId)).or
            (rt.journal.told row.runId (aboutProcess row.id)) = some told ∧
          impliedStatus (plannedStatus extra.conduction) told = some row.reap.status := by
      have expired : row ∈ rt.journal.expired r := List.mem_filter.mpr ⟨member, reaps⟩
      obtain ⟨extra, found⟩ := folded.extra member
      refine ⟨extra, ("process.failed", oneField "process_id" row.id), found, ?_, rfl⟩
      rw [lastTold_some ?_ ?_, Option.some_or]
      · have listed : r.failUnit row ∈ rt.journal.claimUnits r :=
          List.mem_append_left _ (List.mem_map_of_mem expired)
        refine ⟨_, mem_eventsIn.mpr ⟨_, listed, rfl, List.mem_singleton.mpr rfl⟩, ?_⟩
        simp [aboutProcess]
      · intro event listed about
        simp only [aboutProcess, Bool.and_eq_true, decide_eq_true_eq] at about
        rcases claim_event listed with ⟨other, _, same, tells⟩ | ⟨chosen, head, same, _⟩
        · rw [tells, ← same, about.1]
        · obtain ⟨rest, queue⟩ := chosenRow head
          exact absurd (same.symm.trans about.1) (InMemoryJournal.expired_ne_head expired queue)
    have reapedRows (row : ProcessRecord τ) (member : row ∈ (rt.journal.reaped r).processes.rows)
        (other : ∀ chosen ∈ (rt.journal.queue r).head?, chosen.id ≠ row.id) :
        ∃ extra told, rt.extras.get row.id = some extra ∧
          (lastTold (aboutProcess row.id) (JournalLog.eventsIn (rt.journal.claimUnits r) row.runId)).or
            (rt.journal.told row.runId (aboutProcess row.id)) = some told ∧
          impliedStatus (plannedStatus extra.conduction) told = some row.status := by
      obtain ⟨old, listed, same⟩ := List.mem_map.mp member
      by_cases reaps : r.reaps old = true
      · rw [if_pos reaps] at same
        subst same
        exact reaped old listed reaps
      · rw [if_neg reaps] at same
        subst same
        exact kept old listed (Bool.eq_false_iff.mpr reaps) other
    unfold InMemoryJournal.granted at held
    cases queue : rt.journal.queue r with
    | nil =>
      rw [queue] at held
      exact reapedRows row held (by simp [queue])
    | cons chosen rest =>
      rw [queue] at held
      have head : chosen ∈ (rt.journal.queue r).head? := by simp [queue]
      rcases Table.mem_upsert.mp held with rfl | ⟨held, other⟩
      · have listed := (List.mem_filter.mp (readyProcesses_head queue).1).1
        obtain ⟨extra, found⟩ := folded.extra listed
        refine ⟨extra, ("process.claimed",
          "\x7b\"process_id\":\"" ++ chosen.id ++ "\",\"worker_id\":\"" ++ r.workerId ++ "\"\x7d"), found, ?_, rfl⟩
        rw [lastTold_some ?_ ?_, Option.some_or]
        · have listed : r.claimUnit (chosen.claim r.workerId r.now r.leaseSeconds) ∈ rt.journal.claimUnits r := by
            refine List.mem_append_right _ ?_
            rw [queue]
            exact List.mem_singleton.mpr rfl
          refine ⟨_, mem_eventsIn.mpr ⟨_, listed, rfl, List.mem_singleton.mpr rfl⟩, ?_⟩
          simp [aboutProcess, ProcessRecord.claim]
        · intro event listed about
          simp only [aboutProcess, Bool.and_eq_true, decide_eq_true_eq] at about
          rcases claim_event listed with ⟨row, expired, same, _⟩ | ⟨taken, first, _, _, held⟩
          · have here : event.processId = chosen.id := about.1
            exact absurd (here.symm.trans same) (InMemoryJournal.expired_ne_head expired queue)
          · rw [queue] at first
            cases first
            cases List.mem_singleton.mp held
            rfl
      · refine reapedRows row held fun taken first => ?_
        rw [queue] at first
        cases first
        exact fun same => other same.symm

/-- A claim is logged: it changes nothing, every unit of it is new, or it only takes over a
    running row. -/
def ClaimLogs (rt : MemoryRuntime τ) (r : ClaimRequest τ) : Prop :=
  r.refusal ≠ none ∨
    ((rt.journal.queue r = [] ∨ r.workerId ≠ "") ∧ rt.journal.Fresh (rt.journal.claimUnits r)) ∨
    (rt.journal.expired r = [] ∧
      (r.workerId = "" ∨ ∀ chosen ∈ (rt.journal.queue r).head?, chosen.status = .running))

instance (rt : MemoryRuntime τ) (r : ClaimRequest τ) : Decidable (rt.ClaimLogs r) :=
  inferInstanceAs (Decidable (_ ∨ _ ∨ _))

theorem Folded.claim (folded : rt.Folded) (logs : rt.ClaimLogs r) :
    Folded { rt with journal := (rt.journal.claimNext r).2 } := by
  by_cases refused : r.refusal = none
  · by_cases named : rt.journal.queue r = [] ∨ r.workerId ≠ ""
    · obtain ⟨runId, granted⟩ := InMemoryJournal.claimNext_granted refused named
      rw [granted]
      by_cases fresh : rt.journal.Fresh (rt.journal.claimUnits r)
      · exact folded.granted fresh runId
      · obtain ⟨unreaped, running⟩ : rt.journal.expired r = [] ∧
            (r.workerId = "" ∨ ∀ chosen ∈ (rt.journal.queue r).head?, chosen.status = .running) := by
          rcases logs with refuses | ⟨_, new⟩ | running
          · exact absurd refused refuses
          · exact absurd new fresh
          · exact running
        have same := InMemoryJournal.reaped_eq unreaped
        have units : rt.journal.claimUnits r = ((rt.journal.queue r).head?.map fun chosen =>
            r.claimUnit (chosen.claim r.workerId r.now r.leaseSeconds)).toList := by
          rw [InMemoryJournal.claimUnits, unreaped, List.map_nil, List.nil_append]
        cases queue : rt.journal.queue r with
        | nil =>
          rw [units, queue] at fresh
          exact absurd trivial fresh
        | cons chosen rest =>
          have hasName : r.workerId ≠ "" := named.resolve_left (by rw [queue]; exact List.cons_ne_nil _ _)
          have running := running.resolve_left hasName chosen (by simp [queue])
          have listed := (List.mem_filter.mp (readyProcesses_head queue).1).1
          rw [queue, List.head?_cons, Option.map_some, Option.toList_some] at units
          have known : rt.journal.hasKey (r.claimUnit (chosen.claim r.workerId r.now r.leaseSeconds)).key = true := by
            by_contra unused
            rw [units] at fresh
            exact fresh ⟨Bool.eq_false_iff.mpr unused, trivial⟩
          have log : (rt.journal.toJournalLog.appendBatch (.of runId (rt.journal.claimUnits r))).2 =
              rt.journal.toJournalLog := by
            obtain ⟨stored, found⟩ := Option.isSome_iff_exists.mp known
            rw [units]
            simp [JournalLog.appendBatch, JournalBatch.of, found]
          rw [log]
          refine ⟨folded.runs, fun row held => ?_⟩
          unfold InMemoryJournal.granted at held
          rw [queue] at held
          rcases Table.mem_upsert.mp held with rfl | ⟨held, _⟩
          · obtain ⟨extra, told, found, last, implied⟩ := folded.processes chosen listed
            exact ⟨extra, told, found, last, implied.trans (congrArg some running)⟩
          · rw [same] at held
            exact folded.processes row held
    · obtain ⟨found, noName⟩ := not_or.mp named
      have noName := not_not.mp noName
      have none : rt.journal.expired r = [] := by
        rcases logs with refuses | ⟨named', _⟩ | ⟨none, _⟩
        · exact absurd refused refuses
        · exact absurd named' named
        · exact none
      rw [InMemoryJournal.claimNext_nameless refused found noName, InMemoryJournal.reaped_eq none]
      exact folded
  · obtain ⟨message, refusal⟩ := Option.ne_none_iff_exists'.mp refused
    rw [InMemoryJournal.claimNext_refused refusal]
    exact folded

end Claim

section History

variable (e : Ember) (digest : Json → String)

/-- The call finds the keys of what it changes unused, and a plan is scheduled with the status
    that it is planned with. -/
def Logs (rt : MemoryRuntime τ) : RuntimeCall τ → Prop
  | .createRun .. | .acceptImpulse .. | .tick _ => True
  | .setRunStatus runId status idempotencyKey =>
    ∀ row ∈ rt.runs.get runId, canTransitionRun (.ofValue row.status) (.ofValue status) = true →
      rt.journal.hasKey (statusUnit runId status idempotencyKey).key = false
  | .schedule plan =>
    rt.journal.hasKey (scheduleUnit plan).key = false → plan.status = plannedStatus plan.conduction
  | .complete processId actor _ idempotencyKey =>
    ∀ row ∈ rt.journal.processes.find? processId, (row.transitionProcess .succeeded actor).isOk →
      rt.journal.hasKey (completeUnit row actor idempotencyKey).key = false
  | .fail processId actor errorJson =>
    ∀ row ∈ rt.journal.processes.find? processId, (row.transitionProcess .failed actor).isOk →
      rt.journal.hasKey (failProcessUnit row actor errorJson).key = false
  | .advance runId =>
    ∀ id ∈ rt.reached e digest (rt.promotable runId), rt.journal.hasKey (readyUnit runId id).key = false
  | .claim workerId runId leaseSeconds => rt.ClaimLogs ⟨workerId, runId, leaseSeconds, false, rt.clock⟩

instance (rt : MemoryRuntime τ) : ∀ call : RuntimeCall τ, Decidable (rt.Logs e digest call)
  | .createRun .. | .acceptImpulse .. | .tick _ => .isTrue trivial
  | .setRunStatus .. => inferInstanceAs (Decidable (∀ row ∈ rt.runs.get _, _ → _))
  | .schedule _ => inferInstanceAs (Decidable (_ → _))
  | .complete .. | .fail .. => inferInstanceAs (Decidable (∀ row ∈ rt.journal.processes.find? _, _ → _))
  | .advance _ => inferInstanceAs (Decidable (∀ id ∈ rt.reached e digest _, _))
  | .claim .. => inferInstanceAs (Decidable (rt.ClaimLogs _))

theorem Folded.step {rt : MemoryRuntime τ} {call : RuntimeCall τ} (folded : rt.Folded) (logs : rt.Logs e digest call) :
    (rt.step e digest call).Folded := by
  have ended {row finished : ProcessRecord τ} {toStatus : ProcessStatus} {actor : String}
      (moved : row.transitionProcess toStatus actor = .ok finished) :
      finished.unleased.runId = row.runId ∧ finished.unleased.id = row.id ∧ finished.unleased.attempt = row.attempt := by
    rw [(transitionProcess_columns moved).2]
    exact ⟨rfl, rfl, rfl⟩
  cases call with
  | createRun runId title metadataJson idempotencyKey => exact folded.createRun runId title metadataJson idempotencyKey
  | setRunStatus runId status idempotencyKey => exact folded.setRunStatus logs
  | acceptImpulse impulse idempotencyKey => exact folded.acceptImpulse impulse idempotencyKey
  | schedule plan => exact folded.scheduleProcessPlan logs
  | complete processId actor outputJson idempotencyKey =>
    refine folded.finishProcess (fun _ => rfl) (fun id => by simp [aboutProcess]) (fun _ _ => rfl) ?_
    intro row found finished moved
    have fresh := logs row found (by rw [moved]; rfl)
    obtain ⟨run, id, attempt⟩ := ended moved
    simpa only [completeUnit, run, id, attempt] using fresh
  | fail processId actor errorJson =>
    refine folded.finishProcess (fun _ => rfl) (fun id => by simp [aboutProcess]) (fun _ _ => rfl) ?_
    intro row found finished moved
    have fresh := logs row found (by rw [moved]; rfl)
    obtain ⟨run, id, attempt⟩ := ended moved
    simpa only [failProcessUnit, run, id, attempt] using fresh
  | advance runId => exact folded.advance e digest logs
  | claim workerId runId leaseSeconds => exact folded.claim logs
  | tick seconds => exact ⟨folded.runs, folded.processes⟩

theorem Folded.init (streamId : String) : (MemoryRuntime.init streamId : MemoryRuntime τ).Folded where
  runs _ _ held := nomatch held
  processes _ held := nomatch held

/-- As long as every change is logged, the statuses are the ones that the log tells. -/
theorem statuses_folded {streamId : String} {calls past : List (RuntimeCall τ)}
    (logged : Along (step e digest) (Logs e digest) (.init streamId) calls) (reached : past <+: calls) :
    (execute (step e digest) (.init streamId) past).Folded := by
  have ⟨rest, whole⟩ := reached
  rw [← whole] at logged
  exact execute_along (.init streamId) (fun _ _ => Folded.step e digest) logged.append_left

end History

/-- The plan of an effector `id` of a run. -/
def planOf (runId id : String) (conduction : List String) : CorrelationProcessPlan Bytes :=
  { id := runId ++ ":p:" ++ id, runId, effectorId := id, declarationSeq := 0, status := plannedStatus conduction,
    priority := 0, maxAttempts := 1, timeoutSeconds := 0, inputJson := utf8 "\x7b\x7d",
    configJson := utf8 "\x7b\x7d", outputSchemaJson := utf8 "\x7b\x7d", conduction, whenJson := [],
    metadataJson := utf8 "\x7b\x7d", idempotencyKey := "" }

/-- A run of two effectors, the second of which is conducted the output of the first. -/
def chainCalls : List (RuntimeCall Int) :=
  [.createRun "r" "" "\x7b\x7d" "", .schedule (planOf "r" "a" []), .schedule (planOf "r" "b" ["a"]),
    .setRunStatus "r" "active" "", .claim "w" "r" 60, .complete "r:p:a" "w" "\x7b\"x\":1\x7d" "", .advance "r"]

theorem statuses_folded_chain :
    (execute (step Jsonl.reader fun _ => "") (.init "memory://runtime") chainCalls).Folded := by
  have logged : Along (step Jsonl.reader fun _ => "") (Logs Jsonl.reader fun _ => "") (.init "memory://runtime")
      chainCalls := by decide +kernel
  exact statuses_folded Jsonl.reader (fun _ => "") logged (List.prefix_refl _)

/-- A run that waits and becomes active again is not logged the second time. -/
def reenteredCalls : List (RuntimeCall Int) :=
  [.createRun "r" "" "\x7b\x7d" "", .setRunStatus "r" "active" "", .setRunStatus "r" "waiting" "",
    .setRunStatus "r" "active" ""]

theorem status_reentered :
    ¬ (execute (step Jsonl.reader fun _ => "") (.init "memory://runtime") reenteredCalls).Folded := by
  intro folded
  have ⟨told, last, tells⟩ := folded.runs "r" ⟨"r", "active", "", "\x7b\x7d"⟩ (by decide +kernel)
  have waiting : JournalLog.told
      (execute (step Jsonl.reader fun _ => "") (.init "memory://runtime") reenteredCalls).journal.toJournalLog "r" aboutRun =
        some ("run.status.changed", oneField "status" "waiting") := by decide +kernel
  rw [waiting] at last
  cases last
  have same := tells.status_eq (.inr ⟨rfl, rfl⟩ : RunTold _ "waiting")
  exact absurd same (by decide)

end MemoryRuntime
end Fala.Memory
