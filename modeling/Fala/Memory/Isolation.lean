import Fala.Memory.Isolated
import Fala.Memory.Readers

namespace Fala.Memory
open Correlation Durable
open Jsonl (Bytes Ember utf8)

variable {τ : Type} [Seconds τ]

namespace MemoryRuntime

section Claim

variable {rt alone : MemoryRuntime τ} {r : ClaimRequest τ} {runId : String}

omit [Seconds τ] in
theorem Beside.journal (journal other : InMemoryJournal τ) (beside : Beside runId rt alone)
    (log : JournalLog.SeenAlike runId journal.toJournalLog other.toJournalLog)
    (rows : other.processes.rows = journal.processes.rows.filter fun row => row.runId = runId)
    (stays : ∀ id, (journal.processes.find? id).map (·.runId) = (rt.journal.processes.find? id).map (·.runId)) :
    Beside runId { rt with journal } { alone with journal := other } where
  log := log
  rows := rows
  extras := by
    rw [beside.extras]
    refine List.filter_congr fun entry _ => ?_
    have same := congrArg (Option.any fun run => decide (run = runId)) (stays entry.1)
    rw [Option.any_map, Option.any_map] at same
    exact same.symm
  runs := beside.runs
  clock := beside.clock
  paired id := by
    have same := congrArg Option.isSome (stays id)
    rw [Option.isSome_map, Option.isSome_map] at same
    exact (beside.paired id).trans same.symm

theorem named_run (accepted : r.refusal = none) (oneRun : r.allRuns = false) : r.runId ≠ "" := by
  intro missing
  simp only [ClaimRequest.refusal, missing, oneRun] at accepted
  split at accepted
  · cases accepted
  · cases accepted

theorem serves_iff (accepted : r.refusal = none) (oneRun : r.allRuns = false) (row : ProcessRecord τ) :
    r.serves row = decide (row.runId = r.runId) := by
  simp [ClaimRequest.serves, named_run accepted oneRun]

theorem reaped_runs (j : InMemoryJournal τ) (r : ClaimRequest τ) (id : String) :
    ((j.reaped r).processes.find? id).map (·.runId) = (j.processes.find? id).map (·.runId) := by
  unfold InMemoryJournal.reaped
  rw [Table.find?_mapRows, Option.map_map]
  refine Option.map_congr fun row _ => ?_
  show (if r.reaps row then row.reap else row).runId = row.runId
  split <;> rfl

theorem granted_runs (j : InMemoryJournal τ) (r : ClaimRequest τ) (id : String) :
    ((j.granted r).processes.find? id).map (·.runId) = (j.processes.find? id).map (·.runId) := by
  unfold InMemoryJournal.granted
  split
  · exact reaped_runs j r id
  · rename_i chosen rest queue
    have listed := (List.mem_filter.mp (readyProcesses_head queue).1).1
    rw [Table.find?_upsert]
    by_cases here : chosen.id = id
    · rw [show (chosen.claim r.workerId r.now r.leaseSeconds).id = chosen.id from rfl, if_pos here, ← here,
        Table.find?_some.mpr ⟨listed, rfl⟩]
      rfl
    · rw [show (chosen.claim r.workerId r.now r.leaseSeconds).id = chosen.id from rfl, if_neg here]
      exact reaped_runs j r id

omit [Seconds τ] in
theorem reap_runId (row : ProcessRecord τ) [Seconds τ] (r : ClaimRequest τ) :
    (if r.reaps row then row.reap else row).runId = row.runId := by
  split <;> rfl

section Own

variable (beside : Beside runId rt alone) (own : r.runId = runId) (accepted : r.refusal = none)
  (oneRun : r.allRuns = false)

include beside own accepted oneRun

theorem Beside.served :
    alone.journal.processes.rows.filter r.serves = rt.journal.processes.rows.filter r.serves := by
  have serves : r.serves = fun row => decide (row.runId = runId) := by
    funext row
    rw [serves_iff accepted oneRun, own]
  rw [beside.rows, serves, List.filter_filter]
  simp

theorem Beside.expired : alone.journal.expired r = rt.journal.expired r := by
  have served := beside.served own accepted oneRun
  have among (rows : List (ProcessRecord τ)) : rows.filter r.reaps = (rows.filter r.serves).filter r.reaps := by
    rw [List.filter_filter]
    refine List.filter_congr fun row _ => ?_
    by_cases reaps : r.reaps row = true
    · have serves : r.serves row = true := by
        simp only [ClaimRequest.reaps, Bool.decide_and, Bool.and_eq_true] at reaps
        simpa using reaps.1
      simp [serves]
    · simp [reaps]
  unfold InMemoryJournal.expired
  rw [among, served, ← among]

theorem Beside.queue : alone.journal.queue r = rt.journal.queue r := by
  unfold InMemoryJournal.queue
  rw [beside.served own accepted oneRun]

theorem Beside.claimUnits : alone.journal.claimUnits r = rt.journal.claimUnits r := by
  unfold InMemoryJournal.claimUnits
  rw [beside.expired own accepted oneRun, beside.queue own accepted oneRun]

omit own accepted oneRun in
theorem Beside.reapedRows : (alone.journal.reaped r).processes.rows =
    (rt.journal.reaped r).processes.rows.filter fun row => row.runId = runId := by
  show alone.journal.processes.rows.map _ = (rt.journal.processes.rows.map _).filter _
  rw [beside.rows, List.filter_map]
  congr 1
  refine List.filter_congr fun row _ => ?_
  exact congrArg (fun run => decide (run = runId)) (reap_runId row r).symm

theorem Beside.grantedRows : (alone.journal.granted r).processes.rows =
    (rt.journal.granted r).processes.rows.filter fun row => row.runId = runId := by
  unfold InMemoryJournal.granted
  rw [beside.queue own accepted oneRun]
  have reaped := beside.reapedRows (r := r)
  cases queue : rt.journal.queue r with
  | nil => exact reaped
  | cons chosen rest =>
    have serves := (List.mem_filter.mp (readyProcesses_head queue).1).2
    rw [serves_iff accepted oneRun, own] at serves
    refine Table.upsert_filter reaped serves fun held found => ?_
    have runs := reaped_runs rt.journal r chosen.id
    have listed := (List.mem_filter.mp (readyProcesses_head queue).1).1
    rw [show (rt.journal.reaped r).processes.find? chosen.id = some held from found,
      Table.find?_some.mpr ⟨listed, rfl⟩] at runs
    have same : held.runId = chosen.runId := Option.some.inj runs
    rw [same]
    exact serves

theorem Beside.claim_own : Beside runId { rt with journal := (rt.journal.claimNext r).2 }
    { alone with journal := (alone.journal.claimNext r).2 } := by
  have queue := beside.queue own accepted oneRun
  by_cases named : rt.journal.queue r = [] ∨ r.workerId ≠ ""
  · have ⟨batchRunId, granted⟩ := InMemoryJournal.claimNext_granted accepted named
    have ⟨otherRunId, other⟩ := InMemoryJournal.claimNext_granted (j := alone.journal) accepted (queue ▸ named)
    rw [granted, other]
    refine beside.journal _ _ ?_ (beside.grantedRows own accepted oneRun) (granted_runs rt.journal r)
    have units := beside.claimUnits own accepted oneRun
    have oneRunUnits : ∀ u ∈ rt.journal.claimUnits r, u.command.runId = runId := by
      intro u member
      rw [InMemoryJournal.claimUnits_run (named_run accepted oneRun) u member, own]
    rw [units]
    exact beside.log.appendBatch (.of batchRunId (rt.journal.claimUnits r)) oneRunUnits rfl
  · have ⟨found, noName⟩ := not_or.mp named
    rw [InMemoryJournal.claimNext_nameless accepted found (not_not.mp noName),
      InMemoryJournal.claimNext_nameless accepted (queue ▸ found) (not_not.mp noName)]
    exact beside.journal _ _ beside.log beside.reapedRows (reaped_runs rt.journal r)

end Own

theorem Beside.claim_other (beside : Beside runId rt alone) (other : r.runId ≠ runId)
    (apart : KeysApart runId r.runId) (accepted : r.refusal = none) (oneRun : r.allRuns = false) :
    Beside runId { rt with journal := (rt.journal.claimNext r).2 } alone := by
  have serves := serves_iff (r := r) accepted oneRun
  have reaped : (rt.journal.reaped r).processes.rows.filter (fun row => row.runId = runId) =
      rt.journal.processes.rows.filter fun row => row.runId = runId := by
    show (rt.journal.processes.rows.map _).filter _ = _
    induction rt.journal.processes.rows with
    | nil => rfl
    | cons row rest ih =>
      rw [List.map_cons, List.filter_cons, List.filter_cons, ih, reap_runId]
      by_cases mine : row.runId = runId
      · have stays : r.reaps row = false := by
          have foreign : r.serves row = false := by
            rw [serves, mine]
            exact decide_eq_false (Ne.symm other)
          simp [ClaimRequest.reaps, foreign]
        simp [mine, stays]
      · simp [mine]
  by_cases named : rt.journal.queue r = [] ∨ r.workerId ≠ ""
  · obtain ⟨batchRunId, granted⟩ := InMemoryJournal.claimNext_granted accepted named
    rw [granted]
    refine beside.journal _ alone.journal ?_ ?_ (granted_runs rt.journal r)
    · refine beside.log.foreign (.of batchRunId (rt.journal.claimUnits r)) fun u member => ?_
      rw [InMemoryJournal.claimUnits_run (named_run accepted oneRun) u member]
      exact ⟨other, apart⟩
    · rw [beside.rows, ← reaped]
      unfold InMemoryJournal.granted
      cases queue : rt.journal.queue r with
      | nil => rfl
      | cons chosen rest =>
        obtain ⟨listed, served⟩ := List.mem_filter.mp (readyProcesses_head queue).1
        have foreign : chosen.runId ≠ runId := by
          rw [serves] at served
          exact fun mine => other ((of_decide_eq_true served).symm.trans mine)
        refine Eq.symm (Table.filter_upsert (p := fun row : ProcessRecord τ => decide (row.runId = runId)) ?_ ?_)
        · exact decide_eq_false foreign
        intro held found
        have runs := reaped_runs rt.journal r chosen.id
        rw [show (rt.journal.reaped r).processes.find? chosen.id = some held from found,
          Table.find?_some.mpr ⟨listed, rfl⟩] at runs
        have same : held.runId = chosen.runId := Option.some.inj runs
        exact decide_eq_false (same ▸ foreign)
  · obtain ⟨found, noName⟩ := not_or.mp named
    rw [InMemoryJournal.claimNext_nameless accepted found (not_not.mp noName)]
    refine beside.journal _ alone.journal beside.log ?_ (reaped_runs rt.journal r)
    rw [beside.rows, ← reaped]

end Claim

section Advance

variable (e : Ember) (digest : Json → String)

/-- The path that a process was planned for, as its metadata tell. -/
def pathOf (extra : ProcessExtra) : Option Json :=
  (e.parse extra.metadataJson).toOption.bind (·.member "correlation_path_id")

/-- The output of an entry of `extras` is conducted to a process. -/
def Conducts (rt : MemoryRuntime τ) (conduction : List String) (entry : String × ProcessExtra) : Prop :=
  entry.2.effectorId ∈ conduction ∧ ∃ row ∈ rt.journal.processes.find? entry.1, conducts row.status = true

instance (rt : MemoryRuntime τ) (conduction : List String) (entry : String × ProcessExtra) :
    Decidable (rt.Conducts conduction entry) := inferInstanceAs (Decidable (_ ∧ ∃ row ∈ _, _))

omit [Seconds τ] in
theorem conductionMembers_filter {rt : MemoryRuntime τ} (conduction : List String)
    {entries : List (String × ProcessExtra)} {p : String × ProcessExtra → Bool}
    (present : ∀ entry ∈ entries, (rt.journal.processes.find? entry.1).isSome = true)
    (out : ∀ entry ∈ entries, rt.Conducts conduction entry → p entry = true) :
    rt.conductionMembers e digest conduction entries =
      rt.conductionMembers e digest conduction (entries.filter p) := by
  induction entries with
  | nil => rfl
  | cons entry rest ih =>
    have ⟨here, later⟩ := List.forall_mem_cons.mp present
    have ⟨kept, others⟩ := List.forall_mem_cons.mp out
    have ⟨row, found⟩ := Option.isSome_iff_exists.mp here
    have ih := ih later others
    by_cases listed : p entry = true
    · rw [List.filter_cons_of_pos listed, conductionMembers, conductionMembers, ih]
    · have silent : ¬ (entry.2.effectorId ∈ conduction ∧ conducts row.status = true) :=
        fun both => listed (kept ⟨both.1, row, found, both.2⟩)
      rw [List.filter_cons_of_neg listed, ← ih, conductionMembers, InMemoryJournal.getProcess, found]
      exact if_neg silent

/-- Only processes of the run conduct to a process. -/
def OwnRun (rt : MemoryRuntime τ) (runId : String) (conduction : List String) : Prop :=
  ∀ entry ∈ rt.extras.rows, rt.Conducts conduction entry → rt.owns runId entry.1 = true

variable {rt alone : MemoryRuntime τ} {runId : String}

omit [Seconds τ] in
theorem Paired.present (paired : rt.Paired) :
    ∀ entry ∈ rt.extras.rows, (rt.journal.processes.find? entry.1).isSome = true := by
  intro entry member
  rw [← paired entry.1, Dict.get_some.mpr (show (entry.1, entry.2) ∈ rt.extras.rows from member)]
  rfl

omit [Seconds τ] in
theorem Beside.found (beside : Beside runId rt alone) {id : String} (owned : rt.owns runId id = true) :
    alone.journal.processes.find? id = rt.journal.processes.find? id := by
  rw [beside.find?]
  cases found : rt.journal.processes.find? id with
  | none => rfl
  | some row =>
    rw [owns, found, Option.any_some] at owned
    exact if_pos owned

omit [Seconds τ] in
theorem Beside.conductionInput {conduction : List String} (beside : Beside runId rt alone)
    (own : rt.OwnRun runId conduction) :
    alone.conductionInput e digest conduction = rt.conductionInput e digest conduction := by
  have members : rt.conductionMembers e digest conduction rt.extras.rows =
      alone.conductionMembers e digest conduction alone.extras.rows := by
    rw [conductionMembers_filter e digest conduction beside.paired.present own, ← beside.extras, conductionMembers_eq,
      conductionMembers_eq]
    refine congrArg _ (List.map_congr_left fun entry member => ?_)
    rw [beside.extras] at member
    have owned : rt.owns runId entry.1 = true := (List.mem_filter.mp member).2
    unfold upstream InMemoryJournal.getProcess
    rw [beside.found owned]
  unfold MemoryRuntime.conductionInput
  rw [members]

omit [Seconds τ] in
theorem promoted_eq {row : ProcessRecord τ} {extra : ProcessExtra} (found : rt.extras.get row.id = some extra) :
    rt.promoted row.runId row = rt.put (readyUnit row.runId row.id) { row with status := .ready } extra := by
  have same : rt.extras.set row.id extra = rt.extras := Dict.set_same found
  show rt.promoted row.runId row = { rt.promoted row.runId row with extras := rt.extras.set row.id extra }
  rw [same]
  rfl

omit [Seconds τ] in
theorem OwnRun.put {u : CommandUnit} {row : ProcessRecord τ} {extra : ProcessExtra} {conduction : List String}
    (own : rt.OwnRun runId conduction) (mine : row.runId = runId) : (rt.put u row extra).OwnRun runId conduction := by
  intro entry member conducted
  rw [owns_put]
  rcases Dict.mem_set member with rfl | ⟨member, other⟩
  · rw [if_pos rfl]
    exact decide_eq_true mine
  · rw [if_neg (Ne.symm other)]
    refine own entry member ⟨conducted.1, ?_⟩
    have ⟨held, found, conducts⟩ := conducted.2
    have same : (rt.journal.processes.upsert row).find? entry.1 = some held := found
    rw [Table.find?_upsert, if_neg (Ne.symm other)] at same
    exact ⟨held, same, conducts⟩

omit [Seconds τ] in
theorem Paired.extra (paired : rt.Paired) {id : String} {row : ProcessRecord τ}
    (held : rt.journal.processes.find? id = some row) : ∃ extra, rt.extras.get id = some extra := by
  have present := paired id
  rw [held] at present
  exact Option.isSome_iff_exists.mp present

omit [Seconds τ] in
/-- `advance` goes through the run's own processes in step. -/
theorem Beside.advanceEach {ids : List String} {start : MemoryRuntime τ} (beside : Beside runId rt alone)
    (distinct : ids.Nodup) (ahead : Ahead start rt runId ids)
    (waiting : ∀ id ∈ ids, ∃ row, start.journal.processes.find? id = some row ∧ row.runId = runId ∧ row.status = .pending)
    (own : ∀ id ∈ start.reached e digest ids, ∀ extra ∈ start.extras.get id, rt.OwnRun runId extra.conduction) :
    Beside runId (rt.advanceEach e digest runId ids).2 (alone.advanceEach e digest runId ids).2 := by
  induction ids generalizing rt alone with
  | nil => exact beside
  | cons id rest ih =>
    have ⟨first, later⟩ := List.nodup_cons.mp distinct
    have ⟨row, held, run, pending⟩ := waiting id List.mem_cons_self
    rw [← ahead.rows id List.mem_cons_self] at held
    have here := (Table.find?_some.mp held).2
    subst here run
    have ⟨extra, found⟩ := beside.paired.extra held
    have owned : rt.owns row.runId row.id = true := by
      rw [owns, held, Option.any_some]
      exact decide_eq_true rfl
    have heldAlone := (beside.found owned).trans held
    have foundAlone := (beside.get owned).trans found
    have mine := own row.id List.mem_cons_self extra ((ahead.extras row.id List.mem_cons_self).symm.trans found)
    have input := beside.conductionInput e digest mine
    have conducted := ahead.raises e digest List.mem_cons_self found
    have stays : ∀ old ∈ rt.journal.processes.find? row.id, old.runId = row.runId := by
      intro old same
      rw [held] at same
      cases same
      rfl
    unfold MemoryRuntime.advanceEach
    rw [advanceOne_eq e digest row.runId held pending found, advanceOne_eq e digest row.runId heldAlone pending foundAlone, input]
    cases outcome : rt.conductionInput e digest extra.conduction with
    | error message =>
      dsimp only
      rw [promoted_eq found, promoted_eq foundAlone]
      exact beside.put_own _ rfl rfl stays
    | ok inputJson =>
      refine ih (beside.put_own { row with status := .ready } rfl rfl stays) later
        (ahead.next first held pending found inputJson) ?_ ?_
      · exact fun id member => waiting id (List.mem_cons_of_mem _ member)
      · intro id member other found
        rw [outcome] at conducted
        refine OwnRun.put (own id ?_ other found) rfl
        rw [reached, conducted]
        exact List.mem_cons_of_mem _ member

omit [Seconds τ] in
theorem Beside.advanceEach_other {ids : List String} {start : MemoryRuntime τ} {other : String}
    (beside : Beside runId rt alone) (foreign : other ≠ runId) (apart : KeysApart runId other)
    (distinct : ids.Nodup) (ahead : Ahead start rt other ids)
    (waiting : ∀ id ∈ ids, ∃ row, start.journal.processes.find? id = some row ∧ row.runId = other ∧ row.status = .pending) :
    Beside runId (rt.advanceEach e digest other ids).2 alone := by
  induction ids generalizing rt with
  | nil => exact beside
  | cons id rest ih =>
    have ⟨first, later⟩ := List.nodup_cons.mp distinct
    have ⟨row, held, run, pending⟩ := waiting id List.mem_cons_self
    rw [← ahead.rows id List.mem_cons_self] at held
    have here := (Table.find?_some.mp held).2
    subst here run
    have ⟨extra, found⟩ := beside.paired.extra held
    have stays : ∀ old ∈ rt.journal.processes.find? row.id, old.runId ≠ runId := by
      intro old same
      rw [held] at same
      cases same
      exact foreign
    unfold MemoryRuntime.advanceEach
    rw [advanceOne_eq e digest row.runId held pending found]
    cases outcome : rt.conductionInput e digest extra.conduction with
    | error message =>
      dsimp only
      rw [promoted_eq found]
      exact beside.put_other _ foreign ⟨foreign, apart⟩ stays
    | ok inputJson =>
      refine ih (beside.put_other { row with status := .ready } foreign ⟨foreign, apart⟩ stays) later
        (ahead.next first held pending found inputJson) ?_
      exact fun id member => waiting id (List.mem_cons_of_mem _ member)

omit [Seconds τ] in
theorem Beside.executionStates (beside : Beside runId rt alone) :
    alone.executionStates runId = rt.executionStates runId := by
  unfold MemoryRuntime.executionStates
  rw [beside.rows, List.filter_filter]
  simp only [Bool.and_self]
  refine List.map_congr_left fun row member => ?_
  have ⟨listed, mine⟩ := List.mem_filter.mp member
  have owned : rt.owns runId row.id = true := by
    rw [owns, Table.find?_some.mpr ⟨listed, rfl⟩, Option.any_some]
    exact mine
  unfold executionState
  rw [beside.get owned]

omit [Seconds τ] in
theorem Beside.advance (beside : Beside runId rt alone)
    (own : ∀ id ∈ rt.reached e digest (rt.promotable runId), ∀ extra ∈ rt.extras.get id, rt.OwnRun runId extra.conduction) :
    Beside runId (rt.advance e digest runId).2 (alone.advance e digest runId).2 := by
  have same : (alone.advancement runId).readied.map (·.id) = (rt.advancement runId).readied.map (·.id) := by
    unfold advancement
    rw [beside.executionStates]
  show Beside runId (rt.advanceEach e digest runId ((rt.advancement runId).readied.map (·.id))).2
    (alone.advanceEach e digest runId ((alone.advancement runId).readied.map (·.id))).2
  rw [same]
  exact beside.advanceEach e digest (rt.promotable_nodup runId) (.refl rt runId _) (fun _ => promotable_waiting) own

omit [Seconds τ] in
theorem Beside.advance_other {other : String} (beside : Beside runId rt alone) (foreign : other ≠ runId)
    (apart : KeysApart runId other) : Beside runId (rt.advance e digest other).2 alone :=
  beside.advanceEach_other e digest foreign apart (rt.promotable_nodup other) (.refl rt other _)
    fun _ => promotable_waiting

end Advance

section Finish

variable {rt alone : MemoryRuntime τ} {runId processId actor : String} {toStatus : ProcessStatus}
  (outputJson : Bytes) {unitOf : ProcessRecord τ → CommandUnit}

theorem finishProcess_put (unitOf : ProcessRecord τ → CommandUnit) {row finished : ProcessRecord τ} {extra : ProcessExtra}
    (found : rt.journal.processes.find? processId = some row)
    (moved : row.transitionProcess toStatus actor = .ok finished) (held : rt.extras.get processId = some extra) :
    (rt.finishProcess processId toStatus actor outputJson unitOf).2 =
        rt.put (unitOf finished.unleased) finished.unleased { extra with outputJson } ∧
      finished.unleased.id = processId ∧ finished.unleased.runId = row.runId := by
  have columns := (transitionProcess_columns moved).2
  have here := (Table.find?_some.mp found).2
  have same : finished.unleased.id = processId := by
    rw [columns]
    exact here
  refine ⟨?_, same, by rw [columns]⟩
  rw [finishProcess_eq, found]
  dsimp only
  rw [moved]
  dsimp only
  generalize finished.unleased = last at same
  subst same
  exact seedFinished_eq held outputJson

theorem Beside.finish_own (beside : Beside runId rt alone)
    (units : ∀ row, (unitOf row).command.runId = row.runId)
    (own : ∀ row ∈ rt.journal.processes.find? processId, row.runId = runId) :
    Beside runId (rt.finishProcess processId toStatus actor outputJson unitOf).2
      (alone.finishProcess processId toStatus actor outputJson unitOf).2 := by
  cases found : rt.journal.processes.find? processId with
  | none =>
    have foundAlone : alone.journal.processes.find? processId = none := by
      rw [beside.find?, found]
      rfl
    rw [finishProcess_eq, finishProcess_eq, found, foundAlone]
    exact beside
  | some row =>
    have mine := own row found
    have owned : rt.owns runId processId = true := by
      rw [owns, found, Option.any_some]
      exact decide_eq_true mine
    have foundAlone := (beside.found owned).trans found
    obtain ⟨extra, held⟩ := beside.paired.extra found
    cases moved : row.transitionProcess toStatus actor with
    | error =>
      rw [finishProcess_eq, finishProcess_eq, found, foundAlone]
      dsimp only
      rw [moved]
      exact beside
    | ok finished =>
      obtain ⟨effect, id, run⟩ := finishProcess_put outputJson unitOf found moved held
      obtain ⟨effectAlone, _⟩ := finishProcess_put outputJson unitOf foundAlone moved
        ((beside.get owned).trans held)
      rw [effect, effectAlone]
      refine beside.put_own _ (run.trans mine) ((units _).trans (run.trans mine)) fun old same => ?_
      rw [id, found] at same
      cases same
      exact mine

theorem Beside.finish_other {other : String} (beside : Beside runId rt alone) (foreign : other ≠ runId)
    (apart : KeysApart runId other) (units : ∀ row, (unitOf row).command.runId = row.runId)
    (theirs : ∀ row ∈ rt.journal.processes.find? processId, row.runId = other) :
    Beside runId (rt.finishProcess processId toStatus actor outputJson unitOf).2 alone := by
  cases found : rt.journal.processes.find? processId with
  | none =>
    rw [finishProcess_eq, found]
    exact beside
  | some row =>
    have theirs := theirs row found
    have ⟨extra, held⟩ := beside.paired.extra found
    cases moved : row.transitionProcess toStatus actor with
    | error =>
      rw [finishProcess_eq, found]
      dsimp only
      rw [moved]
      exact beside
    | ok finished =>
      have ⟨effect, id, run⟩ := finishProcess_put outputJson unitOf found moved held
      rw [effect]
      have last := run.trans theirs
      refine beside.put_other _ (last ▸ foreign) ?_ fun old same => ?_
      · rw [units, last]
        exact ⟨foreign, apart⟩
      · rw [id, found] at same
        cases same
        exact theirs ▸ foreign

end Finish

/-- A call, with the run that it is an operation of. -/
structure Call (τ : Type) where
  runId : String
  operation : RuntimeCall τ

/-- The clock is everybody's. -/
def Call.concerns (runId : String) (call : Call τ) : Bool :=
  match call.operation with
  | .tick _ => true
  | _ => call.runId = runId

section History

variable (e : Ember) (digest : Json → String)

/-- The conduction input put together from some of the entries of `extras`. -/
def inputFrom (rt : MemoryRuntime τ) (conduction : List String) (entries : List (String × ProcessExtra)) :
    Except String Bytes :=
  (rt.conductionMembers e digest conduction entries).map fun members =>
    Jsonl.objectText [("conduction", Jsonl.objectText members)]

/-- The entries of a run, and there of the path of a process. -/
def ownEntries (rt : MemoryRuntime τ) (runId : String) (extra : ProcessExtra) : List (String × ProcessExtra) :=
  rt.extras.rows.filter fun entry => rt.owns runId entry.1 && decide (pathOf e entry.2 = pathOf e extra)

/-- What the run sees: its processes with their inputs and outputs, and its events. -/
structure View (τ : Type) where
  processes : List (ProcessRecord τ)
  extras : List (String × ProcessExtra)
  events : List EventRecord
  deriving DecidableEq

def view (rt : MemoryRuntime τ) (runId : String) : View τ :=
  { processes := rt.journal.processes.rows.filter fun row => row.runId = runId
    extras := rt.extras.rows.filter fun entry => rt.owns runId entry.1
    events := rt.journal.events runId }

/-- Everything that `advance` conducts in the run comes from the run, and from the path of the
    process. -/
def OwnConduction (runId : String) (rt : MemoryRuntime τ) (call : Call τ) : Prop :=
  call.operation = .advance runId →
    ∀ id ∈ rt.reached e digest (rt.promotable runId), ∀ extra ∈ rt.extras.get id,
      rt.conductionInput e digest extra.conduction =
        rt.inputFrom e digest extra.conduction (rt.ownEntries e runId extra)

/-- An operation names its run, or a process that, if there is one, is of the run. -/
def Call.Issued (rt : MemoryRuntime τ) (call : Call τ) : Prop :=
  match call.operation with
  | .createRun runId .. | .setRunStatus runId .. | .advance runId | .claim _ runId _ => runId = call.runId
  | .acceptImpulse impulse _ => impulse.runId = call.runId
  | .schedule plan => plan.runId = call.runId
  | .complete processId .. | .fail processId .. =>
    ∀ row ∈ rt.journal.processes.find? processId, row.runId = call.runId
  | .tick _ => True

/-- No process id passes from one run to another, and no finished process of another run or path
    has the effector of a dependency of a process that is promoted. -/
def Separate (runId : String) (rt : MemoryRuntime τ) (call : Call τ) : Prop :=
  match call.operation with
  | .schedule plan =>
    rt.journal.hasKey (scheduleUnit plan).key = false →
      ∀ row ∈ rt.journal.processes.find? plan.id, row.runId = runId ↔ plan.runId = runId
  | .advance other =>
    other = runId → ∀ id ∈ rt.reached e digest (rt.promotable runId), ∀ extra ∈ rt.extras.get id,
      ∀ entry ∈ rt.extras.rows, rt.Conducts extra.conduction entry →
        rt.owns runId entry.1 = true ∧ pathOf e entry.2 = pathOf e extra
  | _ => True

/-- The call is issued for one run, and keeps to it. -/
def Isolates (runId : String) (rt : MemoryRuntime τ) (call : Call τ) : Prop :=
  call.Issued rt ∧ (call.runId = runId ∨ KeysApart runId call.runId) ∧ rt.Separate e digest runId call

instance (rt : MemoryRuntime τ) : ∀ call : Call τ, Decidable (call.Issued rt)
  | ⟨_, .createRun ..⟩ | ⟨_, .setRunStatus ..⟩ | ⟨_, .advance _⟩ | ⟨_, .claim ..⟩ | ⟨_, .acceptImpulse ..⟩
  | ⟨_, .schedule _⟩ => inferInstanceAs (Decidable (_ = _))
  | ⟨_, .complete ..⟩ | ⟨_, .fail ..⟩ => inferInstanceAs (Decidable (∀ row ∈ rt.journal.processes.find? _, _ = _))
  | ⟨_, .tick _⟩ => .isTrue trivial

instance (runId : String) (rt : MemoryRuntime τ) : ∀ call : Call τ, Decidable (rt.Separate e digest runId call)
  | ⟨_, .schedule _⟩ => inferInstanceAs (Decidable (_ → ∀ row ∈ rt.journal.processes.find? _, _))
  | ⟨_, .advance _⟩ =>
    inferInstanceAs (Decidable (_ → ∀ id ∈ _, ∀ extra ∈ rt.extras.get id, ∀ entry ∈ rt.extras.rows, _ → _))
  | ⟨_, .createRun ..⟩ | ⟨_, .setRunStatus ..⟩ | ⟨_, .claim ..⟩ | ⟨_, .acceptImpulse ..⟩ | ⟨_, .complete ..⟩
  | ⟨_, .fail ..⟩ | ⟨_, .tick _⟩ => .isTrue trivial

instance (runId : String) (rt : MemoryRuntime τ) (call : Call τ) : Decidable (rt.Isolates e digest runId call) :=
  inferInstanceAs (Decidable (_ ∧ _ ∧ _))

def stepCall (rt : MemoryRuntime τ) (call : Call τ) : MemoryRuntime τ := rt.step e digest call.operation

variable {rt alone : MemoryRuntime τ} {runId : String} {call : Call τ}

theorem Beside.step_own (beside : Beside runId rt alone) (isolates : rt.Isolates e digest runId call)
    (mine : call.concerns runId = true) : Beside runId (rt.stepCall e digest call) (alone.stepCall e digest call) := by
  obtain ⟨run, operation⟩ := call
  have ⟨issued, _, separate⟩ := isolates
  unfold stepCall
  cases operation with
  | createRun id title metadataJson idempotencyKey =>
    have own : id = runId := Eq.trans issued (of_decide_eq_true mine)
    subst own
    show Beside id (rt.createRun ..).2 (alone.createRun ..).2
    rw [createRun_eq, createRun_eq, beside.hasKey (u := createUnit id idempotencyKey) rfl]
    split
    · exact beside
    · have posted := beside.post_own (u := createUnit id idempotencyKey) rfl
      refine { posted with runs := ?_ }
      exact ((Dict.get_set ..).trans (if_pos rfl)).trans ((Dict.get_set ..).trans (if_pos rfl)).symm
  | setRunStatus id status idempotencyKey =>
    have own : id = runId := Eq.trans issued (of_decide_eq_true mine)
    subst own
    show Beside id (rt.setRunStatus ..).2 (alone.setRunStatus ..).2
    rw [setRunStatus_eq, setRunStatus_eq, beside.runs]
    cases rt.runs.get id with
    | none => exact beside
    | some row =>
      dsimp only
      split
      · have posted := beside.post_own (u := statusUnit id status idempotencyKey) rfl
        refine { posted with runs := ?_ }
        exact ((Dict.get_set ..).trans (if_pos rfl)).trans ((Dict.get_set ..).trans (if_pos rfl)).symm
      · exact beside
  | acceptImpulse impulse idempotencyKey =>
    have own : impulse.runId = runId := Eq.trans issued (of_decide_eq_true mine)
    subst own
    show Beside impulse.runId (rt.acceptImpulse ..).2 (alone.acceptImpulse ..).2
    have ⟨impulses, effect⟩ := rt.acceptImpulse_eq impulse idempotencyKey
    have ⟨others, effectAlone⟩ := alone.acceptImpulse_eq impulse idempotencyKey
    rw [effect, effectAlone, beside.runs]
    split
    · exact beside
    · have posted := beside.post_own (u := impulseUnit impulse idempotencyKey) rfl
      exact { posted with }
  | schedule plan =>
    have own : plan.runId = runId := Eq.trans issued (of_decide_eq_true mine)
    subst own
    show Beside plan.runId (rt.scheduleProcessPlan plan).2 (alone.scheduleProcessPlan plan).2
    rw [scheduleProcessPlan_eq, scheduleProcessPlan_eq, beside.hasKey (u := scheduleUnit plan) rfl, beside.clock]
    split
    · exact beside
    · rename_i fresh
      refine beside.put_own _ rfl rfl fun old found => ?_
      exact (separate (Bool.eq_false_iff.mpr fresh) old found).mpr rfl
  | complete processId actor outputJson idempotencyKey =>
    have own : run = runId := of_decide_eq_true mine
    subst own
    exact beside.finish_own _ (fun _ => rfl) issued
  | fail processId actor errorJson =>
    have own : run = runId := of_decide_eq_true mine
    subst own
    exact beside.finish_own _ (fun _ => rfl) issued
  | advance id =>
    have own : id = runId := Eq.trans issued (of_decide_eq_true mine)
    subst own
    refine beside.advance e digest fun process member extra found entry listed conducted => ?_
    exact (separate rfl process member extra found entry listed conducted).1
  | claim workerId id leaseSeconds =>
    have own : id = runId := Eq.trans issued (of_decide_eq_true mine)
    subst own
    show Beside id { rt with journal := (rt.journal.claimNext ⟨workerId, id, leaseSeconds, false, rt.clock⟩).2 }
      { alone with journal := (alone.journal.claimNext ⟨workerId, id, leaseSeconds, false, alone.clock⟩).2 }
    have sameClock : (⟨workerId, id, leaseSeconds, false, alone.clock⟩ : ClaimRequest τ) =
        ⟨workerId, id, leaseSeconds, false, rt.clock⟩ := by rw [beside.clock]
    rw [sameClock]
    cases refusal : ClaimRequest.refusal ⟨workerId, id, leaseSeconds, false, rt.clock⟩ with
    | none => exact beside.claim_own rfl refusal rfl
    | some message =>
      rw [InMemoryJournal.claimNext_refused refusal, InMemoryJournal.claimNext_refused refusal]
      exact beside
  | tick seconds => exact { beside with clock := congrArg (· + seconds) beside.clock }

theorem Beside.step_other (beside : Beside runId rt alone) (isolates : rt.Isolates e digest runId call)
    (theirs : call.concerns runId = false) : Beside runId (rt.stepCall e digest call) alone := by
  obtain ⟨run, operation⟩ := call
  have ⟨issued, apart, separate⟩ := isolates
  unfold stepCall
  cases operation with
  | createRun id title metadataJson idempotencyKey =>
    have foreign : run ≠ runId := of_decide_eq_false theirs
    have apart := apart.resolve_left foreign
    have same : id = run := issued
    subst same
    show Beside runId (rt.createRun ..).2 alone
    rw [createRun_eq]
    split
    · exact beside
    · have posted := beside.post_other (u := createUnit id idempotencyKey) ⟨foreign, apart⟩
      refine { posted with runs := ?_ }
      exact posted.runs.trans ((Dict.get_set ..).trans (if_neg foreign)).symm
  | setRunStatus id status idempotencyKey =>
    have foreign : run ≠ runId := of_decide_eq_false theirs
    have apart := apart.resolve_left foreign
    have same : id = run := issued
    subst same
    show Beside runId (rt.setRunStatus ..).2 alone
    rw [setRunStatus_eq]
    cases rt.runs.get id with
    | none => exact beside
    | some row =>
      dsimp only
      split
      · have posted := beside.post_other (u := statusUnit id status idempotencyKey) ⟨foreign, apart⟩
        refine { posted with runs := ?_ }
        exact posted.runs.trans ((Dict.get_set ..).trans (if_neg foreign)).symm
      · exact beside
  | acceptImpulse impulse idempotencyKey =>
    have foreign : run ≠ runId := of_decide_eq_false theirs
    have apart := apart.resolve_left foreign
    have same : impulse.runId = run := issued
    subst same
    show Beside runId (rt.acceptImpulse ..).2 alone
    have ⟨impulses, effect⟩ := rt.acceptImpulse_eq impulse idempotencyKey
    rw [effect]
    split
    · exact beside
    · have posted := beside.post_other (u := impulseUnit impulse idempotencyKey) ⟨foreign, apart⟩
      exact { posted with }
  | schedule plan =>
    have foreign : run ≠ runId := of_decide_eq_false theirs
    have apart := apart.resolve_left foreign
    have same : plan.runId = run := issued
    subst same
    show Beside runId (rt.scheduleProcessPlan plan).2 alone
    rw [scheduleProcessPlan_eq]
    split
    · exact beside
    · rename_i fresh
      refine beside.put_other _ foreign ⟨foreign, apart⟩ fun old found => ?_
      exact fun mine => foreign ((separate (Bool.eq_false_iff.mpr fresh) old found).mp mine)
  | complete processId actor outputJson idempotencyKey =>
    have foreign : run ≠ runId := of_decide_eq_false theirs
    exact beside.finish_other _ foreign (apart.resolve_left foreign) (fun _ => rfl) issued
  | fail processId actor errorJson =>
    have foreign : run ≠ runId := of_decide_eq_false theirs
    exact beside.finish_other _ foreign (apart.resolve_left foreign) (fun _ => rfl) issued
  | advance id =>
    have foreign : run ≠ runId := of_decide_eq_false theirs
    have same : id = run := issued
    subst same
    exact beside.advance_other e digest foreign (apart.resolve_left foreign)
  | claim workerId id leaseSeconds =>
    have foreign : run ≠ runId := of_decide_eq_false theirs
    have same : id = run := issued
    subst same
    show Beside runId { rt with journal := (rt.journal.claimNext ⟨workerId, id, leaseSeconds, false, rt.clock⟩).2 } alone
    cases refusal : ClaimRequest.refusal ⟨workerId, id, leaseSeconds, false, rt.clock⟩ with
    | none => exact beside.claim_other foreign (apart.resolve_left foreign) refusal rfl
    | some message =>
      rw [InMemoryJournal.claimNext_refused refusal]
      exact beside
  | tick seconds => cases theirs

theorem Beside.init (streamId runId : String) : Beside runId (init streamId : MemoryRuntime τ) (init streamId) where
  log := ⟨rfl, rfl, fun _ => rfl⟩
  rows := rfl
  extras := rfl
  runs := rfl
  clock := rfl
  paired _ := rfl

omit [Seconds τ] in
theorem Beside.view (beside : Beside runId rt alone) : rt.view runId = alone.view runId := by
  have processes : alone.journal.processes.rows.filter (fun row => row.runId = runId) =
      rt.journal.processes.rows.filter fun row => row.runId = runId := by
    rw [beside.rows, List.filter_filter]
    simp only [Bool.and_self]
  have extras : alone.extras.rows.filter (fun entry => alone.owns runId entry.1) =
      rt.extras.rows.filter fun entry => rt.owns runId entry.1 := by
    rw [beside.extras, List.filter_filter]
    refine List.filter_congr fun entry _ => ?_
    by_cases owned : rt.owns runId entry.1 = true
    · have same : alone.owns runId entry.1 = true := by
        rw [owns, beside.found owned]
        exact owned
      rw [same, owned]
      rfl
    · rw [Bool.eq_false_iff.mpr owned, Bool.and_false]
  unfold MemoryRuntime.view
  rw [processes, extras, beside.log.events]

omit [Seconds τ] in
theorem Isolates.own_conduction (isolates : rt.Isolates e digest runId call) (paired : rt.Paired) :
    rt.OwnConduction e digest runId call := by
  intro advances id listed extra found
  have ⟨_, _, separate⟩ := isolates
  unfold Separate at separate
  rw [advances] at separate
  have mine := separate rfl id listed extra found
  have members := conductionMembers_filter e digest extra.conduction
    (p := fun entry => rt.owns runId entry.1 && decide (pathOf e entry.2 = pathOf e extra)) paired.present
    fun entry member conducted => by
      have ⟨owned, path⟩ := mine entry member conducted
      rw [owned, Bool.true_and]
      exact decide_eq_true path
  unfold conductionInput inputFrom ownEntries
  rw [members]

/-- As long as the calls keep to their runs, a run sees what it would see alone, and conducts
    what is its own. -/
theorem runs_isolated {streamId : String} {calls past : List (Call τ)}
    (isolated : Along (stepCall e digest) (Isolates e digest runId) (.init streamId) calls) (reached : past <+: calls) :
    view (execute (stepCall e digest) (.init streamId) past) runId =
        view (execute (stepCall e digest) (.init streamId) (past.filter (Call.concerns runId))) runId ∧
      Along (stepCall e digest) (OwnConduction e digest runId) (.init streamId) past := by
  have ⟨rest, whole⟩ := reached
  rw [← whole] at isolated
  have along := isolated.append_left
  have initial : Beside runId (.init streamId : MemoryRuntime τ) (.init streamId) := .init streamId runId
  have own (rt alone : MemoryRuntime τ) (call : Call τ) (beside : Beside runId rt alone)
      (isolates : rt.Isolates e digest runId call) (mine : call.concerns runId = true) :
      Beside runId (rt.stepCall e digest call) (alone.stepCall e digest call) :=
    beside.step_own e digest isolates mine
  have others (rt alone : MemoryRuntime τ) (call : Call τ) (beside : Beside runId rt alone)
      (isolates : rt.Isolates e digest runId call) (theirs : call.concerns runId = false) :
      Beside runId (rt.stepCall e digest call) alone :=
    beside.step_other e digest isolates theirs
  have beside := execute_unwound own others initial along
  have conduction := along.iff (I := fun rt => ∃ alone, Beside runId rt alone) ⟨_, initial⟩
    (C := Isolates e digest runId) (D := OwnConduction e digest runId)
    (fun rt call ⟨_, beside⟩ isolates => iff_of_true isolates (isolates.own_conduction e digest beside.paired))
    (fun rt call ⟨alone, beside⟩ isolates => by
      cases mine : call.concerns runId with
      | true => exact ⟨_, own rt alone call beside isolates mine⟩
      | false => exact ⟨alone, others rt alone call beside isolates mine⟩)
  exact ⟨beside.view, conduction.mp along⟩

end History

/-- Two runs of two effectors each, of which the second is conducted the output of the first. -/
def interleaved (first second other another : String) : List (Call Int) :=
  [⟨"r", .createRun "r" "" "\x7b\x7d" ""⟩, ⟨"s", .createRun "s" "" "\x7b\x7d" ""⟩,
    ⟨"r", .schedule (planOf "r" first [])⟩, ⟨"s", .schedule (planOf "s" other [])⟩,
    ⟨"r", .schedule (planOf "r" second [first])⟩, ⟨"s", .schedule (planOf "s" another [other])⟩,
    ⟨"r", .claim "w" "r" 60⟩, ⟨"s", .claim "w" "s" 60⟩,
    ⟨"r", .complete ("r:p:" ++ first) "w" "\x7b\"x\":1\x7d" ""⟩,
    ⟨"s", .complete ("s:p:" ++ other) "w" "\x7b\"x\":2\x7d" ""⟩,
    ⟨"r", .advance "r"⟩, ⟨"s", .advance "s"⟩]

theorem runs_isolated_apart :
    view (execute (stepCall Jsonl.reader fun _ => "") (.init "memory://runtime") (interleaved "a" "b" "c" "d")) "r" =
      view (execute (stepCall Jsonl.reader fun _ => "") (.init "memory://runtime")
        ((interleaved "a" "b" "c" "d").filter (Call.concerns "r"))) "r" := by
  have isolated : Along (stepCall Jsonl.reader fun _ => "") (Isolates Jsonl.reader (fun _ => "") "r")
      (.init "memory://runtime") (interleaved "a" "b" "c" "d") := by decide +kernel
  exact (runs_isolated Jsonl.reader (fun _ => "") isolated (List.prefix_refl _)).1

/-- Runs of one path share their effectors' names, and so their outputs. -/
theorem effectors_shared :
    view (execute (stepCall Jsonl.reader fun _ => "") (.init "memory://runtime") (interleaved "a" "b" "a" "b")) "r" ≠
      view (execute (stepCall Jsonl.reader fun _ => "") (.init "memory://runtime")
        ((interleaved "a" "b" "a" "b").filter (Call.concerns "r"))) "r" := by
  decide +kernel

end MemoryRuntime
end Fala.Memory
