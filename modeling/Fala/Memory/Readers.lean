import Fala.Durable.History
import Fala.Memory.Atomic
import Fala.Memory.Indexed

namespace Fala.Memory
open Durable

variable {τ : Type} [Seconds τ]

inductive Step (τ : Type) where
  | seed (p : ProcessRecord τ)
  | append (batch : JournalBatch)
  | importStored (batch : JournalBatch)
  | claim (r : ClaimRequest τ)

namespace InMemoryJournal

def step (j : InMemoryJournal τ) : Step τ → InMemoryJournal τ
  | .seed p => j.seedProcess p
  | .append batch => (j.appendBatch batch).2
  | .importStored batch => (j.importStoredBatch batch).2
  | .claim r => (j.claimNext r).2

/-- The journal after a history of calls. A call that raises leaves what it has written. -/
def after (streamId : String) (history : List (Step τ)) : InMemoryJournal τ :=
  execute step (init streamId) history

end InMemoryJournal

namespace Step

/-- The claim gets as far as `append_batch`. -/
def HandsOver (j : InMemoryJournal τ) (r : ClaimRequest τ) : Prop :=
  r.refusal = none ∧ (j.queue r = [] ∨ r.workerId ≠ "")

/-- No append stops at a key that its batch repeats, and an import goes on where the log ends. -/
def Orderly (j : InMemoryJournal τ) : Step τ → Prop
  | .seed _ => True
  | .append batch => j.Whole batch.units
  | .importStored batch => j.Continues batch
  | .claim r => HandsOver j r → j.Whole (j.claimUnits r)

/-- The batch is labelled with the run of all its commands; a claim settles rows of one run. -/
def Uniform (j : InMemoryJournal τ) : Step τ → Prop
  | .seed _ => True
  | .append batch | .importStored batch => ∀ u ∈ batch.units, u.command.runId = batch.runId
  | .claim r => r.runId ≠ "" ∨
      (HandsOver j r → ∀ u ∈ j.claimUnits r, ∀ v ∈ j.claimUnits r, u.command.runId = v.command.runId)

instance (j : InMemoryJournal τ) (r : ClaimRequest τ) : Decidable (HandsOver j r) :=
  inferInstanceAs (Decidable (_ ∧ _))

instance (j : InMemoryJournal τ) : ∀ s : Step τ, Decidable (s.Orderly j)
  | .seed _ => .isTrue trivial
  | .append batch => inferInstanceAs (Decidable (j.Whole batch.units))
  | .importStored batch => inferInstanceAs (Decidable (j.Continues batch))
  | .claim r => inferInstanceAs (Decidable (HandsOver j r → j.Whole (j.claimUnits r)))

instance (j : InMemoryJournal τ) : ∀ s : Step τ, Decidable (s.Uniform j)
  | .seed _ => .isTrue trivial
  | .append _ | .importStored _ => inferInstanceAs (Decidable (∀ u ∈ _, _))
  | .claim _ => inferInstanceAs (Decidable (_ ∨ (_ → ∀ u ∈ _, ∀ v ∈ _, _)))

end Step

/-- `list_events` and `load` show one log of the run. -/
structure ReadersAgree (log : JournalLog) (runId : String) : Prop where
  same : ∀ event, event ∈ log.listEvents runId 0 0 ↔
    ∃ batch ∈ log.load runId 0, ∃ u ∈ batch.units, event ∈ u.events ∧ event.runId = runId
  only : ∀ batch ∈ log.load runId 0, ∀ u ∈ batch.units,
    u.command.runId = runId ∧ ∀ event ∈ u.events, event.runId = runId
  numbered : (log.listEvents runId 0 0).map (·.sequence) =
    (List.range' 1 (log.listEvents runId 0 0).length).map Int.ofNat

namespace InMemoryJournal

theorem step_log (j : InMemoryJournal τ) (s : Step τ) :
    match s with
    | .seed _ => (j.step s).toJournalLog = j.toJournalLog
    | .append batch => (j.step s).toJournalLog = (j.toJournalLog.appendBatch batch).2
    | .importStored batch => (j.step s).toJournalLog = (j.toJournalLog.importStoredBatch batch).2
    | .claim r => (j.step s).toJournalLog = j.toJournalLog ∨ (Step.HandsOver j r ∧
        ∃ last, (j.claimUnits r).getLast? = some last ∧ (j.step s).toJournalLog =
          (j.toJournalLog.appendBatch (.of last.command.runId (j.claimUnits r))).2) := by
  cases s with
  | seed | append | importStored => rfl
  | claim r =>
    have claimed := claimNext_claimed j r
    dsimp only [step]
    generalize j.claimNext r = outcome at claimed
    cases claimed with
    | refused | nameless | idle => exact .inl rfl
    | @settles last claimedId claimedRun moved accepted named lastUnit log reaps =>
      refine .inr ⟨⟨accepted, named⟩, last, lastUnit, ?_⟩
      have units : j.claimUnits r ≠ [] := by
        intro none
        rw [none] at lastUnit
        cases lastUnit
      rw [settle, if_neg units, ← log]
      rfl

theorem step_indexed {j : InMemoryJournal τ} {s : Step τ} (indexed : j.Indexed) (orderly : s.Orderly j) :
    (j.step s).Indexed := by
  have log := j.step_log s
  cases s with
  | seed p => exact log ▸ indexed
  | append batch => exact log ▸ indexed.appendBatch orderly
  | importStored batch => exact log ▸ indexed.importStoredBatch orderly
  | claim r =>
    rcases log with log | ⟨hands, last, -, log⟩
    · exact log ▸ indexed
    · exact log ▸ indexed.appendBatch (orderly hands)

theorem claimUnits_run {j : InMemoryJournal τ} {r : ClaimRequest τ} (oneRun : r.runId ≠ "") :
    ∀ u ∈ j.claimUnits r, u.command.runId = r.runId := by
  have served {row : ProcessRecord τ} (serves : r.serves row = true) : row.runId = r.runId := by
    simpa [ClaimRequest.serves, oneRun] using serves
  intro u member
  rcases List.mem_append.mp member with reaped | taken
  · obtain ⟨row, expired, same⟩ := List.mem_map.mp reaped
    have reaps := (List.mem_filter.mp expired).2
    simp only [ClaimRequest.reaps, Bool.decide_and, Bool.and_eq_true] at reaps
    exact same ▸ served (by simpa using reaps.1)
  · obtain ⟨chosen, head, same⟩ := Option.map_eq_some_iff.mp (Option.mem_toList.mp taken)
    obtain ⟨rest, queue⟩ := List.head?_eq_some_iff.mp head
    have listed := (readyProcesses_head queue).1
    exact same ▸ served (List.mem_filter.mp listed).2

theorem step_labelled {j : InMemoryJournal τ} {s : Step τ} (labelled : j.Labelled) (uniform : s.Uniform j) :
    (j.step s).Labelled := by
  have log := j.step_log s
  cases s with
  | seed p => exact log ▸ labelled
  | append batch => exact log ▸ labelled.appendBatch uniform
  | importStored batch => exact log ▸ labelled.importStoredBatch uniform
  | claim r =>
    rcases log with log | ⟨hands, last, lastUnit, log⟩
    · exact log ▸ labelled
    · have listed := List.mem_of_getLast? lastUnit
      have sameRun : ∀ u ∈ j.claimUnits r, u.command.runId = last.command.runId := by
        rcases uniform with oneRun | same
        · intro u member
          rw [claimUnits_run oneRun u member, claimUnits_run oneRun last listed]
        · exact fun u member => same hands u member last listed
      exact log ▸ labelled.appendBatch sameRun

end InMemoryJournal

theorem mem_load {log : JournalLog} {runId : String} {batch : JournalBatch} :
    batch ∈ log.load runId 0 ↔ batch ∈ log.batches ∧ (runId = "" ∨ batch.runId = runId) := by
  simp only [JournalLog.load, List.mem_filter, Int.lt_irrefl, false_and, not_false_eq_true, true_and,
    decide_eq_true_eq, ne_eq, not_and, Decidable.not_not]
  grind

namespace JournalLog.Indexed

theorem listEvents {log : JournalLog} (indexed : log.Indexed) (runId : String) :
    log.listEvents runId 0 0 = log.events runId := by
  have positive : ∀ event ∈ log.events runId, 0 < event.sequence := by
    intro event member
    have listed := List.mem_map_of_mem (f := (·.sequence)) member
    rw [indexed.numbered] at listed
    exact lt_of_mem_numbersFrom listed
  simp only [JournalLog.listEvents, Int.lt_irrefl, if_false]
  exact List.filter_eq_self.mpr fun event member => decide_eq_true (positive event member)

theorem listEvents_recorded {log : JournalLog} (indexed : log.Indexed) (runId : String) :
    log.listEvents runId 0 0 = (log.load "" 0).flatMap (·.eventsOf runId) ∧
      (log.listEvents runId 0 0).map (·.sequence) =
        (List.range' 1 (log.listEvents runId 0 0).length).map Int.ofNat := by
  have all : log.load "" 0 = log.batches := by simp [JournalLog.load]
  rw [indexed.listEvents, all, ← numbersFrom_zero]
  exact ⟨indexed.recorded runId, indexed.numbered runId⟩

theorem readersAgree {log : JournalLog} (indexed : log.Indexed) (labelled : log.Labelled) {runId : String}
    (named : runId ≠ "") : ReadersAgree log runId := by
  have recorded (event : EventRecord) : event ∈ log.events runId ↔
      ∃ batch ∈ log.batches, ∃ u ∈ batch.units, event ∈ u.events ∧ u.command.runId = runId := by
    rw [indexed.recorded, List.mem_flatMap]
    refine exists_congr fun batch => and_congr_right fun _ => ?_
    rw [JournalBatch.eventsOf, List.mem_flatMap]
    refine exists_congr fun u => and_congr_right fun _ => ?_
    by_cases here : u.command.runId = runId <;> simp [CommandUnit.eventsOf, here]
  have loaded {batch : JournalBatch} : batch ∈ log.load runId 0 ↔ batch ∈ log.batches ∧ batch.runId = runId := by
    rw [mem_load, or_iff_right named]
  have only : ∀ batch ∈ log.load runId 0, ∀ u ∈ batch.units,
      u.command.runId = runId ∧ ∀ event ∈ u.events, event.runId = runId := by
    intro batch member u listed
    obtain ⟨held, here⟩ := loaded.mp member
    have run := (labelled batch held u listed).trans here
    exact ⟨run, fun event told => indexed.owned runId event ((recorded event).mpr ⟨batch, held, u, listed, told, run⟩)⟩
  constructor
  · intro event
    rw [indexed.listEvents, recorded]
    constructor
    · rintro ⟨batch, held, u, listed, told, run⟩
      have member := loaded.mpr ⟨held, (labelled batch held u listed).symm.trans run⟩
      exact ⟨batch, member, u, listed, told, (only batch member u listed).2 event told⟩
    · rintro ⟨batch, member, u, listed, told, -⟩
      exact ⟨batch, (loaded.mp member).1, u, listed, told, (only batch member u listed).1⟩
  · exact only
  · exact (indexed.listEvents_recorded runId).2

end JournalLog.Indexed

namespace InMemoryJournal

/-- The events listed for a run are those of its commands over all batches, in order and
    numbered without a gap; and where every batch is of one run, `load` shows the same log. -/
theorem readers_agree (streamId : String) (history : List (Step τ))
    (orderly : Along step (fun j s => s.Orderly j) (init streamId) history) :
    (∀ runId, (after streamId history).listEvents runId 0 0 =
        ((after streamId history).load "" 0).flatMap (·.eventsOf runId) ∧
      ((after streamId history).listEvents runId 0 0).map (·.sequence) =
        (List.range' 1 ((after streamId history).listEvents runId 0 0).length).map Int.ofNat) ∧
    (Along step (fun j s => s.Uniform j) (init streamId) history → ∀ runId, runId ≠ "" →
      ReadersAgree (after streamId history).toJournalLog runId) := by
  have indexed : (after streamId history).Indexed :=
    execute_along (.init streamId) (fun _ _ => step_indexed) orderly
  refine ⟨indexed.listEvents_recorded, fun uniform runId named => ?_⟩
  have labelled : (after streamId history).Labelled :=
    execute_along (fun _ member => nomatch member) (fun _ _ => step_labelled) uniform
  exact indexed.readersAgree labelled named

/-- Notes and a claim in one run, and a note stored elsewhere after them. -/
def oneRun : List (Step Int) :=
  [.seed (seededRow "p0" "run_1" .running 1 "worker_a"),
   .seed (seededRow "p1" "run_1" .ready 0 ""),
   .append (.of "run_1" [noteUnit "c1" "k1" "run_1", noteUnit "c2" "k2" "run_1"]),
   .claim ⟨"worker_b", "run_1", 30, false, 100⟩,
   .importStored (.of "run_1" [{ noteUnit "c3" "k3" "run_1" with
      events := assignedFrom (noteUnit "c3" "k3" "run_1").command 4 (noteUnit "c3" "k3" "run_1").events }])]

theorem readers_agree_oneRun : ReadersAgree (after "memory://local" oneRun).toJournalLog "run_1" :=
  (readers_agree "memory://local" oneRun (by decide +kernel)).2 (by decide +kernel) "run_1" (by decide)

/-- A claim over all runs that reaps a row of one run and takes a row of another. -/
def twoRuns : List (Step Int) :=
  [.seed (seededRow "p0" "run_a" .running 1 "worker_a"),
   .seed (seededRow "p1" "run_b" .ready 0 ""),
   .claim ⟨"worker_b", "", 30, true, 100⟩]

/-- The reaped row's event is listed for its run, and in no batch that is loaded for it. -/
theorem readers_disagree : ¬ ReadersAgree (after "memory://local" twoRuns).toJournalLog "run_a" := by
  intro agree
  have none : (after "memory://local" twoRuns).load "run_a" 0 = [] := by decide +kernel
  have some : (after "memory://local" twoRuns).listEvents "run_a" 0 0 ≠ [] := by decide +kernel
  have ⟨event, listed⟩ := List.exists_mem_of_ne_nil _ some
  have ⟨batch, member, _⟩ := (agree.same event).mp listed
  rw [none] at member
  cases member

end InMemoryJournal
end Fala.Memory
