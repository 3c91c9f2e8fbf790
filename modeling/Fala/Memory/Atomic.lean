import Fala.Memory.Accept
import Fala.Memory.Claim
import Fala.Memory.Indexed

namespace Fala.Memory
open Durable

variable {τ : Type}

/-- The calls of an in-memory journal that may raise. -/
inductive Operation (τ : Type) where
  | append (batch : JournalBatch)
  | claim (r : ClaimRequest τ)

/-- A call that raises leaves everything as it was. -/
def Restored {α : Type} (j : InMemoryJournal τ) (outcome : Except String α × InMemoryJournal τ) : Prop :=
  ∀ message, outcome.1 = .error message → outcome.2 = j

namespace JournalLog

/-- Units that `append_batch` replays or accepts. -/
def Answered (log : JournalLog) (units : List CommandUnit) : Prop :=
  (∃ lead ∈ units.head?, log.hasKey lead.key = true) ∨
    ((∀ u ∈ units, log.hasKey u.key = false) ∧ (units.map CommandUnit.key).Nodup)

instance (log : JournalLog) (units : List CommandUnit) : Decidable (log.Answered units) :=
  inferInstanceAs (Decidable ((∃ lead ∈ units.head?, _) ∨ _))

theorem answered_toList (log : JournalLog) (single : Option CommandUnit) : log.Answered single.toList := by
  cases single with
  | none => exact .inr ⟨by simp, .nil⟩
  | some u =>
    by_cases known : log.hasKey u.key = true
    · exact .inl ⟨u, rfl, known⟩
    · exact .inr ⟨by simpa using known, by simp⟩

theorem acceptAll_ne {log : JournalLog} {u : CommandUnit} (unused : log.hasKey u.key = false)
    (rest : List CommandUnit) : (log.acceptAll (u :: rest)).2 ≠ log := by
  intro same
  have indexed := (hasKey_acceptAll log (u :: rest) u.key).mpr (.inr ⟨u, List.mem_cons_self, rfl⟩)
  rw [same, unused] at indexed
  cases indexed

theorem appendBatch_unchanged_iff (log : JournalLog) (batch : JournalBatch) :
    (∀ message, (log.appendBatch batch).1 = .error message → (log.appendBatch batch).2 = log) ↔
      log.Whole batch.units := by
  have answer := appendBatch_answer log batch
  generalize log.appendBatch batch = outcome at answer
  cases answer with
  | empty none => exact iff_of_true (fun _ _ => rfl) (.inr (by rw [none]; exact .nil))
  | replays units known =>
    have used : ∃ u ∈ batch.units, log.hasKey u.key = true :=
      ⟨_, by rw [units]; exact List.mem_cons_self, by simp [hasKey, known]⟩
    exact iff_of_true (by rintro _ ⟨⟩) (.inl used)
  | partly units _ member used =>
    have held : ∃ u ∈ batch.units, log.hasKey u.key = true :=
      ⟨_, by rw [units]; exact List.mem_cons_of_mem _ member, used⟩
    exact iff_of_true (fun _ _ => rfl) (.inl held)
  | accepts _ fresh =>
    exact iff_of_true (by rintro _ ⟨⟩) (.inr ((fresh_iff _ _).mp fresh).2)
  | stops units unused _ again =>
    have lead := unused _ (by rw [units]; exact List.mem_cons_self)
    exact iff_of_false (fun restored => acceptAll_ne lead _ (restored _ rfl)) (not_whole units unused again)

theorem appendBatch_raises_iff {log : JournalLog} {batch : JournalBatch} (some : batch.units ≠ []) :
    (∃ message, (log.appendBatch batch).1 = .error message) ↔ ¬ log.Answered batch.units := by
  have answer := appendBatch_answer log batch
  generalize log.appendBatch batch = outcome at answer
  cases answer with
  | empty none => exact absurd none some
  | replays units known =>
    have lead : log.Answered batch.units := .inl ⟨_, by rw [units]; rfl, by simp [hasKey, known]⟩
    exact iff_of_false (by rintro ⟨_, ⟨⟩⟩) (fun raises => raises lead)
  | partly units unused member used =>
    refine iff_of_true ⟨_, rfl⟩ ?_
    rintro (⟨lead, head, held⟩ | ⟨all, -⟩)
    · rw [units, List.head?_cons, Option.mem_some_iff] at head
      rw [← head, unused] at held
      cases held
    · rw [all _ (by rw [units]; exact List.mem_cons_of_mem _ member)] at used
      cases used
  | accepts _ fresh =>
    have lead : log.Answered batch.units := .inr ((fresh_iff _ _).mp fresh)
    exact iff_of_false (by rintro ⟨_, ⟨⟩⟩) (fun raises => raises lead)
  | stops units unused _ again =>
    refine iff_of_true ⟨_, rfl⟩ ?_
    rintro (⟨lead, head, held⟩ | ⟨-, distinct⟩)
    · rw [unused lead (List.mem_of_mem_head? head)] at held
      cases held
    · exact not_whole units unused again (.inr distinct)

end JournalLog

namespace InMemoryJournal

theorem appendBatch_restored_iff (j : InMemoryJournal τ) (batch : JournalBatch) :
    Restored j (j.appendBatch batch) ↔ j.Whole batch.units := by
  rw [← JournalLog.appendBatch_unchanged_iff]
  constructor
  · intro restored message raised
    exact congrArg toJournalLog (restored message raised)
  · intro unchanged message raised
    have log := unchanged message raised
    show { j with toJournalLog := (j.toJournalLog.appendBatch batch).2 } = j
    rw [log]

theorem settle_raises_iff {j : InMemoryJournal τ} {units : List CommandUnit} (any : units ≠ [])
    (batchRunId claimedId claimedRun : String) :
    (∃ message, (j.settle batchRunId units claimedId claimedRun).1 = .error message) ↔ ¬ j.Answered units := by
  have raises : (∃ message, (j.toJournalLog.appendBatch (.of batchRunId units)).1 = .error message) ↔
      ¬ j.Answered units := JournalLog.appendBatch_raises_iff any
  rw [← raises, settle, if_neg any]
  show (∃ message, Except.map _ (j.toJournalLog.appendBatch (.of batchRunId units)).1 = .error message) ↔ _
  cases (j.toJournalLog.appendBatch (.of batchRunId units)).1 <;> simp [Except.map]

theorem settle_processes (j : InMemoryJournal τ) (batchRunId : String) (units : List CommandUnit)
    (claimedId claimedRun : String) :
    (j.settle batchRunId units claimedId claimedRun).2.processes = j.processes := by
  unfold settle
  split <;> rfl

variable [Seconds τ]

/-- What a claim needs so that it loses nothing when it raises. -/
def ClaimSafe (j : InMemoryJournal τ) (r : ClaimRequest τ) : Prop :=
  r.refusal ≠ none ∨ j.expired r = [] ∨
    ((j.queue r = [] ∨ r.workerId ≠ "") ∧ j.Answered (j.claimUnits r))

theorem reaped_eq {j : InMemoryJournal τ} {r : ClaimRequest τ} (none : j.expired r = []) : j.reaped r = j := by
  have unreaped := List.filter_eq_nil_iff.mp none
  have same : (j.reaped r).processes = j.processes := by
    apply Table.ext_rows
    show j.processes.rows.map (fun row => if r.reaps row then row.reap else row) = j.processes.rows
    rw [List.map_congr_left fun row member => if_neg (unreaped row member), List.map_id'']
    exact fun _ => rfl
  show { j with processes := (j.reaped r).processes } = j
  rw [same]

theorem reaped_ne {j moved : InMemoryJournal τ} {r : ClaimRequest τ} (any : j.expired r ≠ [])
    (reaps : ∀ row ∈ j.expired r, moved.processes.find? row.id = some row.reap) : moved ≠ j := by
  rintro rfl
  have ⟨row, expired⟩ := List.exists_mem_of_ne_nil _ any
  have ⟨held, running⟩ := List.mem_filter.mp expired
  have reaped := reaps row expired
  rw [Table.find?_some.mpr ⟨held, rfl⟩, Option.some.injEq] at reaped
  have status : row.status = .failed := congrArg ProcessRecord.status reaped
  simp [ClaimRequest.reaps, status] at running

theorem claimNext_restored_iff (j : InMemoryJournal τ) (r : ClaimRequest τ) :
    Restored j (j.claimNext r) ↔ j.ClaimSafe r := by
  have claimed := claimNext_claimed j r
  generalize j.claimNext r = outcome at claimed
  cases claimed with
  | refused refusal => exact iff_of_true (fun _ _ => rfl) (.inl (by rw [refusal]; exact Option.some_ne_none _))
  | nameless accepted found noName =>
    by_cases none : j.expired r = []
    · exact iff_of_true (fun _ _ => reaped_eq none) (.inr (.inl none))
    · have reaps : ∀ row ∈ j.expired r, (j.reaped r).processes.find? row.id = some row.reap :=
        fun row => find?_reaped
      refine iff_of_false (fun restored => reaped_ne none reaps (restored _ rfl)) ?_
      rintro (refused | empty | ⟨idle | named, -⟩)
      · exact refused accepted
      · exact none empty
      · exact found idle
      · exact named noName
  | idle accepted none =>
    have empty : j.expired r = [] := by simpa using (List.append_eq_nil_iff.mp none).1
    exact iff_of_true (by rintro _ ⟨⟩) (.inr (.inl empty))
  | @settles last claimedId claimedRun moved accepted named lastUnit log reaps =>
    have units : j.claimUnits r ≠ [] := by
      intro none
      rw [none] at lastUnit
      cases lastUnit
    have raises := settle_raises_iff (j := moved) units last.command.runId claimedId claimedRun
    rw [JournalLog.Answered, log] at raises
    by_cases answered : j.Answered (j.claimUnits r)
    · refine iff_of_true (fun message raised => ?_) (.inr (.inr ⟨named, answered⟩))
      exact absurd answered (raises.mp ⟨message, raised⟩)
    · have ⟨message, raised⟩ := raises.mpr answered
      have kept := settle_processes moved last.command.runId (j.claimUnits r) claimedId claimedRun
      rw [← kept] at reaps
      by_cases none : j.expired r = []
      · have ⟨single, alone⟩ : ∃ single : Option CommandUnit, j.claimUnits r = single.toList :=
          ⟨_, by rw [claimUnits, none, List.map_nil, List.nil_append]⟩
        exact absurd (alone ▸ JournalLog.answered_toList j.toJournalLog single) answered
      · refine iff_of_false (fun restored => reaped_ne none reaps (restored message raised)) ?_
        rintro (refused | empty | ⟨-, held⟩)
        · exact refused accepted
        · exact none empty
        · exact answered held

end InMemoryJournal

variable [Seconds τ]

def Operation.FailsClean (j : InMemoryJournal τ) : Operation τ → Prop
  | .append batch => Restored j (j.appendBatch batch)
  | .claim r => Restored j (j.claimNext r)

def Operation.Safe (j : InMemoryJournal τ) : Operation τ → Prop
  | .append batch => j.Whole batch.units
  | .claim r => j.ClaimSafe r

/-- A call that raises leaves the journal as it was exactly when it repeats no key among
    its units, and when a claim has nothing to reap or goes through. -/
theorem raising_restores_iff (j : InMemoryJournal τ) (call : Operation τ) :
    call.FailsClean j ↔ call.Safe j :=
  match call with
  | .append batch => j.appendBatch_restored_iff batch
  | .claim r => j.claimNext_restored_iff r

/-- A note under a key of the run. -/
def noteUnit (id idempotencyKey runId : String) : CommandUnit :=
  { command :=
      { id, runId, commandType := "note.append", idempotencyKey, actor := "test", correlationId := "",
        causationId := "", payloadJson := "\x7b\x7d", createdAt := "" }
    events :=
      [{ id := id ++ ":event", runId, eventType := "note.appended", schemaVersion := 1, impulseId := "",
         processId := "", sequence := 0, commandId := "", actor := "", correlationId := "",
         causationId := "", payloadJson := "\x7b\x7d", createdAt := "" }]
    facts := [] }

def seededRow (id runId : String) (status : ProcessStatus) (attempt : Int) (leaseOwner : String) : ProcessRecord Int :=
  { id, runId, status, priority := 0, attempt, maxAttempts := 1, availableAt := 0, createdAt := 0,
    leaseOwner, leaseExpiresAt := 50 }

/-- A run with a row to reap and a row to take. -/
def lapsed : InMemoryJournal Int :=
  ((InMemoryJournal.init "memory://local").seedProcess (seededRow "p0" "run_1" .running 1 "worker_a")).seedProcess
    (seededRow "p1" "run_1" .ready 0 "")

/-- Both calls lose their footing: the batch leaves its first note behind, and the claim
    without a worker's name a reaped row. -/
theorem raising_leaves_traces :
    ¬ Operation.FailsClean (.init "memory://local" : InMemoryJournal Int)
      (.append (.of "run_1" [noteUnit "c1" "k" "run_1", noteUnit "c2" "k" "run_1"])) ∧
    ¬ Operation.FailsClean lapsed (.claim ⟨"", "run_1", 30, false, 100⟩) := by
  constructor
  · exact mt (InMemoryJournal.appendBatch_restored_iff _ _).mp (by decide +kernel)
  · refine mt (InMemoryJournal.claimNext_restored_iff _ _).mp ?_
    rintro (refused | none | ⟨idle | named, -⟩)
    · exact refused (by decide +kernel)
    · exact absurd none (by decide +kernel)
    · exact absurd idle (by decide +kernel)
    · exact named rfl

end Fala.Memory

namespace Fala.Memory
open Durable

/-! An import of what `append_batch` has stored does what the append did. -/

theorem restored_of_assigned {command : CommandRecord} {event : EventRecord}
    (owned : event.runId = command.runId ∧ event.commandId = command.id) : event.restored command = event := by
  cases event
  simp only at owned
  simp [EventRecord.restored, owned]

theorem restored_assignedFrom (command : CommandRecord) (sequence : Int) (events : List EventRecord) :
    (assignedFrom command sequence events).map (·.restored command) = assignedFrom command sequence events := by
  have kept : ∀ event ∈ assignedFrom command sequence events, event.restored command = event :=
    fun _ member => restored_of_assigned (assignedFrom_of_mem member)
  rw [List.map_congr_left kept, List.map_id']

theorem foldl_max_assignedFrom (command : CommandRecord) (sequence : Int) (events : List EventRecord) :
    (assignedFrom command sequence events).foldl (fun seq event => max seq event.sequence) sequence =
      sequence + events.length := by
  have numbers := foldl_max_numbersFrom sequence events.length
  rw [← sequence_assignedFrom command, List.foldl_map] at numbers
  exact numbers

namespace JournalLog

theorem importUnit_accepted (log : JournalLog) (u : CommandUnit) :
    log.importUnit (log.acceptUnit u).1 = (log.acceptUnit u).2 := by
  have events : (log.acceptUnit u).1.events =
      assignedFrom u.command (log.eventSeq u.command.runId) u.events := rfl
  unfold importUnit
  simp only [acceptUnit_command, events, restored_assignedFrom, foldl_max_assignedFrom]
  rfl

theorem importUnits_accepted (log : JournalLog) (units : List CommandUnit) :
    (log.acceptAll units).1.foldl importUnit log = (log.acceptAll units).2 := by
  induction units generalizing log with
  | nil => rfl
  | cons u rest ih =>
    show (log.importUnit (log.acceptUnit u).1 |> ((log.acceptUnit u).2.acceptAll rest).1.foldl importUnit) = _
    rw [importUnit_accepted]
    exact ih (log.acceptUnit u).2

theorem importUnits_journalSeq (log : JournalLog) (units : List CommandUnit) (seq : Int) :
    units.foldl importUnit { log with journalSeq := seq } =
      { units.foldl importUnit log with journalSeq := seq } := by
  induction units generalizing log with
  | nil => rfl
  | cons u rest ih => exact ih (log.importUnit u)

theorem acceptAll_journalSeq (log : JournalLog) (units : List CommandUnit) :
    (log.acceptAll units).2.journalSeq = log.journalSeq := by
  induction units generalizing log with
  | nil => rfl
  | cons u rest ih => exact ih (log.acceptUnit u).2

theorem acceptAll_streamId (log : JournalLog) (units : List CommandUnit) :
    (log.acceptAll units).2.streamId = log.streamId := by
  induction units generalizing log with
  | nil => rfl
  | cons u rest ih => exact ih (log.acceptUnit u).2

theorem importSeq_next (log : JournalLog) (batch : JournalBatch) (next : batch.journalSeq = log.journalSeq + 1) :
    log.importSeq batch = (batch, { log with journalSeq := batch.journalSeq }) := by
  unfold importSeq
  by_cases counted : batch.journalSeq ≤ 0
  · rw [if_pos counted, ← next]
  · have later : log.journalSeq < batch.journalSeq := by omega
    rw [if_neg counted, if_pos later]

theorem importStoredBatch_accept (log : JournalLog) {batch : JournalBatch} (any : batch.units ≠ []) :
    log.importStoredBatch (log.accept batch).1 = (.ok (), (log.accept batch).2) := by
  have units : (log.accept batch).1.units = (log.acceptAll batch.units).1 := rfl
  have next : (log.accept batch).1.journalSeq = log.journalSeq + 1 :=
    congrArg (· + 1) (log.acceptAll_journalSeq batch.units)
  have uri : (log.acceptAll batch.units).2.runtimeUri = log.runtimeUri := by
    simp only [runtimeUri, acceptAll_streamId]
  have stream : (if (log.accept batch).1.streamId = "" then log.runtimeUri else (log.accept batch).1.streamId) =
      (log.accept batch).1.streamId := by
    have filled : (log.accept batch).1.streamId =
        if batch.streamId = "" then log.runtimeUri else batch.streamId := by
      rw [← uri]
      rfl
    rw [filled]
    by_cases missing : batch.streamId = "" <;> simp [missing]
  unfold importStoredBatch
  rw [if_neg (units ▸ acceptAll_any any), importSeq_next log _ next]
  simp only [units, importUnits_journalSeq, importUnits_accepted]
  exact congrArg (fun stored => (Except.ok (), { (log.accept batch).2 with
    batches := (log.acceptAll batch.units).2.batches ++ [stored] }))
    (congrArg (fun streamId => { (log.accept batch).1 with streamId }) stream)

/-! The keys of a log that only imports. -/

theorem hasKey_importUnits (log : JournalLog) (units : List CommandUnit) (key : String) :
    (units.foldl importUnit log).hasKey key = true ↔ log.hasKey key = true ∨ ∃ u ∈ units, u.key = key := by
  induction units generalizing log with
  | nil => simp
  | cons u rest ih =>
    have step : (log.importUnit u).hasKey key = (decide (u.key = key) || log.hasKey key) := by
      show ((log.commands.upsert u.command).find? key).isSome = _
      rw [Table.find?_upsert]
      by_cases same : u.command.key = key
      · simp [CommandUnit.key, same]
      · simp [CommandUnit.key, same, hasKey]
    rw [List.foldl_cons, ih, step]
    simp only [Bool.or_eq_true, decide_eq_true_eq, List.exists_mem_cons_iff]
    grind

theorem hasKey_importStoredBatch (log : JournalLog) (batch : JournalBatch) (key : String) :
    (log.importStoredBatch batch).2.hasKey key = true ↔
      log.hasKey key = true ∨ ∃ u ∈ batch.units, u.key = key := by
  unfold importStoredBatch
  by_cases none : batch.units = []
  · simp [none]
  · have ⟨seq, numbered, imports, units, _⟩ := log.importSeq_numbers batch
    rw [if_neg none, imports]
    show (numbered.units.foldl importUnit { log with journalSeq := seq }).hasKey key = true ↔ _
    rw [hasKey_importUnits, units]
    rfl

end JournalLog
end Fala.Memory
