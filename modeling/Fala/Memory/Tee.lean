import Fala.Memory.Readers

namespace Fala.Memory
open Durable

variable {τ : Type} [Seconds τ]

/-- The primary answers; the secondary mirrors what the primary has accepted. -/
structure TeeJournal (τ : Type) where
  primary : InMemoryJournal τ
  secondary : InMemoryJournal τ

namespace TeeJournal

def init (primaryStream secondaryStream : String) : TeeJournal τ :=
  ⟨.init primaryStream, .init secondaryStream⟩

def seedProcess (t : TeeJournal τ) (p : ProcessRecord τ) : TeeJournal τ :=
  ⟨t.primary.seedProcess p, t.secondary.seedProcess p⟩

/-- The rest of an operation that the primary has gone through. -/
def mirror {α : Type} (t : TeeJournal τ) (result : α) (fresh : Bool) (batch : JournalBatch) :
    Except String α × TeeJournal τ :=
  if fresh then
    let (outcome, secondary) := t.secondary.appendBatch batch
    (outcome.map fun _ => result, { t with secondary })
  else (.ok result, t)

def appendBatch (t : TeeJournal τ) (batch : JournalBatch) : Except String AppendResult × TeeJournal τ :=
  match t.primary.appendBatch batch with
  | (.error message, primary) => (.error message, { t with primary })
  | (.ok result, primary) => { t with primary }.mirror result (!result.replayed) result.batch

def claimNext (t : TeeJournal τ) (r : ClaimRequest τ) : Except String ClaimResult × TeeJournal τ :=
  match t.primary.claimNext r with
  | (.error message, primary) => (.error message, { t with primary })
  | (.ok result, primary) =>
    { t with primary }.mirror result (result.hasBatch && !result.replayed) result.batch

end TeeJournal

/-- `_assign_events` leaves events that it has numbered as they are. -/
theorem assignedFrom_assigned (command : CommandRecord) (sequence : Int) (events : List EventRecord) :
    assignedFrom command sequence (assignedFrom command sequence events) =
      assignedFrom command sequence events := by
  induction events generalizing sequence with
  | nil => rfl
  | cons event rest ih =>
    have same (held given : String) : (if (if held = "" then given else held) = "" then given
        else if held = "" then given else held) = if held = "" then given else held := by
      by_cases missing : held = "" <;> simp [missing]
    simp only [assignedFrom, ih, EventRecord.assigned, same]

namespace JournalLog

/-- The same commands, events and sequences, under whatever stream and batches. -/
structure Alike (log other : JournalLog) : Prop where
  commands (key : String) : log.commands.find? key = other.commands.find? key
  events (runId : String) : log.events runId = other.events runId
  eventSeq (runId : String) : log.eventSeq runId = other.eventSeq runId

theorem Alike.hasKey {log other : JournalLog} (alike : log.Alike other) (key : String) :
    log.hasKey key = other.hasKey key := congrArg Option.isSome (alike.commands key)

theorem Alike.acceptUnit {log other : JournalLog} (alike : log.Alike other) (u : CommandUnit) :
    (other.acceptUnit (log.acceptUnit u).1).1 = (log.acceptUnit u).1 ∧
      (log.acceptUnit u).2.Alike (other.acceptUnit (log.acceptUnit u).1).2 := by
  have same : (other.acceptUnit (log.acceptUnit u).1).1 = (log.acceptUnit u).1 := by
    have events : assignedFrom u.command (other.eventSeq u.command.runId)
        (assignedFrom u.command (log.eventSeq u.command.runId) u.events) =
          assignedFrom u.command (log.eventSeq u.command.runId) u.events := by
      rw [← alike.eventSeq, assignedFrom_assigned]
    exact congrArg (fun events => { u with events }) events
  refine ⟨same, ?_, ?_, ?_⟩
  · intro key
    show (log.commands.upsert u.command).find? key = (other.commands.upsert u.command).find? key
    rw [Table.find?_upsert, Table.find?_upsert, alike.commands]
  · intro runId
    rw [events_acceptUnit, events_acceptUnit, same, alike.events]
    rfl
  · intro runId
    have length : (log.acceptUnit u).1.events.length = u.events.length := length_assignedFrom ..
    rw [eventSeq_acceptUnit, eventSeq_acceptUnit, length, alike.eventSeq]
    rfl

theorem Alike.acceptAll {log other : JournalLog} (alike : log.Alike other) (units : List CommandUnit) :
    (log.acceptAll units).2.Alike (other.acceptAll (log.acceptAll units).1).2 := by
  induction units generalizing log other with
  | nil => exact alike
  | cons u rest ih => exact ih (alike.acceptUnit u).2

theorem Fresh.alike {log other : JournalLog} {units : List CommandUnit} (fresh : log.Fresh units)
    (alike : log.Alike other) : other.Fresh (log.acceptAll units).1 := by
  have keys : (log.acceptAll units).1.map CommandUnit.key = units.map CommandUnit.key := by
    have commands := congrArg (List.map CommandRecord.key) (log.acceptAll_commands units)
    rwa [List.map_map, List.map_map] at commands
  have ⟨unused, distinct⟩ := (fresh_iff log units).mp fresh
  refine (fresh_iff other _).mpr ⟨fun u member => ?_, keys ▸ distinct⟩
  have listed : u.key ∈ units.map CommandUnit.key := keys ▸ List.mem_map_of_mem member
  have ⟨v, held, same⟩ := List.mem_map.mp listed
  rw [← alike.hasKey, ← same]
  exact unused v held

theorem Alike.stored {log other : JournalLog} (alike : log.Alike other) (batch another : JournalBatch)
    (units others : List CommandUnit) :
    (log.storeBatch batch units).2.Alike (other.storeBatch another others).2 :=
  ⟨alike.commands, alike.events, alike.eventSeq⟩

theorem Alike.accept {log other : JournalLog} {batch : JournalBatch} (alike : log.Alike other)
    (any : batch.units ≠ []) (fresh : log.Fresh batch.units) :
    (log.accept batch).2.Alike (other.appendBatch (log.accept batch).1).2 := by
  have some : (log.accept batch).1.units ≠ [] := acceptAll_any any
  rw [appendBatch_fresh some (fresh.alike alike)]
  exact (alike.acceptAll batch.units).stored ..

/-- The two logs after an append through the tee. -/
def tee (log other : JournalLog) (batch : JournalBatch) : JournalLog × JournalLog :=
  match log.appendBatch batch with
  | (.error _, grown) => (grown, other)
  | (.ok result, grown) => (grown, if result.replayed then other else (other.appendBatch result.batch).2)

theorem tee_alike {log other : JournalLog} {batch : JournalBatch} (alike : log.Alike other)
    (whole : log.Whole batch.units) : (log.tee other batch).1.Alike (log.tee other batch).2 := by
  have answer := appendBatch_answer log batch
  unfold tee
  generalize log.appendBatch batch = outcome at answer
  cases answer with
  | empty | replays | partly => exact alike
  | accepts any fresh => exact alike.accept any fresh
  | stops units unused _ again => exact absurd whole (not_whole units unused again)

theorem tee_apart {log other : JournalLog} {batch : JournalBatch} (alike : log.Alike other)
    (repeats : ¬ log.Whole batch.units) :
    ∃ key, (log.tee other batch).1.commands.find? key ≠ (log.tee other batch).2.commands.find? key := by
  have ⟨lead, _, unused, done, stops⟩ := appendBatch_stops repeats
  have indexed : (log.acceptAll (lead :: done)).2.hasKey lead.key = true :=
    (hasKey_acceptAll log _ lead.key).mpr (.inr ⟨lead, List.mem_cons_self, rfl⟩)
  refine ⟨lead.key, fun same => ?_⟩
  rw [tee, stops] at same
  have held := congrArg Option.isSome same
  rw [show ((log.acceptAll (lead :: done)).2.commands.find? lead.key).isSome = true from indexed] at held
  rw [alike.hasKey] at unused
  exact absurd held (by rw [show (other.commands.find? lead.key).isSome = false from unused]; decide)

end JournalLog

/-- The operations of a tee journal. -/
inductive TeeStep (τ : Type) where
  | seed (p : ProcessRecord τ)
  | append (batch : JournalBatch)
  | claim (r : ClaimRequest τ)

namespace TeeStep

/-- No append stops at a key that its batch repeats. -/
def Whole (t : TeeJournal τ) : TeeStep τ → Prop
  | .seed _ => True
  | .append batch => t.primary.Whole batch.units
  | .claim r => Step.HandsOver t.primary r → t.primary.Whole (t.primary.claimUnits r)

instance (t : TeeJournal τ) : ∀ s : TeeStep τ, Decidable (s.Whole t)
  | .seed _ => .isTrue trivial
  | .append batch => inferInstanceAs (Decidable (t.primary.Whole batch.units))
  | .claim r => inferInstanceAs (Decidable (Step.HandsOver t.primary r → t.primary.Whole (t.primary.claimUnits r)))

end TeeStep

namespace TeeJournal

def step (t : TeeJournal τ) : TeeStep τ → TeeJournal τ
  | .seed p => t.seedProcess p
  | .append batch => (t.appendBatch batch).2
  | .claim r => (t.claimNext r).2

/-- The logs of the primary and of the secondary. -/
def logs (t : TeeJournal τ) : JournalLog × JournalLog := (t.primary.toJournalLog, t.secondary.toJournalLog)

omit [Seconds τ] in
theorem mirror_logs {α : Type} (t : TeeJournal τ) (result : α) (fresh : Bool) (batch : JournalBatch) :
    (t.mirror result fresh batch).2.logs = (t.primary.toJournalLog,
      if fresh then (t.secondary.toJournalLog.appendBatch batch).2 else t.secondary.toJournalLog) := by
  cases fresh <;> rfl

omit [Seconds τ] in
theorem appendBatch_logs (t : TeeJournal τ) (batch : JournalBatch) :
    (t.appendBatch batch).2.logs = t.primary.toJournalLog.tee t.secondary.toJournalLog batch := by
  unfold appendBatch InMemoryJournal.appendBatch JournalLog.tee
  cases t.primary.toJournalLog.appendBatch batch with
  | mk outcome grown =>
    cases outcome with
    | error => rfl
    | ok result =>
      dsimp only
      rw [mirror_logs]
      by_cases replayed : result.replayed = true <;> simp [replayed]

theorem claimNext_logs (t : TeeJournal τ) (r : ClaimRequest τ) :
    ((t.claimNext r).2.logs = t.logs ∧ ¬ Step.HandsOver t.primary r) ∨
    ((t.claimNext r).2.logs = t.logs ∧ t.primary.claimUnits r = []) ∨
    (Step.HandsOver t.primary r ∧ ∃ batchRunId, (t.claimNext r).2.logs =
      t.primary.toJournalLog.tee t.secondary.toJournalLog (.of batchRunId (t.primary.claimUnits r))) := by
  have claimed := InMemoryJournal.claimNext_claimed t.primary r
  unfold claimNext
  generalize t.primary.claimNext r = outcome at claimed
  cases claimed with
  | refused refusal =>
    refine .inl ⟨rfl, fun hands => ?_⟩
    rw [hands.1] at refusal
    cases refusal
  | nameless accepted found noName => exact .inl ⟨rfl, fun hands => hands.2.elim found fun named => named noName⟩
  | idle accepted none => exact .inr (.inl ⟨rfl, none⟩)
  | @settles last claimedId claimedRun moved accepted named lastUnit log reaps =>
    refine .inr (.inr ⟨⟨accepted, named⟩, last.command.runId, ?_⟩)
    have units : t.primary.claimUnits r ≠ [] := by
      intro none
      rw [none] at lastUnit
      cases lastUnit
    unfold InMemoryJournal.settle InMemoryJournal.appendBatch JournalLog.tee
    rw [if_neg units, log]
    cases t.primary.toJournalLog.appendBatch (.of last.command.runId (t.primary.claimUnits r)) with
    | mk outcome grown =>
      cases outcome with
      | error => rfl
      | ok result =>
        dsimp only [Except.map]
        rw [mirror_logs]
        by_cases replayed : result.replayed = true <;> simp [replayed]

end TeeJournal

/-- The secondary holds the commands and the event streams of the primary. -/
structure Mirrored (logs : JournalLog × JournalLog) : Prop where
  commands (key : String) : logs.1.commands.find? key = logs.2.commands.find? key
  events (runId : String) : logs.1.events runId = logs.2.events runId

namespace TeeJournal

theorem step_alike {t : TeeJournal τ} {s : TeeStep τ} (alike : t.logs.1.Alike t.logs.2) (whole : s.Whole t) :
    (t.step s).logs.1.Alike (t.step s).logs.2 := by
  cases s with
  | seed p => exact alike
  | append batch =>
    have logs := t.appendBatch_logs batch
    exact logs ▸ JournalLog.tee_alike alike whole
  | claim r =>
    rcases t.claimNext_logs r with ⟨logs, _⟩ | ⟨logs, _⟩ | ⟨hands, batchRunId, logs⟩
    · exact logs ▸ alike
    · exact logs ▸ alike
    · exact logs ▸ JournalLog.tee_alike alike (whole hands)

theorem step_mirrored_iff {t : TeeJournal τ} (alike : t.logs.1.Alike t.logs.2) (s : TeeStep τ) :
    Mirrored (t.step s).logs ↔ s.Whole t := by
  constructor
  · intro mirrored
    cases s with
    | seed p => trivial
    | append batch =>
      by_cases whole : t.primary.Whole batch.units
      · exact whole
      · have ⟨key, apart⟩ := JournalLog.tee_apart alike whole
        have logs := t.appendBatch_logs batch
        exact absurd ((logs ▸ mirrored).commands key) apart
    | claim r =>
      intro hands
      rcases t.claimNext_logs r with ⟨_, raised⟩ | ⟨_, none⟩ | ⟨_, batchRunId, logs⟩
      · exact absurd hands raised
      · exact .inr (by rw [none]; exact .nil)
      · by_cases whole : t.primary.Whole (t.primary.claimUnits r)
        · exact whole
        · have repeats : ¬ t.primary.Whole (JournalBatch.of batchRunId (t.primary.claimUnits r)).units := whole
          have ⟨key, apart⟩ := JournalLog.tee_apart alike repeats
          exact absurd ((logs ▸ mirrored).commands key) apart
  · intro whole
    have kept := step_alike alike whole
    exact ⟨kept.commands, kept.events⟩

/-- The mirror stays equal along a history exactly when no append in it stops at a key
    that its batch repeats. -/
theorem mirror_equal_iff (t : TeeJournal τ) (equal : t.logs.1.Alike t.logs.2) (history : List (TeeStep τ)) :
    Along step (fun t s => Mirrored (t.step s).logs) t history ↔ Along step (fun t s => s.Whole t) t history := by
  have always : Along step (fun _ _ => True) t history := .always (fun _ _ => trivial) t history
  refine always.iff (I := fun t => t.logs.1.Alike t.logs.2) equal (fun t s alike _ => step_mirrored_iff alike s) ?_
  intro t s alike mirrored
  exact step_alike alike ((step_mirrored_iff alike s).mp mirrored)

/-- Two notes, the same notes again, a claim that reaps a row, and a claim that finds nothing. -/
def teed : List (TeeStep Int) :=
  [.seed (seededRow "p0" "run_t" .running 1 "worker_a"),
   .append (.of "run_t" [noteUnit "c1" "k1" "run_t", noteUnit "c2" "k2" "run_t"]),
   .append (.of "run_t" [noteUnit "c1" "k1" "run_t"]),
   .claim ⟨"worker_b", "run_t", 30, false, 100⟩,
   .claim ⟨"worker_b", "run_t", 30, false, 100⟩]

theorem mirror_equal_teed :
    Along step (fun t s => Mirrored (t.step s).logs) (init "memory://t1" "memory://t2") teed :=
  (mirror_equal_iff (init "memory://t1" "memory://t2") ⟨fun _ => rfl, fun _ => rfl, fun _ => rfl⟩ teed).mpr
    (by decide +kernel)

/-- The first of two notes under one key stays in the primary. -/
theorem mirror_parts : ¬ Mirrored (step (init "memory://t1" "memory://t2" : TeeJournal Int)
    (.append (.of "run_t" [noteUnit "c1" "k" "run_t", noteUnit "c2" "k" "run_t"]))).logs := by
  intro mirrored
  have apart := mirrored.commands (cmdKey "run_t" "k")
  exact absurd apart (by decide +kernel)

end TeeJournal
end Fala.Memory
