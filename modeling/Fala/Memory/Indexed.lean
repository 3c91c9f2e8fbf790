import Mathlib.Data.List.Basic
import Fala.Memory.Accept

namespace Fala.Memory
open Durable

/-! The event index of a run against the batches that hold its events. -/

/-- `start + 1, …, start + n` -/
def numbersFrom : Int → Nat → List Int
  | _, 0 => []
  | start, n + 1 => (start + 1) :: numbersFrom (start + 1) n

theorem numbersFrom_add (start : Int) (m n : Nat) :
    numbersFrom start (m + n) = numbersFrom start m ++ numbersFrom (start + m) n := by
  induction m generalizing start with
  | zero => simp [numbersFrom]
  | succ m ih =>
    rw [Nat.succ_add, numbersFrom, numbersFrom, List.cons_append, ih]
    have shift : start + 1 + m = start + (m + 1 : Nat) := by omega
    rw [shift]

theorem lt_of_mem_numbersFrom {start k : Int} {n : Nat} (member : k ∈ numbersFrom start n) : start < k := by
  induction n generalizing start with
  | zero => cases member
  | succ n ih =>
    rcases List.mem_cons.mp member with rfl | later
    · omega
    · have := ih later
      omega

theorem foldl_max_numbersFrom (start : Int) (n : Nat) : (numbersFrom start n).foldl max start = start + n := by
  induction n generalizing start with
  | zero => simp [numbersFrom]
  | succ n ih =>
    have next : max start (start + 1) = start + 1 := by omega
    rw [numbersFrom, List.foldl_cons, next, ih]
    omega

theorem numbersFrom_zero (n : Nat) : numbersFrom 0 n = (List.range' 1 n).map Int.ofNat := by
  have shifted : ∀ start n : Nat, numbersFrom start n = (List.range' (start + 1) n).map Int.ofNat := by
    intro start n
    induction n generalizing start with
    | zero => rfl
    | succ n ih =>
      rw [numbersFrom, List.range'_succ, List.map_cons, ← ih (start + 1)]
      rfl
  exact shifted 0 n

/-- The events that a unit, and a batch, records for a run: those of the run's commands. -/
def CommandUnit.eventsOf (u : CommandUnit) (runId : String) : List EventRecord :=
  if u.command.runId = runId then u.events else []

def JournalBatch.eventsOf (batch : JournalBatch) (runId : String) : List EventRecord :=
  batch.units.flatMap (·.eventsOf runId)

theorem length_assignedFrom (command : CommandRecord) (sequence : Int) (events : List EventRecord) :
    (assignedFrom command sequence events).length = events.length := by
  induction events generalizing sequence with
  | nil => rfl
  | cons event rest ih => simp [assignedFrom, ih]

theorem sequence_assignedFrom (command : CommandRecord) (sequence : Int) (events : List EventRecord) :
    (assignedFrom command sequence events).map (·.sequence) = numbersFrom sequence events.length := by
  induction events generalizing sequence with
  | nil => rfl
  | cons event rest ih => simp [assignedFrom, numbersFrom, EventRecord.assigned, ih]

theorem assignedFrom_of_mem {command : CommandRecord} {sequence : Int} {events : List EventRecord}
    {event : EventRecord} (member : event ∈ assignedFrom command sequence events) :
    event.runId = command.runId ∧ event.commandId = command.id := by
  induction events generalizing sequence with
  | nil => cases member
  | cons head rest ih =>
    rcases List.mem_cons.mp member with rfl | later
    · exact ⟨rfl, rfl⟩
    · exact ih later

namespace JournalLog

/-- Every run's bucket grows by new events of that run, numbered on. -/
structure Adds (log grown : JournalLog) (new : String → List EventRecord) : Prop where
  events (runId : String) : grown.events runId = log.events runId ++ new runId
  counts (runId : String) : grown.eventSeq runId = log.eventSeq runId + (new runId).length
  numbers (runId : String) : (new runId).map (·.sequence) = numbersFrom (log.eventSeq runId) (new runId).length
  owned (runId : String) : ∀ event ∈ new runId, event.runId = runId

theorem Adds.trans {log middle grown : JournalLog} {first second : String → List EventRecord}
    (before : log.Adds middle first) (after : middle.Adds grown second) :
    log.Adds grown fun runId => first runId ++ second runId where
  events runId := by rw [after.events, before.events, List.append_assoc]
  counts runId := by
    rw [after.counts, before.counts, List.length_append]
    omega
  numbers runId := by
    rw [List.map_append, before.numbers, after.numbers, before.counts, List.length_append, numbersFrom_add]
  owned runId event member := by
    rcases List.mem_append.mp member with member | member
    · exact before.owned runId event member
    · exact after.owned runId event member

theorem Adds.refl (log : JournalLog) : log.Adds log fun _ => [] where
  events _ := (List.append_nil _).symm
  counts _ := by simp
  numbers _ := rfl
  owned _ _ member := nomatch member

theorem acceptUnit_adds (log : JournalLog) (u : CommandUnit) :
    log.Adds (log.acceptUnit u).2 fun runId => (log.acceptUnit u).1.eventsOf runId := by
  have accepted (runId : String) : (log.acceptUnit u).1.eventsOf runId =
      if u.command.runId = runId then assignedFrom u.command (log.eventSeq runId) u.events else [] := by
    show (if u.command.runId = runId then assignedFrom u.command (log.eventSeq u.command.runId) u.events
      else []) = _
    by_cases here : u.command.runId = runId <;> simp [here]
  constructor
  · intro runId
    rw [events_acceptUnit]
    show _ = log.events runId ++ if u.command.runId = runId then _ else _
    by_cases here : u.command.runId = runId <;> simp [here]
  · intro runId
    rw [eventSeq_acceptUnit, accepted]
    by_cases here : u.command.runId = runId <;> simp [here, length_assignedFrom]
  · intro runId
    rw [accepted]
    by_cases here : u.command.runId = runId
    · rw [if_pos here, sequence_assignedFrom, length_assignedFrom]
    · rw [if_neg here]
      rfl
  · intro runId event member
    rw [accepted] at member
    by_cases here : u.command.runId = runId
    · rw [if_pos here] at member
      exact (assignedFrom_of_mem member).1.trans here
    · rw [if_neg here] at member
      cases member

theorem acceptAll_adds (log : JournalLog) (units : List CommandUnit) :
    log.Adds (log.acceptAll units).2 fun runId => (log.acceptAll units).1.flatMap (·.eventsOf runId) := by
  induction units generalizing log with
  | nil => exact .refl log
  | cons u rest ih => exact (log.acceptUnit_adds u).trans (ih (log.acceptUnit u).2)

theorem acceptAll_batches (log : JournalLog) (units : List CommandUnit) :
    (log.acceptAll units).2.batches = log.batches := by
  induction units generalizing log with
  | nil => rfl
  | cons u rest ih => exact ih (log.acceptUnit u).2

theorem acceptAll_commands (log : JournalLog) (units : List CommandUnit) :
    (log.acceptAll units).1.map (·.command) = units.map (·.command) := by
  induction units generalizing log with
  | nil => rfl
  | cons u rest ih => exact congrArg (u.command :: ·) (ih (log.acceptUnit u).2)

theorem acceptAll_any {log : JournalLog} {units : List CommandUnit} (any : units ≠ []) :
    (log.acceptAll units).1 ≠ [] := by
  intro none
  have commands := log.acceptAll_commands units
  rw [none] at commands
  exact any (List.map_eq_nil_iff.mp commands.symm)

/-- A batch that goes on where the log ends: its events name the run of their command, and
    a command, and are numbered on after the run's last event. -/
def Continues (log : JournalLog) (batch : JournalBatch) : Prop :=
  ∀ u ∈ batch.units,
    (∀ event ∈ u.events, event.runId = u.command.runId ∧ event.restored u.command = event) ∧
    (batch.eventsOf u.command.runId).map (·.sequence) =
      numbersFrom (log.eventSeq u.command.runId) (batch.eventsOf u.command.runId).length

instance (log : JournalLog) (batch : JournalBatch) : Decidable (log.Continues batch) :=
  inferInstanceAs (Decidable (∀ u ∈ batch.units, _))

theorem events_importUnits (log : JournalLog) (units : List CommandUnit) (runId : String) :
    (units.foldl importUnit log).events runId = log.events runId ++ units.flatMap fun u =>
      if u.command.runId = runId then u.events.map (·.restored u.command) else [] := by
  induction units generalizing log with
  | nil => simp
  | cons u rest ih =>
    have step : (log.importUnit u).events runId = log.events runId ++
        if u.command.runId = runId then u.events.map (·.restored u.command) else [] := by
      show ((log.eventsByRun.set u.command.runId _).get runId).getD [] = _
      rw [Dict.get_set]
      by_cases here : u.command.runId = runId
      · simp [here]
      · simp only [here, if_false, List.append_nil]
        rfl
    rw [List.foldl_cons, ih, step, List.flatMap_cons, List.append_assoc]

theorem eventSeq_importUnits (log : JournalLog) (units : List CommandUnit) (runId : String) :
    (units.foldl importUnit log).eventSeq runId =
      (((units.flatMap (·.eventsOf runId)).map (·.sequence)).foldl max (log.eventSeq runId)) := by
  induction units generalizing log with
  | nil => rfl
  | cons u rest ih =>
    have step : (log.importUnit u).eventSeq runId =
        ((u.eventsOf runId).map (·.sequence)).foldl max (log.eventSeq runId) := by
      show ((log.eventSeqByRun.set u.command.runId _).get runId).getD 0 = _
      rw [Dict.get_set, CommandUnit.eventsOf]
      by_cases here : u.command.runId = runId
      · subst here
        simp only [if_true, Option.getD_some, List.foldl_map]
      · simp only [here, if_false]
        rfl
    rw [List.foldl_cons, ih, step, List.flatMap_cons, List.map_append, List.foldl_append]

theorem importUnits_batches (log : JournalLog) (units : List CommandUnit) :
    (units.foldl importUnit log).batches = log.batches := by
  induction units generalizing log with
  | nil => rfl
  | cons u rest ih => exact ih (log.importUnit u)

theorem importUnits_adds {log : JournalLog} {batch : JournalBatch} (continues : log.Continues batch) :
    log.Adds (batch.units.foldl importUnit log) fun runId => batch.units.flatMap (·.eventsOf runId) := by
  have kept (runId : String) : (batch.units.flatMap fun u =>
      if u.command.runId = runId then u.events.map (·.restored u.command) else []) = batch.eventsOf runId := by
    refine List.flatMap_congr fun u member => ?_
    have same := List.map_congr_left fun event held => ((continues u member).1 event held).2
    rw [same, List.map_id'', CommandUnit.eventsOf]
    exact fun _ => rfl
  have numbers (runId : String) : (batch.eventsOf runId).map (·.sequence) =
      numbersFrom (log.eventSeq runId) (batch.eventsOf runId).length := by
    by_cases held : ∃ u ∈ batch.units, u.command.runId = runId
    · have ⟨u, member, here⟩ := held
      exact here ▸ (continues u member).2
    · have none : batch.eventsOf runId = [] := by
        refine List.flatMap_eq_nil_iff.mpr fun u member => if_neg fun here => held ⟨u, member, here⟩
      rw [none]
      rfl
  constructor
  · intro runId
    rw [events_importUnits, kept]
    rfl
  · intro runId
    rw [eventSeq_importUnits]
    show ((batch.eventsOf runId).map _).foldl max _ = _ + ((batch.eventsOf runId).length : Int)
    rw [numbers, foldl_max_numbersFrom]
  · exact numbers
  · intro runId event member
    have ⟨u, listed, held⟩ := List.mem_flatMap.mp member
    unfold CommandUnit.eventsOf at held
    by_cases here : u.command.runId = runId
    · rw [if_pos here] at held
      exact ((continues u listed).1 event held).1.trans here
    · rw [if_neg here] at held
      cases held

/-- Every run's bucket holds what the batches record for it, numbered 1, 2, 3, … -/
structure Indexed (log : JournalLog) : Prop where
  recorded (runId : String) : log.events runId = log.batches.flatMap (·.eventsOf runId)
  counted (runId : String) : log.eventSeq runId = (log.events runId).length
  numbered (runId : String) : (log.events runId).map (·.sequence) = numbersFrom 0 (log.events runId).length
  owned (runId : String) : ∀ event ∈ log.events runId, event.runId = runId

theorem Indexed.init (streamId : String) : (JournalLog.init streamId).Indexed where
  recorded _ := rfl
  counted _ := rfl
  numbered _ := rfl
  owned _ _ member := nomatch member

theorem Indexed.adds {log grown : JournalLog} {batch : JournalBatch} {units : List CommandUnit}
    (indexed : log.Indexed) (adds : log.Adds grown fun runId => units.flatMap (·.eventsOf runId))
    (batches : grown.batches = log.batches ++ [batch]) (same : batch.units = units) : grown.Indexed where
  recorded runId := by simp [adds.events, indexed.recorded, batches, JournalBatch.eventsOf, same]
  counted runId := by
    rw [adds.counts, adds.events, indexed.counted, List.length_append]
    omega
  numbered runId := by
    rw [adds.events, List.map_append, List.length_append, indexed.numbered, adds.numbers, numbersFrom_add,
      indexed.counted, Int.zero_add]
  owned runId event member := by
    rw [adds.events] at member
    rcases List.mem_append.mp member with member | member
    · exact indexed.owned runId event member
    · exact adds.owned runId event member

theorem Indexed.appendBatch {log : JournalLog} {batch : JournalBatch} (indexed : log.Indexed)
    (whole : log.Whole batch.units) : (log.appendBatch batch).2.Indexed := by
  have answer := appendBatch_answer log batch
  generalize log.appendBatch batch = outcome at answer
  cases answer with
  | empty | replays | partly => exact indexed
  | accepts =>
    have ⟨events, counts, numbers, owned⟩ := log.acceptAll_adds batch.units
    have kept := log.acceptAll_batches batch.units
    exact indexed.adds ⟨events, counts, numbers, owned⟩ (congrArg (· ++ [(log.accept batch).1]) kept) rfl
  | stops units unused _ again => exact absurd whole (not_whole units unused again)

theorem Indexed.importStoredBatch {log : JournalLog} {batch : JournalBatch} (indexed : log.Indexed)
    (continues : log.Continues batch) : (log.importStoredBatch batch).2.Indexed := by
  unfold JournalLog.importStoredBatch
  by_cases none : batch.units = []
  · rw [if_pos none]
    exact indexed
  · have ⟨seq, numbered, imports, units, _⟩ := log.importSeq_numbers batch
    have counted : ({ log with journalSeq := seq } : JournalLog).Continues batch := continues
    have started : ({ log with journalSeq := seq } : JournalLog).Indexed :=
      ⟨indexed.recorded, indexed.counted, indexed.numbered, indexed.owned⟩
    have ⟨events, counts, numbers, owned⟩ := importUnits_adds counted
    have kept := importUnits_batches { log with journalSeq := seq } batch.units
    rw [← units] at events counts numbers owned kept
    rw [if_neg none, imports]
    exact started.adds ⟨events, counts, numbers, owned⟩ (congrArg (· ++ [_]) kept) rfl

/-- Every batch is labelled with the run of all its commands. -/
def Labelled (log : JournalLog) : Prop :=
  ∀ batch ∈ log.batches, ∀ u ∈ batch.units, u.command.runId = batch.runId

theorem Labelled.store {log grown : JournalLog} {batch : JournalBatch} (labelled : log.Labelled)
    (batches : grown.batches = log.batches ++ [batch])
    (uniform : ∀ u ∈ batch.units, u.command.runId = batch.runId) : grown.Labelled := by
  intro held member
  rw [batches] at member
  rcases List.mem_append.mp member with member | member
  · exact labelled held member
  · exact List.mem_singleton.mp member ▸ uniform

theorem Labelled.appendBatch {log : JournalLog} {batch : JournalBatch} (labelled : log.Labelled)
    (uniform : ∀ u ∈ batch.units, u.command.runId = batch.runId) : (log.appendBatch batch).2.Labelled := by
  have answer := appendBatch_answer log batch
  generalize log.appendBatch batch = outcome at answer
  cases answer with
  | empty | replays | partly => exact labelled
  | accepts =>
    have kept := log.acceptAll_batches batch.units
    refine labelled.store (congrArg (· ++ [(log.accept batch).1]) kept) fun u member => ?_
    have command : u.command ∈ (log.acceptAll batch.units).1.map (·.command) := List.mem_map_of_mem member
    rw [acceptAll_commands] at command
    have ⟨v, listed, same⟩ := List.mem_map.mp command
    exact same ▸ uniform v listed
  | stops =>
    intro held member
    rw [acceptAll_batches] at member
    exact labelled held member

theorem Labelled.importStoredBatch {log : JournalLog} {batch : JournalBatch} (labelled : log.Labelled)
    (uniform : ∀ u ∈ batch.units, u.command.runId = batch.runId) :
    (log.importStoredBatch batch).2.Labelled := by
  unfold JournalLog.importStoredBatch
  by_cases none : batch.units = []
  · rw [if_pos none]
    exact labelled
  · have ⟨seq, numbered, imports, units, run⟩ := log.importSeq_numbers batch
    have kept := importUnits_batches { log with journalSeq := seq } numbered.units
    rw [← units, ← run] at uniform
    rw [if_neg none, imports]
    exact labelled.store (congrArg (· ++ [_]) kept) uniform

end JournalLog

end Fala.Memory
