import Fala.Memory.Journal

namespace Fala.Memory
open Durable

/-! What `append_batch` does, said once for every batch. -/

namespace JournalLog

@[simp] theorem acceptUnit_streamId (log : JournalLog) (u : CommandUnit) :
    (log.acceptUnit u).2.streamId = log.streamId := rfl

@[simp] theorem acceptUnit_journalSeq (log : JournalLog) (u : CommandUnit) :
    (log.acceptUnit u).2.journalSeq = log.journalSeq := rfl

@[simp] theorem acceptUnit_batches (log : JournalLog) (u : CommandUnit) :
    (log.acceptUnit u).2.batches = log.batches := rfl

@[simp] theorem acceptUnit_key (log : JournalLog) (u : CommandUnit) : (log.acceptUnit u).1.key = u.key := rfl

@[simp] theorem acceptUnit_command (log : JournalLog) (u : CommandUnit) :
    (log.acceptUnit u).1.command = u.command := rfl

theorem hasKey_acceptUnit (log : JournalLog) (u : CommandUnit) (key : String) :
    (log.acceptUnit u).2.hasKey key = (decide (u.key = key) || log.hasKey key) := by
  show ((log.commands.upsert u.command).find? key).isSome = _
  rw [Table.find?_upsert]
  by_cases same : u.command.key = key
  · simp [CommandUnit.key, same]
  · simp [CommandUnit.key, same, hasKey]

theorem events_acceptUnit (log : JournalLog) (u : CommandUnit) (runId : String) :
    (log.acceptUnit u).2.events runId =
      if u.command.runId = runId then log.events runId ++ (log.acceptUnit u).1.events
      else log.events runId := by
  show ((log.eventsByRun.set u.command.runId _).get runId).getD [] = _
  rw [Dict.get_set]
  by_cases here : u.command.runId = runId
  · subst here
    simp only [if_true, Option.getD_some]
    rfl
  · simp only [here, if_false]
    rfl

theorem eventSeq_acceptUnit (log : JournalLog) (u : CommandUnit) (runId : String) :
    (log.acceptUnit u).2.eventSeq runId =
      if u.command.runId = runId then log.eventSeq runId + u.events.length
      else log.eventSeq runId := by
  show ((log.eventSeqByRun.set u.command.runId _).get runId).getD 0 = _
  rw [Dict.get_set]
  by_cases here : u.command.runId = runId
  · subst here
    simp only [if_true, Option.getD_some]
  · simp only [here, if_false]
    rfl

/-- The loop of `append_batch` without its check. -/
def acceptAll (log : JournalLog) : List CommandUnit → List CommandUnit × JournalLog
  | [] => ([], log)
  | u :: rest =>
    let (accepted, log) := log.acceptUnit u
    let (others, log) := log.acceptAll rest
    (accepted :: others, log)

/-- What `append_batch` stores of a batch that it accepts, and the log with it. -/
def accept (log : JournalLog) (batch : JournalBatch) : JournalBatch × JournalLog :=
  (log.acceptAll batch.units).2.storeBatch batch (log.acceptAll batch.units).1

/-- Units whose keys are not in use, each in turn. -/
def Fresh (log : JournalLog) : List CommandUnit → Prop
  | [] => True
  | u :: rest => log.hasKey u.key = false ∧ (log.acceptUnit u).2.Fresh rest

theorem fresh_iff (log : JournalLog) (units : List CommandUnit) :
    log.Fresh units ↔ (∀ u ∈ units, log.hasKey u.key = false) ∧ (units.map CommandUnit.key).Nodup := by
  induction units generalizing log with
  | nil => simp [Fresh]
  | cons u rest ih =>
    have later : (∀ v ∈ rest, (log.acceptUnit u).2.hasKey v.key = false) ↔
        (∀ v ∈ rest, log.hasKey v.key = false) ∧ u.key ∉ rest.map CommandUnit.key := by
      simp only [hasKey_acceptUnit, Bool.or_eq_false_iff, decide_eq_false_iff_not, List.mem_map]
      constructor
      · intro h
        exact ⟨fun v member => (h v member).2, fun ⟨v, member, same⟩ => (h v member).1 same.symm⟩
      · intro h v member
        exact ⟨fun same => h.2 ⟨v, member, same.symm⟩, h.1 v member⟩
    simp only [Fresh, ih, later, List.map_cons, List.nodup_cons, List.forall_mem_cons]
    grind

instance (log : JournalLog) (units : List CommandUnit) : Decidable (log.Fresh units) :=
  decidable_of_iff _ (log.fresh_iff units).symm

theorem hasKey_acceptAll (log : JournalLog) (units : List CommandUnit) (key : String) :
    (log.acceptAll units).2.hasKey key = true ↔ log.hasKey key = true ∨ ∃ u ∈ units, u.key = key := by
  induction units generalizing log with
  | nil => simp [acceptAll]
  | cons u rest ih =>
    have step := ih (log.acceptUnit u).2
    simp only [hasKey_acceptUnit, Bool.or_eq_true, decide_eq_true_eq] at step
    simp only [acceptAll, step]
    grind

theorem acceptUnits_fresh {log : JournalLog} {units : List CommandUnit} (fresh : log.Fresh units) :
    log.acceptUnits units = (.ok (log.acceptAll units).1, (log.acceptAll units).2) := by
  induction units generalizing log with
  | nil => rfl
  | cons u rest ih =>
    have ⟨here, later⟩ := fresh
    simp only [acceptUnits, here, Bool.false_eq_true, if_false, ih later, Except.map, acceptAll]

theorem acceptUnits_stops {log : JournalLog} {units : List CommandUnit} (used : ¬ log.Fresh units) :
    ∃ done u rest, units = done ++ u :: rest ∧ log.Fresh done ∧
      (log.acceptAll done).2.hasKey u.key = true ∧
      log.acceptUnits units =
        (.error "Duplicate command idempotency key within batch", (log.acceptAll done).2) := by
  induction units generalizing log with
  | nil => exact absurd trivial used
  | cons u rest ih =>
    by_cases here : log.hasKey u.key = true
    · exact ⟨[], u, rest, rfl, trivial, here, by simp [acceptUnits, here, acceptAll]⟩
    · have unused : log.hasKey u.key = false := Bool.eq_false_iff.mpr here
      have ⟨done, v, others, split, fresh, taken, stops⟩ := ih fun later => used ⟨unused, later⟩
      refine ⟨u :: done, v, others, by rw [split]; rfl, ⟨unused, fresh⟩, taken, ?_⟩
      simp only [acceptUnits, unused, Bool.false_eq_true, if_false, stops, Except.map, acceptAll]

/-- What becomes of a batch: it is refused unread, replayed, accepted whole, or given up
    at a key that it repeats. -/
inductive Answer (log : JournalLog) (batch : JournalBatch) : Except String AppendResult × JournalLog → Prop where
  | empty (none : batch.units = []) :
      Answer log batch (.error "JournalBatch.units must be non-empty", log)
  | replays {lead : CommandUnit} {others : List CommandUnit} {stored : CommandRecord}
      (units : batch.units = lead :: others) (known : log.commands.find? lead.key = some stored) :
      Answer log batch
        (.ok { batch, replayed := true, units := batch.units.map fun _ => ⟨stored, [], []⟩ }, log)
  | partly {lead other : CommandUnit} {others : List CommandUnit}
      (units : batch.units = lead :: others) (unused : log.hasKey lead.key = false)
      (member : other ∈ others) (used : log.hasKey other.key = true) :
      Answer log batch (.error "Corrupt partial history: non-leading idempotency key exists", log)
  | accepts (some : batch.units ≠ []) (fresh : log.Fresh batch.units) :
      Answer log batch
        (.ok
          { batch := (log.accept batch).1, replayed := false, units := (log.acceptAll batch.units).1 },
         (log.accept batch).2)
  | stops {done rest : List CommandUnit} {lead u : CommandUnit}
      (units : batch.units = lead :: done ++ u :: rest)
      (unused : ∀ v ∈ batch.units, log.hasKey v.key = false) (fresh : log.Fresh (lead :: done))
      (again : u.key ∈ (lead :: done).map CommandUnit.key) :
      Answer log batch
        (.error "Duplicate command idempotency key within batch", (log.acceptAll (lead :: done)).2)

theorem appendBatch_answer (log : JournalLog) (batch : JournalBatch) :
    Answer log batch (log.appendBatch batch) := by
  unfold appendBatch
  split
  · rename_i none
    exact .empty none
  · rename_i lead others units
    split
    · rename_i stored known
      exact .replays units known
    · rename_i fresh
      have unused : log.hasKey lead.key = false := by simp [hasKey, fresh]
      split
      · rename_i partly
        obtain ⟨other, member, used⟩ := List.any_eq_true.mp partly
        exact .partly units unused member used
      · rename_i others_unused
        have all : ∀ v ∈ batch.units, log.hasKey v.key = false := by
          rw [units]
          refine List.forall_mem_cons.mpr ⟨unused, fun v member => ?_⟩
          exact Bool.eq_false_iff.mpr fun used => others_unused (List.any_eq_true.mpr ⟨v, member, used⟩)
        by_cases whole : log.Fresh batch.units
        · rw [acceptUnits_fresh whole]
          exact .accepts (by simp [units]) whole
        · obtain ⟨done, u, rest, split, done_fresh, again, stops⟩ := acceptUnits_stops whole
          rw [stops]
          have later : u.key ∈ done.map CommandUnit.key := by
            have := all u (by simp [split])
            rcases (hasKey_acceptAll log done u.key).mp again with known | found
            · rw [this] at known
              cases known
            · exact List.mem_map.mpr found
          cases done with
          | nil => cases later
          | cons head done => exact .stops split all done_fresh later

/-- Every batch is dealt with at once, and only one that repeats a key stops midway. -/
def Whole (log : JournalLog) (units : List CommandUnit) : Prop :=
  (∃ u ∈ units, log.hasKey u.key = true) ∨ (units.map CommandUnit.key).Nodup

instance (log : JournalLog) (units : List CommandUnit) : Decidable (log.Whole units) :=
  inferInstanceAs (Decidable (_ ∨ _))

theorem not_whole {log : JournalLog} {units done rest : List CommandUnit} {lead u : CommandUnit}
    (split : units = lead :: done ++ u :: rest) (unused : ∀ v ∈ units, log.hasKey v.key = false)
    (again : u.key ∈ (lead :: done).map CommandUnit.key) : ¬ log.Whole units := by
  rintro (⟨v, member, used⟩ | distinct)
  · rw [unused v member] at used
    cases used
  · rw [split, List.map_append, List.nodup_append] at distinct
    exact distinct.2.2 _ again _ (by simp) rfl

theorem appendBatch_fresh {log : JournalLog} {batch : JournalBatch} (any : batch.units ≠ [])
    (fresh : log.Fresh batch.units) :
    log.appendBatch batch =
      (.ok { batch := (log.accept batch).1, replayed := false, units := (log.acceptAll batch.units).1 },
       (log.accept batch).2) := by
  have ⟨unused, distinct⟩ := (fresh_iff log batch.units).mp fresh
  have answer := appendBatch_answer log batch
  generalize log.appendBatch batch = outcome at answer
  cases answer with
  | empty none => exact absurd none any
  | @replays lead others stored units known =>
    have lead := unused lead (by rw [units]; exact List.mem_cons_self)
    simp [hasKey, known] at lead
  | partly units _ member used =>
    rw [unused _ (by rw [units]; exact List.mem_cons_of_mem _ member)] at used
    cases used
  | accepts => rfl
  | stops units none _ again => exact absurd (.inr distinct) (not_whole units none again)

theorem appendBatch_stops {log : JournalLog} {batch : JournalBatch} (repeats : ¬ log.Whole batch.units) :
    ∃ lead ∈ batch.units, log.hasKey lead.key = false ∧ ∃ done,
      log.appendBatch batch =
        (.error "Duplicate command idempotency key within batch", (log.acceptAll (lead :: done)).2) := by
  have answer := appendBatch_answer log batch
  generalize log.appendBatch batch = outcome at answer
  cases answer with
  | empty none => exact absurd (.inr (by rw [none]; exact .nil)) repeats
  | @replays lead others stored units known =>
    have used : log.hasKey lead.key = true := by simp [hasKey, known]
    exact absurd (.inl ⟨lead, by rw [units]; exact List.mem_cons_self, used⟩) repeats
  | @partly lead other others units _ member used =>
    exact absurd (.inl ⟨other, by rw [units]; exact List.mem_cons_of_mem _ member, used⟩) repeats
  | accepts _ fresh => exact absurd (.inr ((fresh_iff _ _).mp fresh).2) repeats
  | @stops done _ lead _ units none =>
    have member : lead ∈ batch.units := by
      rw [units]
      exact List.mem_cons_self
    exact ⟨lead, member, none lead member, done, rfl⟩

end JournalLog
end Fala.Memory
