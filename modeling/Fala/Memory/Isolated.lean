import Fala.Memory.Fold

namespace Fala.Memory
open Correlation Durable
open Jsonl (Bytes Ember utf8)

/-! What one run sees of the log that it shares with others. -/

/-- No key of the one run is a key of the other: neither id goes on after the other and a NUL. -/
def KeysApart (runId other : String) : Prop :=
  ¬ (runId ++ "\x00").toList <+: other.toList ∧ ¬ (other ++ "\x00").toList <+: runId.toList

instance (runId other : String) : Decidable (KeysApart runId other) := inferInstanceAs (Decidable (_ ∧ _))

theorem KeysApart.ne {runId other : String} (apart : KeysApart runId other) (different : other ≠ runId)
    (key otherKey : String) : cmdKey other otherKey ≠ cmdKey runId key := by
  intro same
  have texts := congrArg String.toList same
  simp only [cmdKey, String.toList_append] at texts
  have mine : (runId ++ "\x00").toList <+: other.toList ++ "\x00".toList ++ otherKey.toList := by
    rw [String.toList_append, texts]
    exact List.prefix_append ..
  have theirs : (other ++ "\x00").toList <+: other.toList ++ "\x00".toList ++ otherKey.toList := by
    rw [String.toList_append]
    exact List.prefix_append ..
  have lengths (left right : String) (nested : (left ++ "\x00").toList <+: (right ++ "\x00").toList)
      (no : ¬ (left ++ "\x00").toList <+: right.toList) : left = right := by
    simp only [String.toList_append] at nested no
    have whole : left.toList ++ "\x00".toList = right.toList ++ "\x00".toList := by
      rcases List.prefix_concat_iff.mp nested with whole | within
      · exact whole
      · exact absurd within no
    exact String.ext (List.append_cancel_right whole)
  rcases List.prefix_or_prefix_of_prefix mine theirs with nested | nested
  · exact different (lengths runId other nested apart.1).symm
  · exact different (lengths other runId nested apart.2)

namespace JournalLog

/-- Two logs show the same to a run. -/
structure SeenAlike (runId : String) (log other : JournalLog) : Prop where
  events : log.events runId = other.events runId
  eventSeq : log.eventSeq runId = other.eventSeq runId
  commands (key : String) : log.commands.find? (cmdKey runId key) = other.commands.find? (cmdKey runId key)

variable {runId : String} {log other : JournalLog}

theorem SeenAlike.hasKey (alike : SeenAlike runId log other) (key : String) :
    log.hasKey (cmdKey runId key) = other.hasKey (cmdKey runId key) :=
  congrArg Option.isSome (alike.commands key)

theorem SeenAlike.unit (alike : SeenAlike runId log other) {u : CommandUnit} (own : u.command.runId = runId) :
    (log.acceptUnit u).1 = (other.acceptUnit u).1 ∧ SeenAlike runId (log.acceptUnit u).2 (other.acceptUnit u).2 := by
  have same : (log.acceptUnit u).1 = (other.acceptUnit u).1 := by
    show { u with events := assignedFrom u.command (log.eventSeq u.command.runId) u.events } =
      { u with events := assignedFrom u.command (other.eventSeq u.command.runId) u.events }
    rw [own, alike.eventSeq]
  refine ⟨same, ?_, ?_, ?_⟩
  · rw [events_acceptUnit, events_acceptUnit, same, alike.events]
  · rw [eventSeq_acceptUnit, eventSeq_acceptUnit, alike.eventSeq]
  · intro key
    show (log.commands.upsert u.command).find? _ = (other.commands.upsert u.command).find? _
    rw [Table.find?_upsert, Table.find?_upsert, alike.commands]

theorem SeenAlike.all {units : List CommandUnit} (alike : SeenAlike runId log other)
    (own : ∀ u ∈ units, u.command.runId = runId) :
    SeenAlike runId (log.acceptUnits units).2 (other.acceptUnits units).2 ∧
      (log.acceptUnits units).1 = (other.acceptUnits units).1 := by
  induction units generalizing log other with
  | nil => exact ⟨alike, rfl⟩
  | cons u rest ih =>
    have ⟨here, later⟩ := List.forall_mem_cons.mp own
    have key : log.hasKey u.key = other.hasKey u.key := by
      have same := alike.hasKey u.command.idempotencyKey
      rwa [← here] at same
    have ⟨accepted, grown⟩ := alike.unit here
    have ⟨logs, units⟩ := ih grown later
    unfold acceptUnits
    by_cases used : other.hasKey u.key = true
    · rw [if_pos used, if_pos (key.trans used)]
      exact ⟨alike, rfl⟩
    · rw [if_neg used, if_neg (by rw [key]; exact used)]
      dsimp only
      rw [accepted, units]
      exact ⟨logs, rfl⟩

theorem SeenAlike.appendBatch (batch : JournalBatch) {another : JournalBatch} (alike : SeenAlike runId log other)
    (own : ∀ u ∈ batch.units, u.command.runId = runId) (same : another.units = batch.units) :
    SeenAlike runId (log.appendBatch batch).2 (other.appendBatch another).2 := by
  have keys : ∀ u ∈ batch.units, log.commands.find? u.key = other.commands.find? u.key := by
    intro u member
    have same := alike.commands u.command.idempotencyKey
    rwa [← own u member] at same
  have ⟨logs, outcomes⟩ := alike.all own
  unfold JournalLog.appendBatch
  rw [same]
  split
  · exact alike
  · rename_i lead others units
    have lead := keys lead (by rw [units]; exact List.mem_cons_self)
    have later : (others.any fun u => log.hasKey u.key) = others.any fun u => other.hasKey u.key := by
      rw [Bool.eq_iff_iff, List.any_eq_true, List.any_eq_true]
      refine exists_congr fun u => and_congr_right fun member => ?_
      have same := keys u (by rw [units]; exact List.mem_cons_of_mem _ member)
      rw [JournalLog.hasKey, JournalLog.hasKey, same]
    rw [lead, later]
    cases other.commands.find? _ with
    | some stored => exact alike
    | none =>
      dsimp only
      split
      · exact alike
      · generalize log.acceptUnits batch.units = mine at logs outcomes
        generalize other.acceptUnits batch.units = theirs at logs outcomes
        obtain ⟨outcome, mine⟩ := mine
        obtain ⟨answer, theirs⟩ := theirs
        cases outcomes
        cases outcome with
        | error => exact logs
        | ok => exact ⟨logs.events, logs.eventSeq, logs.commands⟩

theorem SeenAlike.foreign (batch : JournalBatch) (alike : SeenAlike runId log other)
    (apart : ∀ u ∈ batch.units, u.command.runId ≠ runId ∧ KeysApart runId u.command.runId) :
    SeenAlike runId (log.appendBatch batch).2 other := by
  have units (units : List CommandUnit) (apart : ∀ u ∈ units, u.command.runId ≠ runId ∧ KeysApart runId u.command.runId)
      {log : JournalLog} (alike : SeenAlike runId log other) : SeenAlike runId (log.acceptAll units).2 other := by
    induction units generalizing log with
    | nil => exact alike
    | cons u rest ih =>
      have ⟨⟨here, keys⟩, later⟩ := List.forall_mem_cons.mp apart
      have step : SeenAlike runId (log.acceptUnit u).2 other := by
        refine ⟨?_, ?_, fun key => ?_⟩
        · rw [events_acceptUnit, if_neg here, alike.events]
        · rw [eventSeq_acceptUnit, if_neg here, alike.eventSeq]
        · have other : u.command.key ≠ cmdKey runId key := keys.ne here key u.command.idempotencyKey
          show (log.commands.upsert u.command).find? _ = _
          rw [Table.find?_upsert, if_neg other, alike.commands]
      exact ih later step
  have answer := appendBatch_answer log batch
  generalize log.appendBatch batch = outcome at answer
  cases answer with
  | empty | replays | partly => exact alike
  | accepts =>
    have grown := units batch.units apart alike
    exact ⟨grown.events, grown.eventSeq, grown.commands⟩
  | @stops done rest lead u split =>
    refine units _ (fun v member => apart v ?_) alike
    rw [split]
    exact List.mem_append_left _ member

end JournalLog

variable {τ : Type} [Seconds τ]

namespace MemoryRuntime

/-- The row under an id belongs to the run. -/
def owns (rt : MemoryRuntime τ) (runId id : String) : Bool :=
  (rt.journal.processes.find? id).any fun row => row.runId = runId

/-- The rows and the extras go together. -/
def Paired (rt : MemoryRuntime τ) : Prop :=
  ∀ id, (rt.extras.get id).isSome = (rt.journal.processes.find? id).isSome

/-- A runtime shared with others, and one with the run alone. -/
structure Beside (runId : String) (rt alone : MemoryRuntime τ) : Prop where
  log : JournalLog.SeenAlike runId rt.journal.toJournalLog alone.journal.toJournalLog
  rows : alone.journal.processes.rows = rt.journal.processes.rows.filter fun row => row.runId = runId
  extras : alone.extras.rows = rt.extras.rows.filter fun entry => rt.owns runId entry.1
  runs : alone.runs.get runId = rt.runs.get runId
  clock : alone.clock = rt.clock
  paired : rt.Paired

section

variable {rt alone : MemoryRuntime τ} {runId : String}

omit [Seconds τ] in
theorem Beside.find? (beside : Beside runId rt alone) (id : String) :
    alone.journal.processes.find? id = (rt.journal.processes.find? id).filter fun row => row.runId = runId :=
  Table.find?_filter beside.rows id

omit [Seconds τ] in
theorem Beside.get (beside : Beside runId rt alone) {id : String} (owns : rt.owns runId id = true) :
    alone.extras.get id = rt.extras.get id := by
  unfold Dict.get
  rw [Table.find?_filter beside.extras id]
  cases held : rt.extras.find? id with
  | none => rfl
  | some entry =>
    have here := (Table.find?_some.mp held).2
    rw [Option.filter_some, here, owns, if_pos rfl]

omit [Seconds τ] in
theorem owns_put (rt : MemoryRuntime τ) (u : CommandUnit) (row : ProcessRecord τ) (extra : ProcessExtra)
    (runId id : String) :
    (rt.put u row extra).owns runId id = if row.id = id then decide (row.runId = runId) else rt.owns runId id := by
  show ((rt.journal.processes.upsert row).find? id).any _ = _
  rw [Table.find?_upsert]
  by_cases here : row.id = id
  · rw [if_pos here, if_pos here, Option.any_some]
  · rw [if_neg here, if_neg here]
    rfl

omit [Seconds τ] in
theorem Paired.put {u : CommandUnit} {row : ProcessRecord τ} {extra : ProcessExtra} (paired : rt.Paired) :
    (rt.put u row extra).Paired := by
  intro id
  show ((rt.extras.set row.id extra).get id).isSome = ((rt.journal.processes.upsert row).find? id).isSome
  rw [Dict.get_set, Table.find?_upsert]
  by_cases here : row.id = id
  · rw [if_pos here, if_pos here]
    rfl
  · rw [if_neg here, if_neg here]
    exact paired id

omit [Seconds τ] in
/-- A row stays with its run, so the entries of `extras` keep their owner. -/
theorem owned_put (u : CommandUnit) {row : ProcessRecord τ} (extra : ProcessExtra) (paired : rt.Paired)
    (stays : ∀ held ∈ rt.journal.processes.find? row.id, held.runId = runId ↔ row.runId = runId) :
    ∀ entry ∈ rt.extras.rows, (rt.put u row extra).owns runId entry.1 = rt.owns runId entry.1 := by
  intro entry member
  rw [owns_put]
  by_cases here : row.id = entry.1
  · have present : (rt.extras.get entry.1).isSome = true := by
      rw [Dict.get_some.mpr (show (entry.1, entry.2) ∈ rt.extras.rows from member)]
      rfl
    rw [paired, ← here] at present
    have ⟨held, found⟩ := Option.isSome_iff_exists.mp present
    rw [if_pos here, ← here, owns, found, Option.any_some]
    exact decide_eq_decide.mpr (stays held found).symm
  · rw [if_neg here]

omit [Seconds τ] in
theorem Beside.put_own {u : CommandUnit} (row : ProcessRecord τ) {extra : ProcessExtra} (beside : Beside runId rt alone)
    (own : row.runId = runId) (unit : u.command.runId = runId)
    (held : ∀ old ∈ rt.journal.processes.find? row.id, old.runId = runId) :
    Beside runId (rt.put u row extra) (alone.put u row extra) where
  log := beside.log.appendBatch (.of u.command.runId [u]) (by simpa [JournalBatch.of] using unit) rfl
  rows := Table.upsert_filter beside.rows (decide_eq_true own) fun old found => decide_eq_true (held old found)
  extras := by
    have owned := owned_put u extra beside.paired fun old found => iff_of_true (held old found) own
    refine Table.upsert_filter (p := fun entry : String × ProcessExtra => (rt.put u row extra).owns runId entry.1) ?_ ?_ ?_
    · rw [beside.extras]
      exact List.filter_congr fun entry member => (owned entry member).symm
    · rw [owns_put, if_pos rfl]
      exact decide_eq_true own
    · intro entry found
      have here := (Table.find?_some.mp found).2
      rw [owns_put, if_pos here.symm]
      exact decide_eq_true own
  runs := beside.runs
  clock := beside.clock
  paired := beside.paired.put

omit [Seconds τ] in
theorem Beside.put_other {u : CommandUnit} (row : ProcessRecord τ) {extra : ProcessExtra} (beside : Beside runId rt alone)
    (other : row.runId ≠ runId) (unit : u.command.runId ≠ runId ∧ KeysApart runId u.command.runId)
    (held : ∀ old ∈ rt.journal.processes.find? row.id, old.runId ≠ runId) :
    Beside runId (rt.put u row extra) alone where
  log := beside.log.foreign (.of u.command.runId [u]) (by simpa [JournalBatch.of] using unit)
  rows := by
    rw [beside.rows]
    refine (Table.filter_upsert (p := fun row : ProcessRecord τ => decide (row.runId = runId)) (decide_eq_false other) ?_).symm
    intro old found
    exact decide_eq_false (held old found)
  extras := by
    have owned := owned_put u extra beside.paired fun old found => iff_of_false (held old found) other
    rw [beside.extras]
    have left : ((rt.extras.set row.id extra).rows.filter fun entry : String × ProcessExtra =>
          (rt.put u row extra).owns runId entry.1) =
        rt.extras.rows.filter fun entry => (rt.put u row extra).owns runId entry.1 := by
      refine Table.filter_upsert (p := fun entry : String × ProcessExtra => (rt.put u row extra).owns runId entry.1) ?_ ?_
      · rw [owns_put, if_pos rfl]
        exact decide_eq_false other
      · intro entry found
        have here := (Table.find?_some.mp found).2
        rw [owns_put, if_pos here.symm]
        exact decide_eq_false other
    exact (left.trans (List.filter_congr owned)).symm
  runs := beside.runs
  clock := beside.clock
  paired := beside.paired.put

omit [Seconds τ] in
theorem Beside.post_own {u : CommandUnit} (beside : Beside runId rt alone) (unit : u.command.runId = runId) :
    Beside runId (rt.post u) (alone.post u) :=
  { beside with log := beside.log.appendBatch (.of u.command.runId [u]) (by simpa [JournalBatch.of] using unit) rfl }

omit [Seconds τ] in
theorem Beside.post_other {u : CommandUnit} (beside : Beside runId rt alone)
    (unit : u.command.runId ≠ runId ∧ KeysApart runId u.command.runId) : Beside runId (rt.post u) alone :=
  { beside with log := beside.log.foreign (.of u.command.runId [u]) (by simpa [JournalBatch.of] using unit) }

omit [Seconds τ] in
theorem Beside.hasKey (beside : Beside runId rt alone) {u : CommandUnit} (own : u.command.runId = runId) :
    alone.journal.hasKey u.key = rt.journal.hasKey u.key := by
  subst own
  exact (beside.log.hasKey u.command.idempotencyKey).symm

end

end MemoryRuntime
end Fala.Memory
