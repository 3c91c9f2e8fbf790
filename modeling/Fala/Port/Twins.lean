import Fala.Port.Faithful

/-! The SQLite port and the journal in memory, given the same batches. -/

namespace Fala.Port
open Durable Journal Program Memory

theorem memory_appendBatch (log : JournalLog) {batch : JournalBatch} {u : CommandUnit}
    (units : batch.units = [u]) :
    ∃ answer log', log.appendBatch batch = (.ok answer, log') ∧ answer.replayed = log.hasKey u.key ∧
      ∀ key, log'.hasKey key = true ↔ log.hasKey key = true ∨ u.key = key := by
  unfold JournalLog.appendBatch
  rw [units]
  dsimp only
  cases found : log.commands.find? u.key with
  | some stored =>
    refine ⟨_, log, rfl, ?_, fun key => ⟨.inl, ?_⟩⟩
    · simp [JournalLog.hasKey, found]
    · rintro (held | rfl)
      · exact held
      · simp [JournalLog.hasKey, found]
  | none =>
    have free : log.hasKey u.key = false := by simp [JournalLog.hasKey, found]
    have accepted : log.acceptUnits [u] = (.ok [(log.acceptUnit u).1], (log.acceptUnit u).2) := by
      simp only [JournalLog.acceptUnits, free, Bool.false_eq_true, if_false]
      rfl
    rw [List.any_nil, if_neg Bool.false_ne_true, accepted]
    refine ⟨_, _, rfl, free.symm, fun key => ?_⟩
    change ((log.commands.upsert u.command).find? key).isSome = true ↔ _
    rw [Table.find?_upsert]
    by_cases same : u.key = key
    · have here : u.command.key = key := same
      simp [here, same]
    · have there : u.command.key ≠ key := same
      simp [there, same, JournalLog.hasKey]

/-- Both journals, and the batches that the port answered. -/
structure Twins where
  db : Database
  log : JournalLog
  taken : List JournalBatch

namespace Twins

def init (streamId : String) : Twins := ⟨.empty, .init streamId, []⟩

/-- A batch for both; what the port refuses the journal in memory does not get. -/
def take (digest : Json → String) (t : Texts) (w : Twins) (batch : JournalBatch) : Twins :=
  match appendBatch digest t batch w.db with
  | (.ok _, db) => ⟨db, (w.log.appendBatch batch).2, w.taken ++ [batch]⟩
  | (.error _, db) => { w with db }

end Twins

/-- The run and the key that the port records a batch under. -/
def portKey (t : Texts) (batch : JournalBatch) : Option (String × String) :=
  batch.units.head?.bind fun u => (portCall t batch u).toOption.map PortCall.key

/-- The key that the journal in memory keeps a batch under. -/
def memoryKey (batch : JournalBatch) : Option String := batch.units.head?.map CommandUnit.key

/-- Both journals know the keys of the batches that the port answered. -/
structure Twins.Sound (t : Texts) (w : Twins) : Prop where
  port : ∀ runId key, (w.db.commandByKey runId key).isSome = true ↔
    ∃ earlier ∈ w.taken, portKey t earlier = some (runId, key)
  memory : ∀ key, w.log.hasKey key = true ↔ ∃ earlier ∈ w.taken, memoryKey earlier = some key

theorem Twins.Sound.init (t : Texts) (streamId : String) : (Twins.init streamId).Sound t where
  port _ _ := ⟨nofun, nofun⟩
  memory _ := ⟨nofun, nofun⟩

variable {digest : Json → String} {t : Texts} {w : Twins} {batch : JournalBatch} {u : CommandUnit}

theorem Twins.Sound.take (sound : w.Sound t) (units : batch.units = [u]) :
    (w.take digest t batch).Sound t := by
  unfold Twins.take
  cases answered : appendBatch digest t batch w.db with
  | mk outcome db =>
    cases outcome with
    | error message =>
      rw [appendBatch_refused answered]
      exact sound
    | ok result =>
      obtain ⟨call, asked, answers⟩ := (appendBatch_ok units).mp answered
      have named : portKey t batch = some call.key := by simp [portKey, units, asked, Except.toOption]
      have kept : memoryKey batch = some u.key := by simp [memoryKey, units]
      constructor
      · intro runId key
        rw [answers.took.keys, sound.port]
        simp only [List.mem_append, List.mem_singleton, or_and_right, exists_or, exists_eq_left, named,
          Option.some.injEq, eq_comm (a := call.key)]
      · intro key
        obtain ⟨_, log, remembered, -, keys⟩ := memory_appendBatch w.log units
        rw [remembered, keys, sound.memory]
        simp only [List.mem_append, List.mem_singleton, or_and_right, exists_or, exists_eq_left, kept,
          Option.some.injEq]

/-- What the port answers a batch agrees with its own keys, and what the journal in memory answers
    agrees with the keys there. -/
structure Agrees (digest : Json → String) (t : Texts) (w : Twins) (batch : JournalBatch)
    (u : CommandUnit) : Prop where
  refused : ∀ message db, appendBatch digest t batch w.db = (.error message, db) → db = w.db
  port : ∀ result db, appendBatch digest t batch w.db = (.ok result, db) →
    u.command.commandType ≠ "process.complete" →
      (result.replayed = true ↔ ∃ earlier ∈ w.taken, portKey t earlier = portKey t batch)
  memory : ∃ answer log, w.log.appendBatch batch = (.ok answer, log) ∧
    (answer.replayed = true ↔ ∃ earlier ∈ w.taken, memoryKey earlier = memoryKey batch)

theorem Twins.Sound.agrees (sound : w.Sound t) (units : batch.units = [u]) :
    Agrees digest t w batch u where
  refused _ _ h := appendBatch_refused h
  port result db h other := by
    obtain ⟨call, asked, answers⟩ := (appendBatch_ok units).mp h
    have named : portKey t batch = some call.key := by simp [portKey, units, asked, Except.toOption]
    rw [answers.replayed_iff asked other, sound.port, named]
  memory := by
    obtain ⟨answer, log, remembered, replayed, -⟩ := memory_appendBatch w.log units
    have kept : memoryKey batch = some u.key := by simp [memoryKey, units]
    refine ⟨answer, log, remembered, ?_⟩
    rw [replayed, sound.memory, kept]

/-- Both journals after the same batches. -/
def twins (digest : Json → String) (t : Texts) (streamId : String) (batches : List JournalBatch) : Twins :=
  Durable.execute (Twins.take digest t) (Twins.init streamId) batches

theorem twins_sound (digest : Json → String) (t : Texts) (streamId : String)
    {batches : List JournalBatch} (single : ∀ batch ∈ batches, ∃ u, batch.units = [u]) :
    (twins digest t streamId batches).Sound t := by
  have along : Along (Twins.take digest t) (fun _ batch => (∃ u, batch.units = [u]) ∧ True)
      (Twins.init streamId) batches := (Along.always (fun _ _ => trivial) _ _).each single
  exact execute_along (Twins.Sound.init t streamId)
    (fun _ _ sound units => units.1.elim fun _ units => sound.take units) along

/-- An answered batch: what is stored of it, and what the same batch is answered again. -/
structure Faithful (digest : Json → String) (t : Texts) (batch : JournalBatch) (u : CommandUnit)
    (result : AppendResult) (db : Database) : Prop where
  stored : ¬ Typed u.command.commandType → Stored t db result
  unchanged : (appendBatch digest t batch db).2 = db
  again : u.command.commandType ≠ "process.complete" →
    ∃ second, appendBatch digest t batch db = (.ok second, db) ∧ second.replayed = true ∧
      second.units.map CommandUnit.command = result.units.map CommandUnit.command

/-- On every reachable database an answered batch of one command is stored as it was answered, when
    its command is of no type of its own, and adds nothing when it is appended again; and along every
    history of batches the port and the journal in memory answer by their keys. -/
theorem port_faithful (digest : Json → String) (t : Texts) :
    (∀ (calls : List (Call × Option Nat)) (batch : JournalBatch) (u : CommandUnit)
      (result : AppendResult) (db : Database), batch.units = [u] →
        appendBatch digest t batch (after digest calls) = (.ok result, db) →
          Faithful digest t batch u result db) ∧
      ∀ (streamId : String) (batches : List JournalBatch) (batch : JournalBatch) (u : CommandUnit),
        (∀ earlier ∈ batches, ∃ u, earlier.units = [u]) → batch.units = [u] →
          Agrees digest t (twins digest t streamId batches) batch u := by
  refine ⟨fun calls batch u result db units h => ?_, fun streamId batches batch u single units => ?_⟩
  · obtain ⟨call, asked, answers⟩ := (appendBatch_ok units).mp h
    have consistent := after_consistent digest calls
    exact ⟨answers.stored (portCall_named asked), answers.unchanged units asked,
      answers.again consistent units asked⟩
  · exact (twins_sound digest t streamId single).agrees units

/-! Samples. -/

def sampleTexts : Texts where
  read s :=
    if s = "\x7b\x7d" then .braces
    else if s = "process" then .other s (some (.obj [("id", .str "p")]))
    else .other s none
  write
    | .printed value => value.spell
    | .other spelling _ => spelling
  write_read s := by
    by_cases braces : s = "\x7b\x7d"
    · subst braces
      rfl
    by_cases process : s = "process"
    · subst process
      rfl
    · rw [if_neg braces, if_neg process]

/-- A run, created before the batches. -/
def createdRun : List (Call × Option Nat) :=
  [(.process (.createRun { runId := "r", status := "active", metadata := "", createdAt := "1" }), none)]

def sampleCommand (runId commandType : String) : CommandRecord :=
  ⟨"c", runId, commandType, "k", "worker", "", "", "\x7b\x7d", "2"⟩

def sampleEvent : EventRecord :=
  ⟨"e", "", "noted", 1, "", "", 0, "", "", "", "", "\x7b\x7d", "2"⟩

def note (runId : String) : CommandUnit := ⟨sampleCommand runId "note", [sampleEvent], []⟩

def schedule : CommandUnit :=
  ⟨sampleCommand "r" "process.schedule", [], [⟨"process", "upsert", "p", "process"⟩]⟩

theorem port_faithful_note :
    ∃ result db, appendBatch (fun _ => "") sampleTexts (.of "r" [note "r"])
        (after (fun _ => "") createdRun) = (.ok result, db) ∧
      Faithful (fun _ => "") sampleTexts (.of "r" [note "r"]) (note "r") result db := by
  cases h : appendBatch (fun _ => "") sampleTexts (.of "r" [note "r"])
      (after (fun _ => "") createdRun) with
  | mk outcome db =>
    cases outcome with
    | ok result => exact ⟨result, db, rfl, (port_faithful _ sampleTexts).1 createdRun _ _ result db rfl h⟩
    | error message =>
      have answered : (appendBatch (fun _ => "") sampleTexts (.of "r" [note "r"])
        (after (fun _ => "") createdRun)).1.isOk = true := by decide +kernel
      rw [h] at answered
      cases answered

/-- The event answered to a schedule is not stored with its number, a replay has no events, and the
    journal in memory takes a batch of an unknown run. -/
theorem port_unfaithful :
    (appendBatch (fun _ => "") sampleTexts (.of "r" [schedule]) (after (fun _ => "") createdRun)).1.toOption.any
        (fun result => result.units.any fun u => u.events.any fun e =>
          (appendBatch (fun _ => "") sampleTexts (.of "r" [schedule])
            (after (fun _ => "") createdRun)).2.events.rows.all fun row =>
              (e.id, e.sequence) ≠ (row.id, (row.sequence : Int))) = true ∧
      (appendBatch (fun _ => "") sampleTexts (.of "r" [note "r"]) (after (fun _ => "") createdRun)).1.toOption.any
        (fun first => (appendBatch (fun _ => "") sampleTexts (.of "r" [note "r"])
          (appendBatch (fun _ => "") sampleTexts (.of "r" [note "r"])
            (after (fun _ => "") createdRun)).2).1.toOption.any fun second =>
              second.units.map CommandUnit.events ≠ first.units.map CommandUnit.events) = true ∧
        (appendBatch (fun _ => "") sampleTexts (.of "s" [note "s"])
          (after (fun _ => "") createdRun)).1.isOk = false ∧
          ((JournalLog.init "").appendBatch (.of "s" [note "s"])).1.isOk = true := by
  decide +kernel

end Fala.Port
