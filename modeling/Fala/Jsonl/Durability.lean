import Fala.Memory.Atomic
import Fala.Jsonl.Journal
import Fala.Jsonl.Reader

namespace Fala.Jsonl
open Memory Durable

variable {τ : Type} {e : Ember}

theorem replayed_concat (path : String) (batches : List JournalBatch) (batch : JournalBatch) :
    (replayed path (batches ++ [batch]) : InMemoryJournal τ) =
      ((replayed path batches).importStoredBatch batch).2 := by
  rw [replayed, List.foldl_append]
  rfl

theorem hasKey_replayed (path : String) (batches : List JournalBatch) (key : String) :
    (replayed path batches : InMemoryJournal τ).hasKey key = true ↔
      ∃ batch ∈ batches, ∃ u ∈ batch.units, u.key = key := by
  have from_index : ∀ index : InMemoryJournal τ,
      (batches.foldl (fun index batch => (index.importStoredBatch batch).2) index).hasKey key = true ↔
        index.hasKey key = true ∨ ∃ batch ∈ batches, ∃ u ∈ batch.units, u.key = key := by
    induction batches with
    | nil => simp
    | cons batch rest ih =>
      intro index
      have step := JournalLog.hasKey_importStoredBatch index.toJournalLog batch key
      rw [List.foldl_cons, ih, List.exists_mem_cons_iff, ← or_assoc]
      exact or_congr_left step
  have empty : (InMemoryJournal.init ("jsonl://" ++ path) : InMemoryJournal τ).hasKey key = false := rfl
  rw [replayed, from_index, empty]
  simp

theorem batches_replayed {path : String} {batches : List JournalBatch}
    (any : ∀ batch ∈ batches, batch.units ≠ []) :
    (replayed path batches : InMemoryJournal τ).batches.length = batches.length := by
  have from_index : ∀ index : InMemoryJournal τ,
      (batches.foldl (fun index batch => (index.importStoredBatch batch).2) index).batches.length =
        index.batches.length + batches.length := by
    induction batches with
    | nil => simp
    | cons batch rest ih =>
      intro index
      have ⟨here, later⟩ := List.forall_mem_cons.mp any
      have step : (index.importStoredBatch batch).2.batches.length = index.batches.length + 1 := by
        have ⟨seq, numbered, imports, _, _⟩ := index.toJournalLog.importSeq_numbers batch
        have kept : ∀ (units : List CommandUnit) (log : JournalLog),
            (units.foldl JournalLog.importUnit log).batches = log.batches := by
          intro units
          induction units with
          | nil => exact fun _ => rfl
          | cons u units ih => exact fun log => ih (log.importUnit u)
        show (index.toJournalLog.importStoredBatch batch).2.batches.length = _
        rw [JournalLog.importStoredBatch, if_neg here, imports]
        simp [kept]
      rw [List.foldl_cons, ih later, step, List.length_cons]
      omega
  exact (from_index _).trans (Nat.zero_add _)

namespace Session

/-- The text that is to be written when the batch is accepted. -/
def grown (e : Ember) (s : Session τ) (batch : JournalBatch) : Bytes :=
  s.file.getD [] ++ encodeBatchLine e (s.log.accept batch).1

/-- The batch is dealt with at once: it does not stop at a key that it repeats. -/
def Whole (s : Session τ) (call : JournalBatch × Write) : Prop := s.log.Whole call.1.units

instance (s : Session τ) (call : JournalBatch × Write) : Decidable (s.Whole call) :=
  inferInstanceAs (Decidable (s.log.Whole call.1.units))

/-- If the batch is accepted, its write leaves all of the text in the file. -/
def Lands (e : Ember) (s : Session τ) (call : JournalBatch × Write) : Prop :=
  call.1.units ≠ [] → s.log.Fresh call.1.units →
    call.2.leaves s.file (s.grown e call.1) = some (s.grown e call.1)

/-- What becomes of a session: nothing, a batch more, or the first units of a batch more. -/
inductive Stepped (e : Ember) (s : Session τ) (call : JournalBatch × Write) : Session τ → Prop where
  | stays (whole : s.Whole call) : Stepped e s call s
  | accepts (any : call.1.units ≠ []) (fresh : s.log.Fresh call.1.units) :
      Stepped e s call
        ⟨⟨s.journal.path, { s.journal.index with toJournalLog := (s.log.accept call.1).2 }⟩,
         call.2.leaves s.file (s.grown e call.1)⟩
  | stops {lead : CommandUnit} (done : List CommandUnit) (repeats : ¬ s.Whole call)
      (unused : s.log.hasKey lead.key = false) :
      Stepped e s call
        ⟨⟨s.journal.path, { s.journal.index with toJournalLog := (s.log.acceptAll (lead :: done)).2 }⟩,
         s.file⟩

theorem step_stepped (e : Ember) (s : Session τ) (call : JournalBatch × Write) :
    Stepped e s call (step e s call) := by
  have answer := JournalLog.appendBatch_answer s.journal.index.toJournalLog call.1
  unfold step JsonlJournal.appendBatch InMemoryJournal.appendBatch
  generalize s.journal.index.toJournalLog.appendBatch call.1 = outcome at answer
  cases answer with
  | empty none =>
    have whole : s.Whole call := .inr (by rw [none]; exact .nil)
    exact .stays whole
  | @replays lead others stored units known =>
    have used : s.log.hasKey lead.key = true := by simp [JournalLog.hasKey, log, known]
    have whole : s.Whole call := .inl ⟨lead, by rw [units]; exact List.mem_cons_self, used⟩
    exact .stays whole
  | @partly lead other others units _ member used =>
    have whole : s.Whole call := .inl ⟨other, by rw [units]; exact List.mem_cons_of_mem _ member, used⟩
    exact .stays whole
  | accepts any fresh => exact .accepts any fresh
  | @stops done _ lead _ units none _ again =>
    have repeats : ¬ s.Whole call := JournalLog.not_whole units none again
    have member : lead ∈ call.1.units := by
      rw [units]
      exact List.mem_cons_self
    exact .stops done repeats (none lead member)

/-- The file holds the lines of the accepted batches. -/
structure Filed (e : Ember) (path : String) (s : Session τ) : Prop where
  path : s.journal.path = path
  units : ∀ batch ∈ s.log.batches, batch.units ≠ []
  known : ∀ batch ∈ s.log.batches, ∀ u ∈ batch.units, s.log.hasKey u.key = true
  file : s.file = none ∧ s.log.batches = [] ∨ s.file = some (linesText e s.log.batches)

/-- The index is the journal that the accepted batches are imported into. -/
def Live (path : String) (s : Session τ) : Prop := s.journal.index = replayed path s.log.batches

/-- A command is indexed that no accepted batch holds. -/
def Lost (s : Session τ) : Prop :=
  ∃ key, s.log.hasKey key = true ∧ ∀ batch ∈ s.log.batches, ∀ u ∈ batch.units, u.key ≠ key

theorem Filed.text {path : String} {s : Session τ} (filed : s.Filed e path) :
    s.file.getD [] = linesText e s.log.batches := by
  rcases filed.file with ⟨missing, none⟩ | written
  · rw [missing, none]
    rfl
  · rw [written]
    rfl

theorem batches_accept (log : JournalLog) (batch : JournalBatch) :
    (log.accept batch).2.batches = log.batches ++ [(log.accept batch).1] :=
  congrArg (· ++ [(log.accept batch).1]) (log.acceptAll_batches batch.units)

theorem hasKey_accept (log : JournalLog) (batch : JournalBatch) (key : String) :
    (log.accept batch).2.hasKey key = true ↔ log.hasKey key = true ∨ ∃ u ∈ batch.units, u.key = key :=
  log.hasKey_acceptAll batch.units key

theorem keys_accept (log : JournalLog) (batch : JournalBatch) :
    (log.accept batch).1.units.map CommandUnit.key = batch.units.map CommandUnit.key := by
  have commands := congrArg (List.map CommandRecord.key) (log.acceptAll_commands batch.units)
  rwa [List.map_map, List.map_map] at commands

theorem fresh_filed (e : Ember) (path : String) : (fresh path : Session τ).Filed e path where
  path := rfl
  units _ member := nomatch member
  known _ member := nomatch member
  file := .inl ⟨rfl, rfl⟩

theorem step_filed {path : String} {s : Session τ} {call : JournalBatch × Write} (filed : s.Filed e path)
    (lands : s.Lands e call) : (step e s call).Filed e path := by
  have stepped := step_stepped e s call
  generalize step e s call = next at stepped
  cases stepped with
  | stays => exact filed
  | accepts any fresh =>
    have batches := batches_accept s.log call.1
    refine ⟨filed.path, ?_, ?_, .inr ?_⟩
    · intro batch member
      rcases List.mem_append.mp (batches ▸ member) with earlier | last
      · exact filed.units batch earlier
      · rw [List.mem_singleton.mp last]
        exact JournalLog.acceptAll_any any
    · intro batch member u unit
      refine (hasKey_accept s.log call.1 u.key).mpr ?_
      rcases List.mem_append.mp (batches ▸ member) with earlier | last
      · exact .inl (filed.known batch earlier u unit)
      · rw [List.mem_singleton.mp last] at unit
        have listed := List.mem_map_of_mem (f := CommandUnit.key) unit
        rw [keys_accept] at listed
        exact .inr (List.mem_map.mp listed)
    · rw [lands any fresh, grown, filed.text]
      have lines : linesText e (s.log.batches ++ [(s.log.accept call.1).1]) =
          linesText e s.log.batches ++ encodeBatchLine e (s.log.accept call.1).1 := by
        simp [linesText]
      exact congrArg some (lines.symm.trans (congrArg (linesText e) batches.symm))
  | @stops lead done _ unused =>
    have batches : (s.log.acceptAll (lead :: done)).2.batches = s.log.batches := s.log.acceptAll_batches _
    refine ⟨filed.path, ?_, ?_, ?_⟩
    · intro batch member
      exact filed.units batch (batches ▸ member)
    · intro batch member u unit
      exact (s.log.hasKey_acceptAll _ u.key).mpr (.inl (filed.known batch (batches ▸ member) u unit))
    · rcases filed.file with ⟨missing, none⟩ | written
      · exact .inl ⟨missing, batches.trans none⟩
      · exact .inr (written.trans (congrArg (fun batches => some (linesText e batches)) batches.symm))

theorem step_live {path : String} {s : Session τ} {call : JournalBatch × Write} (live : s.Live path)
    (whole : s.Whole call) : (step e s call).Live path := by
  have stepped := step_stepped e s call
  generalize step e s call = next at stepped
  cases stepped with
  | stays => exact live
  | accepts any fresh =>
    have batches := batches_accept s.log call.1
    have restored := s.log.importStoredBatch_accept any
    have imported : (s.journal.index.importStoredBatch (s.log.accept call.1).1).2 =
        { s.journal.index with toJournalLog := (s.log.accept call.1).2 } := by
      show { s.journal.index with toJournalLog := (s.log.importStoredBatch (s.log.accept call.1).1).2 } = _
      rw [restored]
    have step := congrArg (fun index => (index.importStoredBatch (s.log.accept call.1).1).2) live
    rw [imported, ← replayed_concat, ← batches] at step
    exact step
  | stops _ repeats => exact absurd whole repeats

theorem step_lost {s : Session τ} {call : JournalBatch × Write} (lost : s.Lost) : (step e s call).Lost := by
  have stepped := step_stepped e s call
  generalize step e s call = next at stepped
  have ⟨key, used, apart⟩ := lost
  cases stepped with
  | stays => exact lost
  | accepts any fresh =>
    refine ⟨key, (hasKey_accept s.log call.1 key).mpr (.inl used), ?_⟩
    intro batch member u unit same
    rcases List.mem_append.mp (batches_accept s.log call.1 ▸ member) with earlier | last
    · exact apart batch earlier u unit same
    · rw [List.mem_singleton.mp last] at unit
      have listed := List.mem_map_of_mem (f := CommandUnit.key) unit
      rw [keys_accept] at listed
      have ⟨given, held, alike⟩ := List.mem_map.mp listed
      have unused := ((JournalLog.fresh_iff _ _).mp fresh).1 given held
      rw [alike, same, used] at unused
      cases unused
  | @stops lead done =>
    refine ⟨key, (s.log.hasKey_acceptAll _ key).mpr (.inl used), ?_⟩
    intro batch member
    have batches : (s.log.acceptAll (lead :: done)).2.batches = s.log.batches := s.log.acceptAll_batches _
    exact apart batch (batches ▸ member)

theorem step_stops {path : String} {s : Session τ} {call : JournalBatch × Write} (filed : s.Filed e path)
    (repeats : ¬ s.Whole call) : (step e s call).Lost := by
  have stepped := step_stepped e s call
  generalize step e s call = next at stepped
  cases stepped with
  | stays whole => exact absurd whole repeats
  | accepts _ fresh => exact absurd (.inr ((JournalLog.fresh_iff _ _).mp fresh).2) repeats
  | @stops lead done _ unused =>
    have batches : (s.log.acceptAll (lead :: done)).2.batches = s.log.batches := s.log.acceptAll_batches _
    refine ⟨lead.key, (s.log.hasKey_acceptAll _ _).mpr (.inr ⟨lead, List.mem_cons_self, rfl⟩), ?_⟩
    intro batch member u unit same
    have used := filed.known batch (batches ▸ member) u unit
    rw [same, unused] at used
    cases used

/-! Whole histories. -/

theorem after_filed {path : String} {history : List (JournalBatch × Write)}
    (lands : Along (step e) (Lands e) (fresh path : Session τ) history) :
    (after e path history : Session τ).Filed e path :=
  execute_along (fresh_filed e path) (fun _ _ filed lands => step_filed filed lands) lands

theorem after_live {path : String} {history : List (JournalBatch × Write)}
    (whole : Along (step e) Whole (fresh path : Session τ) history) : (after e path history : Session τ).Live path :=
  execute_along (I := fun s => s.Live path) rfl (fun _ _ live whole => step_live live whole) whole

theorem execute_lost {path : String} {s : Session τ} {history : List (JournalBatch × Write)}
    (filed : s.Filed e path) (lands : Along (step e) (Lands e) s history)
    (repeats : ¬ Along (step e) Whole s history) : (execute (step e) s history).Lost := by
  induction history generalizing s with
  | nil => exact absurd trivial repeats
  | cons call rest ih =>
    rw [execute_cons]
    by_cases whole : s.Whole call
    · exact ih (step_filed filed lands.1) lands.2 fun later => repeats ⟨whole, later⟩
    · exact execute_induction (step_stops filed whole) (fun _ _ lost => step_lost lost) rest

theorem Lost.unread {s : Session τ} (lost : s.Lost) (path : String) :
    ∃ key, (replayed path s.log.batches : InMemoryJournal τ).commands.find? key ≠ s.log.commands.find? key := by
  have ⟨key, used, apart⟩ := lost
  refine ⟨key, fun same => ?_⟩
  have read : (replayed path s.log.batches : InMemoryJournal τ).hasKey key = true :=
    (congrArg Option.isSome same).trans used
  have ⟨batch, member, u, unit, key⟩ := (hasKey_replayed path _ key).mp read
  exact apart batch member u unit key

theorem Filed.opened {path : String} {s : Session τ} (filed : s.Filed e path) (faithful : e.Faithful)
    {subscript : Subscript} (readable : ∀ text, s.file = some text → Readable subscript text) :
    (JsonlJournal.opened subscript e path s.file : Except Failure (JsonlJournal τ) × Option Bytes) =
      (.ok ⟨path, replayed path s.log.batches⟩, s.file) := by
  rcases filed.file with ⟨missing, none⟩ | written
  · rw [missing, none]
    rfl
  · have whole : Readable subscript (linesText e s.log.batches ++ []) := by
      rw [List.append_nil]
      exact readable _ written
    have lines := opened_lines (τ := τ) faithful filed.units List.not_mem_nil path whole
    rw [List.append_nil] at lines
    rw [written, lines]

/-- What a reopened journal shares with the one that was never closed. -/
structure Reopens (e : Ember) (s : Session τ) (reopened : JsonlJournal τ) (file : Option Bytes) : Prop where
  commands (key : String) : reopened.index.commands.find? key = s.journal.index.commands.find? key
  events (runId : String) : reopened.index.events runId = s.journal.index.events runId
  eventSeq (runId : String) : reopened.index.eventSeq runId = s.journal.index.eventSeq runId
  journalSeq : reopened.index.journalSeq = s.journal.index.journalSeq
  answers (batch : JournalBatch) (w : Write) :
    (reopened.appendBatch e file w batch).1 = (s.journal.appendBatch e s.file w batch).1

/-- The calls that append some batches, each write going through. -/
def appends (batches : List JournalBatch) : List (JournalBatch × Write) := batches.map (·, .done)

theorem appends_done (s : Session τ) (batches : List JournalBatch) :
    Along (step e) (fun _ call => call.2 = .done) s (appends batches) := by
  have always : Along (step e) (fun _ _ => True) s (appends batches) := .always (fun _ _ => trivial) _ _
  have done : ∀ call ∈ appends batches, call.2 = .done := by
    intro call member
    have ⟨batch, _, same⟩ := List.mem_map.mp member
    rw [← same]
  exact (always.each done).imp fun _ _ both => both.1

theorem appends_land (s : Session τ) (batches : List JournalBatch) :
    Along (step e) (Lands e) s (appends batches) := by
  refine (appends_done s batches).imp fun _ call done _ _ => ?_
  rw [done]
  rfl

end Session

/-- A batch is read back from its line, and a reopened file gives the journal that was never
    closed exactly when no batch stopped at a key that it repeats and the file can be read. -/
theorem durable_iff (faithful : e.Faithful) :
    (∀ batch, decodeJournalLine e (encodeBatchLine e batch) = .ok batch) ∧
    ∀ (subscript : Subscript) (path : String) (batches : List JournalBatch),
      let live : Session τ := .after e path (Session.appends batches)
      let clean := Along (Session.step e) Session.Whole (Session.fresh path : Session τ) (Session.appends batches) ∧
        ∀ text, live.file = some text → Readable subscript text
      ((∃ reopened file, JsonlJournal.opened subscript e path live.file = (.ok reopened, file) ∧
          live.Reopens e reopened file) ↔ clean) ∧
      (clean → JsonlJournal.opened subscript e path live.file = (.ok live.journal, live.file)) := by
  refine ⟨decode_encode faithful, ?_⟩
  intro subscript path batches live clean
  have lands : Along (Session.step e) (Session.Lands e) (Session.fresh path : Session τ) (Session.appends batches) :=
    Session.appends_land _ batches
  have filed : live.Filed e path := Session.after_filed lands
  have same : clean → JsonlJournal.opened subscript e path live.file = (.ok live.journal, live.file) := by
    intro ⟨whole, readable⟩
    have index : live.Live path := Session.after_live whole
    have journal : live.journal = ⟨path, replayed path live.log.batches⟩ := by
      rw [← index, ← filed.path]
    rw [filed.opened faithful readable, journal]
  refine ⟨⟨?_, ?_⟩, same⟩
  · rintro ⟨reopened, file, opens, shared⟩
    have readable : ∀ text, live.file = some text → Readable subscript text := by
      intro text written
      by_cases readable : Readable subscript text
      · exact readable
      · rw [written, opened_unreadable readable] at opens
        cases opens
    refine ⟨?_, readable⟩
    by_cases whole : Along (Session.step e) Session.Whole (Session.fresh path : Session τ) (Session.appends batches)
    · exact whole
    · have lost : live.Lost := Session.execute_lost (Session.fresh_filed e path) lands whole
      rw [filed.opened faithful readable] at opens
      cases opens
      have ⟨key, unread⟩ := lost.unread path
      exact absurd (shared.commands key) unread
  · intro holds
    exact ⟨_, _, same holds, ⟨fun _ => rfl, fun _ => rfl, fun _ => rfl, rfl, fun _ _ => rfl⟩⟩

/-- Two notes, the same notes again, a batch with no unit, and a note of another run. -/
def noted : List JournalBatch :=
  [.of "run_1" [noteUnit "c1" "k1" "run_1", noteUnit "c2" "k2" "run_1"],
   .of "run_1" [noteUnit "c1" "k1" "run_1"],
   .of "run_1" [],
   .of "run_2" [noteUnit "c3" "k1" "run_2"]]

theorem durable_noted :
    let live : Session Int := .after reader "run.jsonl" (Session.appends noted)
    JsonlJournal.opened .yields reader "run.jsonl" live.file = (.ok live.journal, live.file) :=
  ((durable_iff (τ := Int) reader_faithful).2 .yields "run.jsonl" noted).2
    ⟨by decide +kernel, fun _ _ => .inl rfl⟩

/-- The first of two notes under one key is not in the journal that is opened. -/
theorem durable_loses :
    let live : Session Int := .after reader "run.jsonl"
      (Session.appends [.of "run_1" [noteUnit "c1" "k" "run_1", noteUnit "c2" "k" "run_1"]])
    ¬ ∃ reopened file, JsonlJournal.opened .yields reader "run.jsonl" live.file = (.ok reopened, file) ∧
      live.Reopens reader reopened file := by
  intro live
  rintro ⟨reopened, file, opens, shared⟩
  have unwritten : live.file = none := by decide +kernel
  rw [unwritten] at opens
  cases opens
  exact absurd (shared.commands (cmdKey "run_1" "k")) (by decide +kernel)

end Fala.Jsonl
