import Mathlib.Data.List.Induction
import Fala.Jsonl.Durability

namespace Fala.Jsonl
open Memory Durable

variable {τ : Type} {e : Ember}

/-- The batches whose lines lie wholly in a text. -/
def contained (e : Ember) : List JournalBatch → Bytes → List JournalBatch
  | [], _ => []
  | batch :: rest, text =>
    let line := encodeBatchLine e batch
    if line <+: text then batch :: contained e rest (text.drop line.length) else []

theorem contained_first (batches : List JournalBatch) (text : Bytes) :
    contained e batches text <+: batches := by
  induction batches generalizing text with
  | nil => exact List.prefix_rfl
  | cons batch rest ih =>
    unfold contained
    by_cases whole : encodeBatchLine e batch <+: text
    · simp only [whole, if_true]
      exact (List.prefix_cons_inj batch).mpr (ih _)
    · simp only [whole, if_false]
      exact List.nil_prefix

theorem units_contained {batches : List JournalBatch} (any : ∀ batch ∈ batches, batch.units ≠ []) (text : Bytes) :
    ∀ batch ∈ contained e batches text, batch.units ≠ [] :=
  fun batch member => any batch ((contained_first batches text).subset member)

theorem part_contained (faithful : e.Faithful) {batches : List JournalBatch} {text : Bytes}
    (part : text <+: linesText e batches) :
    ∃ torn, newline ∉ torn ∧ text = linesText e (contained e batches text) ++ torn := by
  induction batches generalizing text with
  | nil =>
    have empty : text = [] := List.prefix_nil.mp part
    exact ⟨[], List.not_mem_nil, by rw [empty]; rfl⟩
  | cons batch rest ih =>
    have lines : linesText e (batch :: rest) = encodeBatchLine e batch ++ linesText e rest := rfl
    rw [lines] at part
    by_cases whole : encodeBatchLine e batch <+: text
    · have ⟨later, split⟩ := whole
      have remains : later <+: linesText e rest := by
        rw [← split] at part
        exact (List.prefix_append_right_inj _).mp part
      have dropped : text.drop (encodeBatchLine e batch).length = later := by
        rw [← split, List.drop_left]
      have ⟨torn, noLine, same⟩ := ih remains
      refine ⟨torn, noLine, ?_⟩
      have head : contained e (batch :: rest) text = batch :: contained e rest later := by
        rw [contained]
        simp only [whole, if_true, dropped]
      have tail : linesText e (batch :: contained e rest later) =
          encodeBatchLine e batch ++ linesText e (contained e rest later) := rfl
      rw [head, tail, List.append_assoc, ← same, split]
    · have none : contained e (batch :: rest) text = [] := by
        rw [contained]
        simp only [whole, if_false]
      have within : text <+: encodeBatchLine e batch := by
        rcases List.prefix_or_prefix_of_prefix part (List.prefix_append ..) with within | other
        · exact within
        · exact absurd other whole
      have noLine : newline ∉ text := by
        rw [encodeBatchLine_eq faithful] at within whole
        rcases List.prefix_concat_iff.mp within with same | short
        · exact absurd (same ▸ List.prefix_rfl) whole
        · exact fun member => (lineOf_line faithful batch).2 (short.subset member)
      exact ⟨text, noLine, by rw [none]; rfl⟩

theorem opened_part (faithful : e.Faithful) {s : Subscript} {batches : List JournalBatch}
    (any : ∀ batch ∈ batches, batch.units ≠ []) {text : Bytes} (part : text <+: linesText e batches)
    (readable : Readable s text) (path : String) :
    (JsonlJournal.opened s e path (some text) : Except Failure (JsonlJournal τ) × Option Bytes) =
      (.ok ⟨path, replayed path (contained e batches text)⟩,
       some (linesText e (contained e batches text))) := by
  have ⟨torn, noLine, split⟩ := part_contained faithful part
  rw [split] at readable
  have opens := opened_lines (τ := τ) faithful (units_contained any text) noLine path readable
  rwa [← split] at opens

theorem whole_of_contained (faithful : e.Faithful) {batches : List JournalBatch} {text : Bytes}
    (part : text <+: linesText e batches) (all : (contained e batches text).length = batches.length) :
    text = linesText e batches := by
  have ⟨torn, _, split⟩ := part_contained faithful part
  have same : contained e batches text = batches := (contained_first batches text).eq_of_length all
  rw [same] at split
  have longer : (linesText e batches).length ≤ text.length := by
    rw [split, List.length_append]
    omega
  exact part.eq_of_length_le longer

namespace Session

/-- An append that raises because its write fails leaves the index that reopening gives. -/
def Recovers (subscript : Subscript) (e : Ember) (path : String) (s : Session τ)
    (call : JournalBatch × Write) : Prop :=
  (s.journal.appendBatch e s.file call.2 call.1).1 = .error .writeFails →
    ∃ reopened file, JsonlJournal.opened subscript e path (step e s call).file = (.ok reopened, file) ∧
      reopened.index = (step e s call).journal.index

/-- The write that fails has left all of its text, which can be read, and no command was
    indexed that no accepted batch holds. -/
def Survives (subscript : Subscript) (e : Ember) (s : Session τ) (call : JournalBatch × Write) : Prop :=
  (s.journal.appendBatch e s.file call.2 call.1).1 = .error .writeFails →
    call.2.leaves s.file (s.grown e call.1) = some (s.grown e call.1) ∧
      Readable subscript (s.grown e call.1) ∧ ¬ s.Lost

theorem writeFails_accepts {s : Session τ} {call : JournalBatch × Write}
    (fails : (s.journal.appendBatch e s.file call.2 call.1).1 = .error .writeFails) :
    call.1.units ≠ [] ∧ s.log.Fresh call.1.units ∧ call.2.succeeds = false ∧ step e s call =
      ⟨⟨s.journal.path, { s.journal.index with toJournalLog := (s.log.accept call.1).2 }⟩,
       call.2.leaves s.file (s.grown e call.1)⟩ := by
  have answer := JournalLog.appendBatch_answer s.journal.index.toJournalLog call.1
  unfold step
  unfold JsonlJournal.appendBatch InMemoryJournal.appendBatch at fails ⊢
  generalize s.journal.index.toJournalLog.appendBatch call.1 = outcome at answer fails
  cases answer with
  | empty | replays | partly | stops => cases fails
  | accepts any fresh =>
    refine ⟨any, fresh, ?_, rfl⟩
    by_cases succeeds : call.2.succeeds = true
    · simp [succeeds] at fails
    · exact Bool.eq_false_iff.mpr succeeds

theorem lands_of_survives {subscript : Subscript} {s : Session τ} {call : JournalBatch × Write}
    (survives : s.Survives subscript e call) : s.Lands e call := by
  intro any fresh
  cases write : call.2 with
  | done => rfl
  | refused | cut =>
    have fails : (s.journal.appendBatch e s.file call.2 call.1).1 = .error .writeFails := by
      have appended : s.journal.index.toJournalLog.appendBatch call.1 = _ := JournalLog.appendBatch_fresh any fresh
      unfold JsonlJournal.appendBatch InMemoryJournal.appendBatch
      rw [appended, write]
      rfl
    rw [← write]
    exact (survives fails).1

/-- The index and the file of a session that no failed write has damaged. -/
structure Sound (e : Ember) (path : String) (s : Session τ) : Prop where
  filed : s.Filed e path
  index : s.Live path ∨ s.Lost

theorem step_sound {path : String} {s : Session τ} {call : JournalBatch × Write} (sound : s.Sound e path)
    (lands : s.Lands e call) : (step e s call).Sound e path := by
  refine ⟨step_filed sound.filed lands, ?_⟩
  rcases sound.index with live | lost
  · by_cases whole : s.Whole call
    · exact .inl (step_live live whole)
    · exact .inr (step_stops sound.filed whole)
  · exact .inr (step_lost lost)

theorem reopened_short {subscript : Subscript} {path : String} {s : Session τ} {call : JournalBatch × Write}
    (faithful : e.Faithful) (filed : s.Filed e path) (any : call.1.units ≠ []) (failed : call.2.succeeds = false)
    {reopened : JsonlJournal τ} {file : Option Bytes}
    (opens : JsonlJournal.opened subscript e path (call.2.leaves s.file (s.grown e call.1)) = (.ok reopened, file))
    (same : reopened.index.batches.length = s.log.batches.length + 1) :
    call.2.leaves s.file (s.grown e call.1) = some (s.grown e call.1) ∧
      Readable subscript (s.grown e call.1) := by
  have grown : s.grown e call.1 = linesText e (s.log.batches ++ [(s.log.accept call.1).1]) := by
    rw [grown, filed.text]
    simp [linesText]
  have all : ∀ batch ∈ s.log.batches ++ [(s.log.accept call.1).1], batch.units ≠ [] := by
    intro batch member
    rcases List.mem_append.mp member with earlier | last
    · exact filed.units batch earlier
    · rw [List.mem_singleton.mp last]
      exact JournalLog.acceptAll_any any
  have readable : ∀ text, call.2.leaves s.file (s.grown e call.1) = some text → Readable subscript text := by
    intro text written
    by_cases readable : Readable subscript text
    · exact readable
    · rw [written, opened_unreadable readable] at opens
      cases opens
  cases write : call.2 with
  | done =>
    rw [write] at failed
    cases failed
  | refused =>
    rw [write] at opens readable
    simp only [Write.leaves] at opens readable
    rw [filed.opened faithful readable] at opens
    cases opens
    have length : (replayed path s.log.batches : InMemoryJournal τ).batches.length = _ :=
      batches_replayed filed.units
    exact absurd (same.symm.trans length) (Nat.succ_ne_self _)
  | cut k =>
    rw [write] at opens readable
    have part : (s.grown e call.1).take k <+: linesText e (s.log.batches ++ [(s.log.accept call.1).1]) := by
      rw [← grown]
      exact List.take_prefix _ _
    have readable := readable _ rfl
    have length : (replayed path (contained e _ ((s.grown e call.1).take k)) : InMemoryJournal τ).batches.length = _ :=
      batches_replayed (units_contained all ((s.grown e call.1).take k))
    rw [Write.leaves, opened_part faithful all part readable] at opens
    cases opens
    have complete : (s.grown e call.1).take k = s.grown e call.1 := by
      rw [grown]
      refine whole_of_contained faithful (grown ▸ part) ?_
      rw [← grown, ← length, same]
      simp
    rw [complete] at readable
    exact ⟨congrArg some complete, readable⟩

theorem recovers_iff {path : String} {s : Session τ} {call : JournalBatch × Write} (faithful : e.Faithful)
    (subscript : Subscript) (sound : s.Sound e path) :
    s.Recovers subscript e path call ↔ s.Survives subscript e call := by
  refine forall_congr' fun fails => ?_
  have ⟨any, fresh, failed, stepped⟩ := writeFails_accepts fails
  have batches := batches_accept s.log call.1
  rw [stepped]
  constructor
  · rintro ⟨reopened, file, opens, same⟩
    have length : reopened.index.batches.length = s.log.batches.length + 1 := by
      rw [same]
      show (s.log.accept call.1).2.batches.length = _
      rw [batches, List.length_append, List.length_singleton]
    have ⟨left, readable⟩ := reopened_short faithful sound.filed any failed opens length
    refine ⟨left, readable, fun lost => ?_⟩
    have lands : s.Lands e call := fun _ _ => left
    have filed := step_filed sound.filed lands
    have later : (step e s call).Lost := step_lost lost
    have ⟨key, unread⟩ := later.unread path
    rw [stepped] at filed unread
    have reads : ∀ text, call.2.leaves s.file (s.grown e call.1) = some text → Readable subscript text := by
      intro text written
      rw [left] at written
      cases written
      exact readable
    have found := filed.opened faithful reads
    rw [opens] at found
    cases found
    exact unread (congrArg (fun index => index.commands.find? key) same)
  · rintro ⟨left, readable, kept⟩
    have live : s.Live path := sound.index.resolve_right kept
    have lands : s.Lands e call := fun _ _ => left
    have whole : s.Whole call := .inr ((JournalLog.fresh_iff _ _).mp fresh).2
    have filed := step_filed sound.filed lands
    have index := step_live (e := e) live whole
    rw [stepped] at filed index
    refine ⟨_, _, filed.opened faithful ?_, index.symm⟩
    intro text written
    rw [left] at written
    cases written
    exact readable

theorem appends_survive (subscript : Subscript) (s : Session τ) (batches : List JournalBatch) :
    Along (step e) (Survives subscript e) s (appends batches) := by
  refine (appends_done s batches).imp fun s call done fails => ?_
  have ⟨_, _, failed, _⟩ := writeFails_accepts fails
  rw [done] at failed
  cases failed

theorem fresh_sound (e : Ember) (path : String) : (fresh path : Session τ).Sound e path :=
  ⟨fresh_filed e path, .inl rfl⟩

theorem earlier_batches {path : String} (history : List (JournalBatch × Write)) {batches : List JournalBatch}
    (first : batches <+: (after e path history : Session τ).log.batches) :
    ∃ earlier, earlier <+: history ∧ (after e path earlier : Session τ).log.batches = batches := by
  induction history using List.reverseRecOn with
  | nil => exact ⟨[], List.prefix_rfl, (List.prefix_nil.mp first).symm⟩
  | append_singleton rest call ih =>
    have last : (after e path (rest ++ [call]) : Session τ) = step e (after e path rest) call :=
      execute_append (step e) (fresh path) rest [call]
    have stepped := step_stepped e (after e path rest : Session τ) call
    rw [← last] at stepped
    have earlier (here : batches <+: (after e path rest : Session τ).log.batches) :
        ∃ earlier, earlier <+: rest ++ [call] ∧ (after e path earlier : Session τ).log.batches = batches := by
      have ⟨before, part, same⟩ := ih here
      exact ⟨before, part.trans (List.prefix_append ..), same⟩
    generalize ended : (after e path (rest ++ [call]) : Session τ) = next at first stepped
    cases stepped with
    | stays => exact earlier first
    | accepts any fresh =>
      have grows := batches_accept (after e path rest : Session τ).log call.1
      rcases List.prefix_concat_iff.mp (grows ▸ first) with same | shorter
      · refine ⟨rest ++ [call], List.prefix_rfl, ?_⟩
        rw [ended, same]
        exact grows
      · exact earlier shorter
    | @stops lead done =>
      have kept := (after e path rest : Session τ).log.acceptAll_batches (lead :: done)
      exact earlier (kept ▸ first)

end Session

/-- What opening a part of a session's file has to do: the journal of the batches that lie in
    the part wholly is loaded, and their lines are left. -/
def PartOpens (subscript : Subscript) (e : Ember) (path : String) (live : Session τ) (part : Bytes) : Prop :=
  JsonlJournal.opened subscript e path (some part) =
    (.ok (⟨path, replayed path (contained e live.log.batches part)⟩ : JsonlJournal τ),
     some (linesText e (contained e live.log.batches part)))

/-- Every failed write of a run is recovered from exactly when each has left all of its text;
    and then every part of the file opens exactly when the file can be read, to a journal
    that the run went through if no batch stopped midway. -/
theorem crash_iff (faithful : e.Faithful) (subscript : Subscript) (path : String)
    (history : List (JournalBatch × Write)) :
    let start : Session τ := .fresh path
    let live : Session τ := .after e path history
    (Along (Session.step e) (Session.Recovers subscript e path) start history ↔
      Along (Session.step e) (Session.Survives subscript e) start history) ∧
    (Along (Session.step e) (Session.Survives subscript e) start history →
      ((∀ text, live.file = some text → ∀ part, part <+: text → PartOpens subscript e path live part) ↔
        ∀ text, live.file = some text → Readable subscript text) ∧
      (Along (Session.step e) Session.Whole start history → ∀ part, ∃ earlier, earlier <+: history ∧
        (Session.after e path earlier : Session τ).log.batches = contained e live.log.batches part ∧
        (Session.after e path earlier : Session τ).journal =
          ⟨path, replayed path (contained e live.log.batches part)⟩)) := by
  intro start live
  refine ⟨?_, fun survives => ⟨⟨?_, ?_⟩, ?_⟩⟩
  · have always : Along (Session.step e) (fun _ _ => True) start history := .always (fun _ _ => trivial) _ _
    refine always.iff (Session.fresh_sound e path)
      (fun s call sound _ => Session.recovers_iff faithful subscript sound) ?_
    intro s call sound recovers
    have survives := (Session.recovers_iff faithful subscript sound).mp recovers
    exact Session.step_sound sound (Session.lands_of_survives survives)
  · intro opens text written
    by_cases readable : Readable subscript text
    · exact readable
    · have part := opens text written text List.prefix_rfl
      rw [PartOpens, opened_unreadable readable] at part
      cases part
  · intro readable text written part within
    have filed : live.Filed e path :=
      Session.after_filed (survives.imp fun _ _ survives => Session.lands_of_survives survives)
    have lines : text = linesText e live.log.batches := by
      rw [← filed.text, written]
      rfl
    have reads : Readable subscript part := by
      rcases readable text written with yields | isAscii
      · exact .inl yields
      · exact .inr (List.all_eq_true.mpr fun b member => List.all_eq_true.mp isAscii b (within.subset member))
    exact opened_part faithful filed.units (lines ▸ within) reads path
  · intro whole part
    have ⟨earlier, before, same⟩ := Session.earlier_batches history (contained_first (e := e) live.log.batches part)
    have ⟨rest, split⟩ := before
    refine ⟨earlier, before, same, ?_⟩
    rw [← split] at whole survives
    have filed : (Session.after e path earlier : Session τ).Filed e path :=
      Session.after_filed (survives.append_left.imp fun _ _ survives => Session.lands_of_survives survives)
    have index : (Session.after e path earlier : Session τ).Live path := Session.after_live whole.append_left
    rw [Session.Live, same] at index
    exact congr (congrArg JsonlJournal.mk filed.path) index

theorem crash_noted :
    let live : Session Int := .after reader "run.jsonl" (Session.appends noted)
    (Along (Session.step reader) (Session.Recovers .yields reader "run.jsonl") (Session.fresh "run.jsonl" : Session Int)
      (Session.appends noted)) ∧
    ∀ text, live.file = some text → ∀ part, part <+: text → PartOpens .yields reader "run.jsonl" live part := by
  have survives := Session.appends_survive (e := reader) .yields (Session.fresh "run.jsonl" : Session Int) noted
  have crash := crash_iff (τ := Int) reader_faithful .yields "run.jsonl" (Session.appends noted)
  exact ⟨crash.1.mpr survives, (crash.2 survives).1.mpr fun _ _ => .inl rfl⟩

/-- A batch whose write is refused is in the index and in no file. -/
theorem refused_write_indexed :
    ¬ Session.Recovers .yields reader "run.jsonl" (Session.fresh "run.jsonl" : Session Int)
      (.of "run_1" [noteUnit "c1" "k1" "run_1"], .refused) := by
  intro recovers
  have ⟨reopened, file, opens, same⟩ := recovers rfl
  cases opens
  exact absurd (congrArg (fun index => index.batches.length) same) (by decide +kernel)

end Fala.Jsonl
