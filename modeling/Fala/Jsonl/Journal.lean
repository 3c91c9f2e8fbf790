import Fala.Durable.History
import Fala.Memory.Claim
import Fala.Jsonl.Codec

namespace Fala.Jsonl
open Memory Durable

variable {τ : Type}

/-- `text[byte=i]` at a byte that is no character by itself: either it yields that byte, or
    it aborts, as `redact_environment` records of this toolchain. -/
inductive Subscript where
  | yields | aborts
  deriving DecidableEq

def ascii (text : Bytes) : Bool := text.all fun b => b < 128

/-- The text can be read byte by byte. -/
def Readable (s : Subscript) (text : Bytes) : Prop := s = .yields ∨ ascii text = true

/-- `_split_complete_lines`, after the line read so far. -/
def splitCompleteLines (current : Bytes) : Bytes → List Bytes × Bytes
  | [] => ([], current)
  | b :: rest =>
    if b = newline then
      let (lines, torn) := splitCompleteLines [] rest
      (current :: lines, torn)
    else splitCompleteLines (current ++ [b]) rest

/-- What `write_text` does to the file: all of it, nothing, or its first bytes. -/
inductive Write where
  | done
  | refused
  | cut (length : Nat)

def Write.succeeds : Write → Bool
  | .done => true
  | _ => false

/-- The file after the text was, or was to be, written to it. -/
def Write.leaves (file : Option Bytes) (text : Bytes) : Write → Option Bytes
  | .done => some text
  | .refused => file
  | .cut length => some (text.take length)

inductive Failure where
  | raises (message : String)
  | writeFails
  | aborts

structure JsonlJournal (τ : Type) where
  path : String
  index : InMemoryJournal τ

/-- The loop of `_load` over the complete lines. -/
def loadLines (e : Ember) (index : InMemoryJournal τ) : List Bytes → Except Failure (InMemoryJournal τ)
  | [] => .ok index
  | line :: rest =>
    if line = [] then loadLines e index rest
    else
      match decodeJournalLine e line with
      | .error message => .error (.raises ("jsonl journal: invalid durable line: " ++ message))
      | .ok batch =>
        match index.importStoredBatch batch with
        | (.error message, _) => .error (.raises ("jsonl journal: invalid durable line: " ++ message))
        | (.ok _, index) => loadLines e index rest

namespace JsonlJournal

/-- `JsonlJournal(path)`, with the file it leaves. A torn last line is dropped from it. -/
def opened (s : Subscript) (e : Ember) (path : String) (file : Option Bytes) :
    Except Failure (JsonlJournal τ) × Option Bytes :=
  let index := InMemoryJournal.init ("jsonl://" ++ path)
  match file with
  | none => (.ok ⟨path, index⟩, none)
  | some text =>
    if s = .aborts ∧ ¬ ascii text then (.error .aborts, some text)
    else
      let (lines, torn) := splitCompleteLines [] text
      let kept := if torn = [] then text else lines.flatMap (· ++ [newline])
      ((loadLines e index lines).map fun index => ⟨path, index⟩, some kept)

def appendBatch (e : Ember) (j : JsonlJournal τ) (file : Option Bytes) (w : Write) (batch : JournalBatch) :
    Except Failure AppendResult × JsonlJournal τ × Option Bytes :=
  match j.index.appendBatch batch with
  | (.error message, index) => (.error (.raises message), { j with index }, file)
  | (.ok result, index) =>
    if result.replayed then (.ok result, { j with index }, file)
    else
      let text := file.getD [] ++ encodeBatchLine e result.batch
      (if w.succeeds then .ok result else .error .writeFails, { j with index }, w.leaves file text)

end JsonlJournal

/-- An open journal and its file. -/
structure Session (τ : Type) where
  journal : JsonlJournal τ
  file : Option Bytes

namespace Session

def fresh (path : String) : Session τ := ⟨⟨path, .init ("jsonl://" ++ path)⟩, none⟩

/-- What becomes of a session when a batch is appended. -/
def step (e : Ember) (s : Session τ) (call : JournalBatch × Write) : Session τ :=
  let (_, journal, file) := s.journal.appendBatch e s.file call.2 call.1
  ⟨journal, file⟩

def after (e : Ember) (path : String) (history : List (JournalBatch × Write)) : Session τ :=
  execute (step e) (fresh path) history

def log (s : Session τ) : JournalLog := s.journal.index.toJournalLog

end Session

/-! Reading back what was written. -/

/-- The lines of some batches. -/
def linesText (e : Ember) (batches : List JournalBatch) : Bytes := batches.flatMap (encodeBatchLine e)

theorem splitCompleteLines_text {line : Bytes} (whole : newline ∉ line) (current rest : Bytes) :
    splitCompleteLines current (line ++ newline :: rest) =
      ((current ++ line) :: (splitCompleteLines [] rest).1, (splitCompleteLines [] rest).2) := by
  induction line generalizing current with
  | nil => simp [splitCompleteLines]
  | cons b line ih =>
    have ⟨other, later⟩ := List.ne_and_not_mem_of_not_mem_cons whole
    rw [List.cons_append, splitCompleteLines, if_neg (Ne.symm other), ih later]
    simp

theorem splitCompleteLines_torn {torn : Bytes} (noLine : newline ∉ torn) (current : Bytes) :
    splitCompleteLines current torn = ([], current ++ torn) := by
  induction torn generalizing current with
  | nil => simp [splitCompleteLines]
  | cons b torn ih =>
    have ⟨other, later⟩ := List.ne_and_not_mem_of_not_mem_cons noLine
    rw [splitCompleteLines, if_neg (Ne.symm other), ih later]
    simp

variable {e : Ember}

/-- A batch's line without its newline. -/
def lineOf (e : Ember) (batch : JournalBatch) : Bytes := e.write (lineValue batch).canonical

theorem lineOf_line (faithful : e.Faithful) (batch : JournalBatch) :
    lineOf e batch ≠ [] ∧ newline ∉ lineOf e batch :=
  faithful.line _ (Json.plain_canonical _ (lineValue_plain batch))

theorem decode_lineOf (faithful : e.Faithful) (batch : JournalBatch) :
    decodeJournalLine e (lineOf e batch) = .ok batch := by
  have isPlain := Json.plain_canonical _ (lineValue_plain batch)
  rw [decodeJournalLine, lineOf, faithful.written _ isPlain]
  exact (decodeLine_canonical _).trans (decodeLine_value batch)

theorem linesText_eq (faithful : e.Faithful) (batches : List JournalBatch) :
    linesText e batches = (batches.map (lineOf e)).flatMap (· ++ [newline]) := by
  rw [linesText, List.flatMap_map]
  exact congrArg (List.flatMap · batches) (funext fun batch => encodeBatchLine_eq faithful batch)

theorem split_linesText (faithful : e.Faithful) (batches : List JournalBatch) {torn : Bytes}
    (noLine : newline ∉ torn) :
    splitCompleteLines [] (linesText e batches ++ torn) = (batches.map (lineOf e), torn) := by
  rw [linesText_eq faithful]
  induction batches with
  | nil => simpa using splitCompleteLines_torn noLine []
  | cons batch rest ih =>
    have whole := (lineOf_line faithful batch).2
    have text : ((batch :: rest).map (lineOf e)).flatMap (· ++ [newline]) ++ torn =
        lineOf e batch ++ newline :: ((rest.map (lineOf e)).flatMap (· ++ [newline]) ++ torn) := by simp
    rw [text, splitCompleteLines_text whole, ih]
    rfl

/-- The journal that some batches are imported into. -/
def replayed (path : String) (batches : List JournalBatch) : InMemoryJournal τ :=
  batches.foldl (fun index batch => (index.importStoredBatch batch).2) (.init ("jsonl://" ++ path))

theorem importStoredBatch_ok (index : InMemoryJournal τ) {batch : JournalBatch} (any : batch.units ≠ []) :
    (index.importStoredBatch batch).1 = .ok () := by
  show (index.toJournalLog.importStoredBatch batch).1 = _
  rw [JournalLog.importStoredBatch, if_neg any]

theorem loadLines_lines (faithful : e.Faithful) {batches : List JournalBatch}
    (any : ∀ batch ∈ batches, batch.units ≠ []) (index : InMemoryJournal τ) :
    loadLines e index (batches.map (lineOf e)) =
      .ok (batches.foldl (fun index batch => (index.importStoredBatch batch).2) index) := by
  induction batches generalizing index with
  | nil => rfl
  | cons batch rest ih =>
    have ⟨here, later⟩ := List.forall_mem_cons.mp any
    have imports := importStoredBatch_ok index here
    rw [List.map_cons, loadLines, if_neg (lineOf_line faithful batch).1, decode_lineOf faithful]
    simp only
    generalize stored : index.importStoredBatch batch = outcome at imports
    obtain ⟨answer, grown⟩ := outcome
    cases imports
    simp only [List.foldl_cons, stored]
    exact ih later grown

theorem opened_unreadable {s : Subscript} {text : Bytes} (unreadable : ¬ Readable s text) (path : String) :
    (JsonlJournal.opened s e path (some text) : Except Failure (JsonlJournal τ) × Option Bytes) =
      (.error .aborts, some text) := by
  have aborts : s = .aborts ∧ ¬ ascii text = true := by
    cases s with
    | yields => exact absurd (.inl rfl) unreadable
    | aborts => exact ⟨rfl, fun isAscii => unreadable (.inr isAscii)⟩
  unfold JsonlJournal.opened
  simp only [if_pos aborts]

theorem opened_lines (faithful : e.Faithful) {s : Subscript} {batches : List JournalBatch}
    (any : ∀ batch ∈ batches, batch.units ≠ []) {torn : Bytes} (noLine : newline ∉ torn) (path : String)
    (readable : Readable s (linesText e batches ++ torn)) :
    (JsonlJournal.opened s e path (some (linesText e batches ++ torn)) :
      Except Failure (JsonlJournal τ) × Option Bytes) =
        (.ok ⟨path, replayed path batches⟩, some (linesText e batches)) := by
  have reads : ¬ (s = .aborts ∧ ¬ ascii (linesText e batches ++ torn) = true) := by
    rintro ⟨rfl, other⟩
    rcases readable with yields | isAscii
    · cases yields
    · exact other isAscii
  unfold JsonlJournal.opened
  simp only [if_neg reads, split_linesText faithful batches noLine, loadLines_lines faithful any, Except.map]
  refine Prod.ext rfl (congrArg some ?_)
  by_cases none : torn = []
  · rw [if_pos none, none, List.append_nil]
  · rw [if_neg none, linesText_eq faithful]

end Fala.Jsonl
