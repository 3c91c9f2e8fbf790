import Fala.Driver.Persisted
import Fala.Driver.Supported

/-! Adapter bindings that survive the journal. -/

namespace Fala.Driver
open Durable Journal

/-- A text that a load can read: it holds no binding, or a whole one. -/
def Readable (metadata : Text) : Prop := Unmarked metadata ∨ ∃ held, Holds metadata held

section
variable {rows : List ProcessRow} {runId : String}

theorem loadRows_returns : (∃ loaded, loadRows runId rows = .ok loaded) ↔ ∀ row ∈ rows, Readable row.metadata := by
  induction rows with
  | nil => exact iff_of_true ⟨[], rfl⟩ fun _ member => nomatch member
  | cons row rest ih =>
    rw [List.forall_mem_cons, ← ih, loadRows]
    by_cases malformed : bindingMetadataState row.metadata < 0
    · rw [if_pos malformed]
      constructor
      · rintro ⟨_, raised⟩
        cases raised
      · rintro ⟨unmarked | ⟨held, holds⟩, -⟩
        · rw [unmarked] at malformed
          exact absurd malformed (by decide)
        · rw [holds.marked] at malformed
          exact absurd malformed (by decide)
    rw [if_neg malformed]
    by_cases marked : 0 < bindingMetadataState row.metadata
    · rw [if_pos marked]
      have unread : Readable row.metadata ↔ ∃ held, Holds row.metadata held :=
        or_iff_right (state_pos marked)
      rw [unread]
      unfold Holds
      cases bindingFromMetadata row.metadata with
      | error message => simp [bind, Except.bind]
      | ok held => cases loadRows runId rest <;> simp [bind, Except.bind, pure, Except.pure]
    · rw [if_neg marked]
      have unmarked : Unmarked row.metadata := le_antisymm (not_lt.mp marked) (not_lt.mp malformed)
      exact (and_iff_right (.inl unmarked)).symm

theorem mem_loadRows {loaded : List AdapterBinding} (h : loadRows runId rows = .ok loaded) {l : AdapterBinding} :
    l ∈ loaded ↔ ∃ row ∈ rows, Holds row.metadata l.adapter ∧ l = ⟨row.id, l.adapter, runId⟩ := by
  induction rows generalizing loaded with
  | nil =>
    cases h
    simp
  | cons row rest ih =>
    simp only [List.mem_cons, exists_eq_or_imp]
    rw [loadRows] at h
    by_cases malformed : bindingMetadataState row.metadata < 0
    · rw [if_pos malformed] at h
      cases h
    rw [if_neg malformed] at h
    by_cases marked : 0 < bindingMetadataState row.metadata
    · rw [if_pos marked] at h
      unfold Holds at ih ⊢
      cases read : bindingFromMetadata row.metadata with
      | error message => simp [read, bind, Except.bind] at h
      | ok held =>
        cases later : loadRows runId rest with
        | error message => simp [read, later, bind, Except.bind] at h
        | ok others =>
          simp only [read, later, bind, Except.bind, pure, Except.pure, Except.ok.injEq] at h
          subst h
          rw [List.mem_cons, ih later]
          refine or_congr_left ⟨?_, ?_⟩
          · rintro rfl
            exact ⟨rfl, rfl⟩
          · rintro ⟨same, shape⟩
            cases same
            exact shape
    · rw [if_neg marked] at h
      rw [ih h]
      have unmarked : Unmarked row.metadata := le_antisymm (not_lt.mp marked) (not_lt.mp malformed)
      constructor
      · exact .inr
      · rintro (⟨holds, -⟩ | later)
        · exact absurd unmarked holds.not_unmarked
        · exact later

end

/-- What a load after a batch returns for a binding of it: one adapter, equal to the given one, which
    gives a child process the same environment. -/
def Survives (db : Database) (b : AdapterBinding) : Prop :=
  ∃ loaded, (loadAdapterBindings b.runId).eval db = (.ok loaded, db) ∧ (∃ l ∈ loaded, l.key = b.key) ∧
    ∀ l ∈ loaded, l.key = b.key → l.adapter.Same b.adapter ∧
      ∀ host, SameEnvironment (resolveEnvironment l.adapter host) (resolveEnvironment b.adapter host)

section
variable {db db' : Database} {timestamp : String} {bindings : List AdapterBinding} {b : AdapterBinding}

theorem metadataOf_some {k : String × String} {metadata : Text} :
    metadataOf db k = some metadata ↔ ∃ row ∈ db.processes.rows, row.key = k ∧ row.metadata = metadata := by
  rw [metadataOf, Option.map_eq_some_iff]
  simp only [Table.find?_some, and_assoc]

theorem load_ok {loaded : List AdapterBinding} :
    (loadAdapterBindings b.runId).eval db = (.ok loaded, db) ↔ b.runId ≠ "" ∧
      loadRows b.runId ((db.processes.rows.filter fun r => r.runId = b.runId).insertionSort
        fun left right => left.id ≤ right.id) = .ok loaded := by
  simp only [loadAdapterBindings, Program.bind_ok, Program.require_ok, Program.query_ok, decide_eq_true_eq]
  constructor
  · rintro ⟨_, _, ⟨named, rfl⟩, read, -⟩
    exact ⟨named, read⟩
  · rintro ⟨named, read⟩
    exact ⟨(), db, ⟨named, rfl⟩, read, rfl⟩

theorem mem_run {row : ProcessRow} :
    row ∈ (db.processes.rows.filter fun r => r.runId = b.runId).insertionSort (fun left right => left.id ≤ right.id) ↔
      row ∈ db.processes.rows ∧ row.runId = b.runId := by
  rw [List.mem_insertionSort, List.mem_filter, decide_eq_true_eq]

theorem survives_iff {metadata : Text} {held : AdapterSpec} (named : b.runId ≠ "")
    (here : metadataOf db b.key = some metadata) (holds : Holds metadata held) :
    Survives db b ↔ (∀ k metadata, k.1 = b.runId → metadataOf db k = some metadata → Readable metadata) ∧
      held.Same b.adapter := by
  have all : (∀ k metadata, k.1 = b.runId → metadataOf db k = some metadata → Readable metadata) ↔
      ∃ loaded, (loadAdapterBindings b.runId).eval db = (.ok loaded, db) := by
    simp only [load_ok, named, ne_eq, not_false_eq_true, true_and, loadRows_returns, mem_run, metadataOf_some]
    constructor
    · intro readable row member
      exact readable row.key row.metadata member.2 ⟨row, member.1, rfl, rfl⟩
    · rintro readable k metadata own ⟨row, member, rfl, rfl⟩
      exact readable row ⟨member, own⟩
  have found (loaded : List AdapterBinding) (read : (loadAdapterBindings b.runId).eval db = (.ok loaded, db)) :
      (∃ l ∈ loaded, l.key = b.key) ∧ ∀ l ∈ loaded, l.key = b.key → l.adapter = held := by
    have listed (l : AdapterBinding) := mem_loadRows (load_ok.mp read).2 (l := l)
    simp only [mem_run] at listed
    obtain ⟨row, member, key, rfl⟩ := metadataOf_some.mp here
    have run : row.runId = b.runId := congrArg Prod.fst key
    have id : row.id = b.processId := congrArg Prod.snd key
    constructor
    · refine ⟨⟨row.id, held, b.runId⟩, (listed _).mpr ⟨row, ⟨member, run⟩, holds, rfl⟩, ?_⟩
      rw [AdapterBinding.key, AdapterBinding.key, id]
    · intro l inside same
      obtain ⟨other, ⟨member', run'⟩, holds', shape⟩ := (listed l).mp inside
      have key' : other.key = b.key := by
        rw [← same, shape, ProcessRow.key, AdapterBinding.key, run']
      obtain rfl : other = row := by
        have one := Table.find?_some.mpr ⟨member', key'⟩
        have two := Table.find?_some.mpr ⟨member, key⟩
        exact Option.some.inj (one.symm.trans two)
      exact holds'.unique holds
  rw [all]
  constructor
  · rintro ⟨loaded, read, ⟨l, inside, key⟩, each⟩
    have held' := (found loaded read).2 l inside key
    exact ⟨⟨loaded, read⟩, held' ▸ (each l inside key).1⟩
  · rintro ⟨⟨loaded, read⟩, same⟩
    obtain ⟨some_, each⟩ := found loaded read
    refine ⟨loaded, read, some_, fun l inside key => ?_⟩
    rw [each l inside key]
    exact ⟨same, resolveEnvironment_same same⟩

/-- The value that a row keeps for a literal environment entry of the adapter that is bound to it. -/
def heldValue (metadata : Text) (key : String) : Option String :=
  match bindingFromMetadata metadata with
  | .ok held => held.env.get key
  | .error _ => some "<redacted>"

/-- The rows of the run can be read, and the literal values of the adapter are those that its row
    keeps. -/
structure Keeps (db : Database) (b : AdapterBinding) : Prop where
  readable : ∀ k metadata, k.1 = b.runId → metadataOf db k = some metadata → Readable metadata
  literal : ∀ metadata key value, metadataOf db b.key = some metadata → b.adapter.env.get key = some value →
    isReference value = false → heldValue metadata key = some value

theorem same_iff {held adapter : AdapterSpec} (shown : held.redacted.Same adapter.redacted) :
    held.Same adapter ↔ ∀ key value, adapter.env.get key = some value → isReference value = false →
      held.env.get key = some value := by
  constructor
  · intro same key value set _
    rw [same.env, set]
  · intro literal
    refine ⟨shown.kind, shown.ref, shown.command, shown.cwd, fun key => ?_, shown.inheritEnv, shown.timeoutSeconds⟩
    have entry := shown.env key
    rw [AdapterSpec.get_redacted, AdapterSpec.get_redacted] at entry
    cases set : adapter.env.get key with
    | none =>
      rw [set, Option.map_none, Option.map_eq_none_iff] at entry
      exact entry
    | some value =>
      by_cases reference : isReference value = true
      · rw [set, Option.map_some, Option.map_eq_some_iff] at entry
        obtain ⟨own, held', same⟩ := entry
        rw [redactedEnvValue_eq, redactedEnvValue_eq, if_pos reference] at same
        by_cases also : isReference own = true
        · rw [if_pos also] at same
          rw [held', same]
        · rw [if_neg also] at same
          rw [← same, redacted_literal] at reference
          cases reference
      · exact literal key value set (Bool.eq_false_iff.mpr reference)

theorem redacted_value {held adapter : AdapterSpec} (shown : held.redacted.Same adapter.redacted)
    (redacted : held.redacted.Same held) {key value : String} (set : adapter.env.get key = some value)
    (literal : isReference value = false) : held.env.get key = some "<redacted>" := by
  rw [← redacted.env, shown.env, AdapterSpec.get_redacted, set, Option.map_some, redactedEnvValue_eq, literal]
  rfl

theorem Bound.readable {old new : Option Text} (bound : Bound old new) :
    (∀ metadata, new = some metadata → Readable metadata) ↔ ∀ metadata, old = some metadata → Readable metadata := by
  rcases bound with rfl | ⟨metadata, metadata', held, rfl, unmarked, rfl, holds, -⟩
  · rfl
  · simp only [Option.some.injEq, forall_eq']
    exact iff_of_true (.inr ⟨held, holds⟩) (.inl unmarked)

/-- What the checks of a batch ask of it and of the rows. -/
structure Accepts (db : Database) (bindings : List AdapterBinding) (timestamp : String) : Prop where
  given : bindings ≠ [] ∧ timestamp ≠ ""
  named : ∀ b ∈ bindings, b.runId ≠ "" ∧ b.processId ≠ ""
  writable : ∀ b ∈ bindings, Writable db (b, printedAdapter b.adapter)
  agree : bindings.Pairwise fun b c => b.key = c.key → b.adapter.redacted.Same c.adapter.redacted

/-- The rows of a batch after it was encoded. -/
def encodedBindings (bindings : List AdapterBinding) : List (AdapterBinding × Json) :=
  bindings.map fun b => (b, printedAdapter b.adapter)

theorem printed_all (valid : ∀ b ∈ bindings, b.adapter.validate.isOk = true) :
    ∀ p ∈ encodedBindings bindings, Printed p.2 := by
  intro p member
  obtain ⟨b, listed, rfl⟩ := List.mem_map.mp member
  exact ⟨b.adapter, valid b listed, json_printed (valid b listed)⟩

theorem persist_ok (valid : ∀ b ∈ bindings, b.adapter.validate.isOk = true) :
    (persistAdapterBindings bindings timestamp).eval db = (.ok (), db') ↔
      (bindings ≠ [] ∧ timestamp ≠ "") ∧ (∀ b ∈ bindings, b.runId ≠ "" ∧ b.processId ≠ "") ∧
        (bindRows timestamp (encodedBindings bindings)).eval db = (.ok (), db') := by
  simp only [persistAdapterBindings, Program.bind_ok, Program.require_ok, Program.ofExcept_ok, Program.transact_ok,
    decide_eq_true_eq]
  constructor
  · rintro ⟨_, _, ⟨given, rfl⟩, encoded, _, ⟨printed, rfl⟩, written⟩
    obtain ⟨named, rfl⟩ := (encodeBindings_ok valid).mp printed
    exact ⟨given, named, written⟩
  · rintro ⟨given, named, written⟩
    exact ⟨(), db, ⟨given, rfl⟩, _, db, ⟨(encodeBindings_ok valid).mpr ⟨named, rfl⟩, rfl⟩, written⟩

theorem printed_eq_iff {c : AdapterBinding} (left : b.adapter.validate.isOk = true)
    (right : c.adapter.validate.isOk = true) :
    printedAdapter b.adapter = printedAdapter c.adapter ↔ b.adapter.redacted.Same c.adapter.redacted := by
  rw [← AdapterSpec.json_eq_iff left right, json_printed left, json_printed right, Except.ok.injEq]

theorem persist_returns (valid : ∀ b ∈ bindings, b.adapter.validate.isOk = true) :
    (∃ db', (persistAdapterBindings bindings timestamp).eval db = (.ok (), db')) ↔ Accepts db bindings timestamp := by
  simp only [persist_ok valid, exists_and_left]
  rw [bindRows_returns (printed_all valid), encodedBindings, List.pairwise_map]
  have agree : (bindings.Pairwise fun b c => b.key = c.key → printedAdapter b.adapter = printedAdapter c.adapter) ↔
      bindings.Pairwise fun b c => b.key = c.key → b.adapter.redacted.Same c.adapter.redacted := by
    refine List.Pairwise.iff_of_mem fun {b c} first second => ?_
    rw [printed_eq_iff (valid b first) (valid c second)]
  constructor
  · rintro ⟨given, named, writable, apart⟩
    exact ⟨given, named, fun b member => writable _ (List.mem_map_of_mem member), agree.mp apart⟩
  · intro accepts
    refine ⟨accepts.given, accepts.named, fun p member => ?_, agree.mpr accepts.agree⟩
    obtain ⟨b, listed, rfl⟩ := List.mem_map.mp member
    exact accepts.writable b listed

theorem survives_keeps (valid : ∀ b ∈ bindings, b.adapter.validate.isOk = true)
    (h : (persistAdapterBindings bindings timestamp).eval db = (.ok (), db')) (member : b ∈ bindings) :
    Survives db' b ↔ Keeps db b := by
  obtain ⟨-, named, written⟩ := (persist_ok valid).mp h
  have accepts := (persist_returns valid).mp ⟨db', h⟩
  obtain ⟨moved, bound⟩ := bindRows_bound (printed_all valid) written
  obtain ⟨metadata, held, here, holds, json⟩ := bound _ (List.mem_map_of_mem member)
  have shown : held.redacted.Same b.adapter.redacted := by
    rw [← AdapterSpec.json_eq_iff holds.valid (valid b member), json, json_printed (valid b member)]
  obtain ⟨old, before, -⟩ := (accepts.writable b member).metadata
  have run : (∀ k metadata, k.1 = b.runId → metadataOf db' k = some metadata → Readable metadata) ↔
      ∀ k metadata, k.1 = b.runId → metadataOf db k = some metadata → Readable metadata := by
    refine forall_congr' fun k => ?_
    constructor
    · intro readable metadata own
      exact (moved k).readable.mp (fun metadata => readable metadata own) metadata
    · intro readable metadata own
      exact (moved k).readable.mpr (fun metadata => readable metadata own) metadata
  have literal : held.Same b.adapter ↔ ∀ metadata key value, metadataOf db b.key = some metadata →
      b.adapter.env.get key = some value → isReference value = false → heldValue metadata key = some value := by
    rw [same_iff shown, before]
    have value (key value : String) (set : b.adapter.env.get key = some value) (plain : isReference value = false) :
        heldValue old key = held.env.get key := by
      have step := moved b.key
      rw [before, here] at step
      rcases step with same | ⟨_, _, kept, same, unmarked, same', holds', redacted⟩
      · obtain rfl := Option.some.inj same
        rw [heldValue, show bindingFromMetadata metadata = .ok held from holds]
      · cases same
        cases same'
        obtain rfl := holds'.unique holds
        rw [redacted_value shown redacted set plain, heldValue]
        cases read : bindingFromMetadata old with
        | ok other => exact absurd unmarked (Holds.not_unmarked read)
        | error message => rfl
    constructor
    · intro literal metadata key text own set plain
      obtain rfl := Option.some.inj own
      exact (value key text set plain).trans (literal key text set plain)
    · intro literal key text set plain
      exact (value key text set plain).symm.trans (literal old key text rfl set plain)
  rw [survives_iff (named b member).1 here holds, run, literal]
  exact ⟨fun both => ⟨both.1, both.2⟩, fun keeps => ⟨keeps.readable, keeps.literal⟩⟩

/-- The row of a binding holds an adapter already. -/
def Stored (db : Database) (b : AdapterBinding) (held : AdapterSpec) : Prop :=
  RunKnown db b.runId ∧ ∃ metadata, metadataOf db b.key = some metadata ∧ Holds metadata held

/-- A batch changes nothing or is written whole, whichever statement fails; what it accepts is loaded
    again; and a batch for rows that hold bindings already is accepted exactly when it repeats them. -/
structure BindingsSurvive (db : Database) (bindings : List AdapterBinding) (timestamp : String) : Prop where
  whole : (persistAdapterBindings bindings timestamp).Settles db fun _ => True
  raised : (persistAdapterBindings bindings timestamp).Restores db
  loaded : ∀ db', (persistAdapterBindings bindings timestamp).eval db = (.ok (), db') → ∀ b ∈ bindings, Survives db' b
  again : bindings ≠ [] ∧ timestamp ≠ "" → (∀ b ∈ bindings, b.processId ≠ "" ∧ ∃ held, Stored db b held) →
    ((∃ db', (persistAdapterBindings bindings timestamp).eval db = (.ok (), db')) ↔
      ∀ b ∈ bindings, ∀ held, Stored db b held → held.Same b.adapter)

theorem encodeBindings_reads (bindings : List AdapterBinding) :
    Program.ReadOnly (.ofExcept (bindings.mapM encodeBinding) : Sql (List (AdapterBinding × Json))) := .ofExcept _

theorem Accepts.of_stored (valid : ∀ b ∈ bindings, b.adapter.validate.isOk = true)
    (given : bindings ≠ [] ∧ timestamp ≠ "")
    (stored : ∀ b ∈ bindings, b.processId ≠ "" ∧ ∃ held, Stored db b held)
    (same : ∀ b ∈ bindings, ∀ held, Stored db b held → held.Same b.adapter) : Accepts db bindings timestamp where
  given := given
  named b member := by
    obtain ⟨process, held, known, -⟩ := stored b member
    exact ⟨known.1, process⟩
  writable b member := by
    obtain ⟨-, held, known, metadata, here, holds⟩ := stored b member
    have equal := same b member held ⟨known, metadata, here, holds⟩
    refine ⟨known, metadata, here, .inl ⟨held, holds, ?_⟩⟩
    rw [AdapterSpec.json_of_same equal.redacted, json_printed (valid b member)]
  agree := by
    rw [List.pairwise_iff_forall_sublist]
    intro b c listed key
    have first : b ∈ bindings := listed.subset (by simp)
    have second : c ∈ bindings := listed.subset (by simp)
    obtain ⟨-, held, known, metadata, here, holds⟩ := stored b first
    obtain ⟨-, other, known', metadata', here', holds'⟩ := stored c second
    have left := same b first held ⟨known, metadata, here, holds⟩
    have right := same c second other ⟨known', metadata', here', holds'⟩
    rw [← key, here] at here'
    obtain rfl := Option.some.inj here'
    obtain rfl := holds.unique holds'
    exact (left.symm.trans right).redacted

end

/-- The bindings of a batch survive exactly when the checks refuse it, or every literal value of an
    adapter's environment is the one that its row keeps and the rows of its run can be read. -/
theorem bindings_survive_iff (db : Database) (bindings : List AdapterBinding) (timestamp : String)
    (valid : ∀ b ∈ bindings, b.adapter.validate.isOk = true) :
    BindingsSurvive db bindings timestamp ↔ (Accepts db bindings timestamp → ∀ b ∈ bindings, Keeps db b) := by
  constructor
  · intro survive accepts b member
    obtain ⟨db', h⟩ := (persist_returns valid).mpr accepts
    exact (survives_keeps valid h member).mp (survive.loaded db' h b member)
  intro keeps
  have loaded : ∀ db', (persistAdapterBindings bindings timestamp).eval db = (.ok (), db') →
      ∀ b ∈ bindings, Survives db' b := by
    intro db' h b member
    exact (survives_keeps valid h member).mpr (keeps ((persist_returns valid).mp ⟨db', h⟩) b member)
  refine ⟨?_, ?_, loaded, fun given stored => ?_⟩
  · exact .require fun _ => .afterRead (encodeBindings_reads bindings) fun _ _ => .transact fun _ _ _ => True.intro
  · exact .require fun _ => .afterRead (encodeBindings_reads bindings) fun _ _ => .transact _ _
  constructor
  · rintro ⟨db', h⟩ b member held ⟨known, metadata, here, holds⟩
    have accepts := (persist_returns valid).mp ⟨db', h⟩
    have kept := keeps accepts b member
    obtain ⟨found, own, fits⟩ := (accepts.writable b member).metadata
    obtain rfl := Option.some.inj (here.symm.trans own)
    rcases fits with ⟨also, holds', json⟩ | ⟨unmarked, -⟩
    · obtain rfl := holds.unique holds'
      have shown : held.redacted.Same b.adapter.redacted := by
        rw [← AdapterSpec.json_eq_iff holds.valid (valid b member), json, json_printed (valid b member)]
      rw [same_iff shown]
      intro key value set plain
      have value := kept.literal metadata key value here set plain
      rwa [heldValue, show bindingFromMetadata metadata = .ok held from holds] at value
    · exact absurd unmarked holds.not_unmarked
  · intro same
    exact (persist_returns valid).mpr (.of_stored valid given stored same)

/-- An adapter with one environment entry, for the process of the first run. -/
def tokenBinding (value : String) : AdapterBinding :=
  ⟨"work", { kind := .subprocess, command := ["worker"], env := .upsert .empty ("TOKEN", value) }, "first"⟩

theorem bindings_survive_reference :
    (∀ b ∈ [tokenBinding "$\x7benv:TOKEN\x7d"], b.adapter.validate.isOk = true) ∧
      BindingsSurvive twoRuns [tokenBinding "$\x7benv:TOKEN\x7d"] "t1" := by
  have valid : ∀ b ∈ [tokenBinding "$\x7benv:TOKEN\x7d"], b.adapter.validate.isOk = true := by decide +kernel
  refine ⟨valid, (bindings_survive_iff twoRuns _ "t1" valid).mpr fun _ b member => ⟨?_, ?_⟩⟩
  · intro k metadata _ here
    obtain ⟨row, listed, -, rfl⟩ := metadataOf_some.mp here
    have unmarked : ∀ row ∈ twoRuns.processes.rows, bindingMetadataState row.metadata = 0 := by decide +kernel
    exact .inl (unmarked row listed)
  · intro metadata key value _ set literal
    obtain rfl := List.mem_singleton.mp member
    have entries : ∀ entry ∈ (tokenBinding "$\x7benv:TOKEN\x7d").adapter.env.rows, isReference entry.2 = true := by
      decide +kernel
    have reference := entries (key, value) (Dict.get_some.mp set)
    rw [literal] at reference
    cases reference

/-- A literal value is replaced where it is stored, and the process is started with the replacement. -/
theorem bindings_redacted :
    ¬ ∀ (db : Database) (bindings : List AdapterBinding) (timestamp : String),
      (∀ b ∈ bindings, b.adapter.validate.isOk = true) → BindingsSurvive db bindings timestamp := by
  intro survive
  have valid : ∀ b ∈ [tokenBinding "secret"], b.adapter.validate.isOk = true := by decide +kernel
  have returned : ((persistAdapterBindings [tokenBinding "secret"] "t1").eval twoRuns).1 = .ok () := by decide +kernel
  have h : (persistAdapterBindings [tokenBinding "secret"] "t1").eval twoRuns =
      (.ok (), ((persistAdapterBindings [tokenBinding "secret"] "t1").eval twoRuns).2) := Prod.ext returned rfl
  obtain ⟨loaded, read, ⟨l, member, key⟩, same⟩ :=
    (survive twoRuns _ "t1" valid).loaded _ h (tokenBinding "secret") (List.mem_singleton_self _)
  have value : (((loadAdapterBindings "first").eval
      ((persistAdapterBindings [tokenBinding "secret"] "t1").eval twoRuns).2).1.toOption.getD []).all
        (fun l => l.adapter.env.get "TOKEN" = some "<redacted>") = true := by decide +kernel
  rw [show (loadAdapterBindings "first").eval _ = _ from read] at value
  have stored := of_decide_eq_true (List.all_eq_true.mp value l member)
  have equal := (same l member key).1.env "TOKEN"
  rw [stored] at equal
  revert equal
  decide +kernel

end Fala.Driver
