import Fala.Driver.Stored
import Fala.Journal.Writes

/-! What a batch of adapter bindings leaves in the rows, and what is loaded from them. -/

namespace Fala.Driver
open Durable Journal

/-- The binding that a metadata text holds. -/
def Holds (metadata : Text) (adapter : AdapterSpec) : Prop := bindingFromMetadata metadata = .ok adapter

def Unmarked (metadata : Text) : Prop := bindingMetadataState metadata = 0

/-- A text that another binding may be added to, or that holds the printed one already. -/
def Fits (metadata : Text) (encoded : Json) : Prop :=
  (∃ held, Holds metadata held ∧ held.json = .ok encoded) ∨
    Unmarked metadata ∧ (metadata.spelling = "" ∨ metadata.parse.isSome = true)

/-- A printed adapter that may run. -/
def Printed (encoded : Json) : Prop := ∃ adapter : AdapterSpec, adapter.validate.isOk = true ∧ adapter.json = .ok encoded

theorem lookup_setMember (name : String) (value : Json) (members : List (String × Json)) :
    Json.lookup name (Bridge.setMember name value members) = some value := by
  induction members with
  | nil => simp [Bridge.setMember, Json.lookup]
  | cons head rest ih =>
    obtain ⟨other, held⟩ := head
    by_cases here : other = name
    · simp [Bridge.setMember, Json.lookup, here]
    · simp [Bridge.setMember, Json.lookup, here, ih]

section
variable {metadata : Text} {encoded : Json} {adapter : AdapterSpec}

theorem Holds.marked (holds : Holds metadata adapter) : bindingMetadataState metadata = 1 := by
  unfold Holds bindingFromMetadata at holds
  unfold bindingMetadataState
  cases parsed : metadata.parse with
  | none => simp [parsed] at holds
  | some value =>
    cases found : value.member bindingMarker with
    | none => simp [parsed, found] at holds
    | some marker => simp [found]

theorem Holds.not_unmarked (holds : Holds metadata adapter) : ¬ Unmarked metadata := by
  intro unmarked
  rw [Unmarked, holds.marked] at unmarked
  cases unmarked

theorem Holds.unique {other : AdapterSpec} (holds : Holds metadata adapter) (also : Holds metadata other) :
    adapter = other := Except.ok.inj (holds.symm.trans also)

theorem marked_of_read {marker : Json} (read : metadata.parse.bind (Json.member bindingMarker) = some marker)
    (decoded : adapterSpecFromJson marker = .ok adapter) : Holds metadata adapter := by
  rw [Holds, bindingFromMetadata, read]
  simp [decoded, Except.mapError]

theorem metadataWithBinding_read {bound : Text} (written : metadataWithBinding metadata encoded = .ok bound) :
    bound.parse.bind (Json.member bindingMarker) = some encoded := by
  unfold metadataWithBinding at written
  by_cases nothing : metadata.spelling = ""
  · rw [if_pos nothing] at written
    cases written
    simp [Json.member, Json.lookup]
  · rw [if_neg nothing] at written
    cases parsed : metadata.parse with
    | none => simp [parsed] at written
    | some value =>
      cases value with
      | obj members =>
        rw [parsed] at written
        cases written
        exact lookup_setMember ..
      | _ =>
        rw [parsed] at written
        cases written
        simp [Json.member, Json.lookup]

theorem metadataWithBinding_ok :
    (∃ bound, metadataWithBinding metadata encoded = .ok bound) ↔
      metadata.spelling = "" ∨ metadata.parse.isSome = true := by
  unfold metadataWithBinding
  by_cases nothing : metadata.spelling = ""
  · simp [nothing]
  · rw [if_neg nothing]
    cases parsed : metadata.parse with
    | none => simp [nothing]
    | some value => cases value <;> simp

theorem validated_ok {restored : AdapterSpec} :
    validated adapter = .ok restored ↔ adapter.validate.isOk = true ∧ adapter = restored := by
  unfold validated
  by_cases valid : adapter.validate.isOk = true <;> simp [valid]

theorem Holds.valid (holds : Holds metadata adapter) : adapter.validate.isOk = true := by
  have decoded : ∀ value, adapterSpecFromJson value = .ok adapter → adapter.validate.isOk = true := by
    intro value read
    cases value with
    | obj members =>
      simp only [adapterSpecFromJson, bind, Except.bind] at read
      repeat' split at read
      all_goals first
        | cases read
        | skip
      obtain ⟨valid, rfl⟩ := validated_ok.mp read
      exact valid
    | _ => cases read
  unfold Holds bindingFromMetadata at holds
  cases found : metadata.parse.bind (Json.member bindingMarker) with
  | none => simp [found] at holds
  | some value =>
    rw [found] at holds
    cases read : adapterSpecFromJson value with
    | error message => simp [read, Except.mapError] at holds
    | ok restored =>
      simp only [read, Except.mapError, Except.ok.injEq] at holds
      exact decoded value (holds ▸ read)

/-- The text after a binding was added to it where none was held. -/
def boundMetadata (metadata : Text) (encoded : Json) : Text :=
  if bindingMetadataState metadata = 0 then (metadataWithBinding metadata encoded).toOption.getD metadata
  else metadata

theorem Fits.bound (fits : Fits metadata encoded) (printed : Printed encoded) :
    ∃ held, Holds (boundMetadata metadata encoded) held ∧ held.json = .ok encoded ∧
      (Unmarked metadata → held.redacted.Same held) := by
  rcases fits with ⟨held, holds, same⟩ | ⟨unmarked, open_⟩
  · have kept : boundMetadata metadata encoded = metadata := by
      rw [boundMetadata, holds.marked]
      rfl
    exact ⟨held, by rwa [kept], same, fun unmarked => absurd unmarked holds.not_unmarked⟩
  · obtain ⟨bound, written⟩ : ∃ bound, metadataWithBinding metadata encoded = .ok bound :=
      metadataWithBinding_ok.mpr open_
    have state : bindingMetadataState metadata = 0 := unmarked
    have text : boundMetadata metadata encoded = bound := by
      rw [boundMetadata, if_pos state, written]
      rfl
    obtain ⟨adapter, valid, json⟩ := printed
    obtain ⟨value, restored, shown, read, same⟩ := AdapterSpec.decode_json valid
    cases json.symm.trans shown
    have again : restored.redacted.Same adapter.redacted := same.redacted.trans AdapterSpec.redacted_redacted
    refine ⟨restored, by rw [text]; exact marked_of_read (metadataWithBinding_read written) read, ?_, fun _ => ?_⟩
    · rw [AdapterSpec.json_of_same again, json]
    · exact again.trans same.symm

theorem Fits.again {other : Json} (fits : Fits metadata encoded) (printed : Printed encoded) :
    Fits (boundMetadata metadata encoded) other ↔ encoded = other := by
  obtain ⟨held, holds, json, -⟩ := fits.bound printed
  constructor
  · rintro (⟨also, holds', json'⟩ | ⟨unmarked, -⟩)
    · obtain rfl := holds.unique holds'
      exact Except.ok.inj (json.symm.trans json')
    · exact absurd unmarked holds.not_unmarked
  · rintro rfl
    exact .inl ⟨held, holds, json⟩

end

/-- The metadata of the row under a key. -/
def metadataOf (db : Database) (k : String × String) : Option Text := (db.processes.find? k).map ProcessRow.metadata

/-- A binding can be written to its row. -/
def Writable (db : Database) (p : AdapterBinding × Json) : Prop :=
  RunKnown db p.1.runId ∧ ∃ metadata, metadataOf db p.1.key = some metadata ∧ Fits metadata p.2

section
variable {db db' : Database} {timestamp : String} {b : AdapterBinding} {encoded : Json}

theorem checkExisting_ok {row : ProcessRow} :
    checkExisting row encoded = .ok () ↔ ∃ held, Holds row.metadata held ∧ held.json = .ok encoded := by
  unfold checkExisting Holds
  cases bindingFromMetadata row.metadata with
  | error message => simp [bind, Except.bind]
  | ok held =>
    cases printed : held.json with
    | error message => simp [bind, Except.bind, printed]
    | ok shown =>
      by_cases same : shown = encoded <;> simp [bind, Except.bind, printed, same]

theorem state_pos {metadata : Text} (here : 0 < bindingMetadataState metadata) : ¬ Unmarked metadata := by
  intro unmarked
  rw [unmarked] at here
  exact absurd here (by decide)

/-- The row with a binding written to it. -/
def boundRow (timestamp : String) (metadata : Text) (p : ProcessRow) : ProcessRow :=
  { p with metadata, updatedAt := timestamp }

theorem boundRow_key (timestamp : String) (metadata : Text) (p : ProcessRow) :
    (boundRow timestamp metadata p).key = p.key := rfl

theorem bindRow_ok {u : Unit} :
    (bindRow timestamp b encoded).eval db = (.ok u, db') ↔
      RunKnown db b.runId ∧ ∃ row, db.processes.find? b.key = some row ∧
        ((∃ held, Holds row.metadata held ∧ held.json = .ok encoded) ∧ db' = db ∨
          Unmarked row.metadata ∧ ∃ metadata, metadataWithBinding row.metadata encoded = .ok metadata ∧
            db' = db.setProcesses (db.processes.modify b.key (boundRow timestamp metadata) (boundRow_key timestamp metadata))) := by
  rw [bindRow, Program.bind_ok]
  constructor
  · rintro ⟨row, middle, read, rest⟩
    obtain ⟨known, found, rfl⟩ := getProcess_ok.mp read
    refine ⟨known, row, found, ?_⟩
    by_cases malformed : bindingMetadataState row.metadata < 0
    · rw [if_pos malformed] at rest
      exact (Program.raise_ok rest).elim
    rw [if_neg malformed] at rest
    by_cases marked : 0 < bindingMetadataState row.metadata
    · rw [if_pos marked, Program.ofExcept_ok, checkExisting_ok] at rest
      exact .inl ⟨rest.1, rest.2.symm⟩
    · rw [if_neg marked] at rest
      have unmarked : Unmarked row.metadata := le_antisymm (not_lt.mp marked) (not_lt.mp malformed)
      simp only [Program.bind_ok, Program.ofExcept_ok, Program.require_ok, decide_eq_true_eq] at rest
      obtain ⟨metadata, _, ⟨written, rfl⟩, n, after, updated, changed, rfl⟩ := rest
      exact .inr ⟨unmarked, metadata, written, (updateWhere_one updated changed).2⟩
  · rintro ⟨known, row, found, ⟨held, rfl⟩ | ⟨unmarked, metadata, written, rfl⟩⟩
    · refine ⟨row, _, getProcess_ok.mpr ⟨known, found, rfl⟩, ?_⟩
      obtain ⟨adapter, holds, -⟩ := id held
      have marked : bindingMetadataState row.metadata = 1 := holds.marked
      rw [if_neg (by rw [marked]; decide), if_pos (by rw [marked]; decide), Program.ofExcept_ok, checkExisting_ok]
      exact ⟨held, rfl⟩
    · refine ⟨row, _, getProcess_ok.mpr ⟨known, found, rfl⟩, ?_⟩
      have state : bindingMetadataState row.metadata = 0 := unmarked
      rw [if_neg (by rw [state]; decide), if_neg (by rw [state]; decide)]
      simp only [Program.bind_ok, Program.ofExcept_ok, Program.require_ok, decide_eq_true_eq]
      refine ⟨metadata, _, ⟨written, rfl⟩, 1, _, updateWhere_met ?_, rfl, rfl⟩
      rw [show db.processes.find? (b.runId, b.processId) = some row from found]
      rfl

theorem bindRow_returns :
    (∃ db', (bindRow timestamp b encoded).eval db = (.ok (), db')) ↔ Writable db (b, encoded) := by
  simp only [bindRow_ok]
  constructor
  · rintro ⟨db', known, row, found, ⟨held, -⟩ | ⟨unmarked, metadata, written, -⟩⟩
    · exact ⟨known, row.metadata, by rw [metadataOf, found]; rfl, .inl held⟩
    · exact ⟨known, row.metadata, by rw [metadataOf, found]; rfl, .inr ⟨unmarked, metadataWithBinding_ok.mp ⟨_, written⟩⟩⟩
  · rintro ⟨known, metadata, here, fits⟩
    obtain ⟨row, found, rfl⟩ := Option.map_eq_some_iff.mp here
    rcases fits with held | ⟨unmarked, open_⟩
    · exact ⟨db, known, row, found, .inl ⟨held, rfl⟩⟩
    · obtain ⟨metadata, written⟩ := metadataWithBinding_ok.mpr open_
      exact ⟨_, known, row, found, .inr ⟨unmarked, metadata, written, rfl⟩⟩

theorem bindRow_metadata {u : Unit} (h : (bindRow timestamp b encoded).eval db = (.ok u, db')) :
    db'.runs = db.runs ∧
      ∀ k, metadataOf db' k = if k = b.key then (metadataOf db k).map (boundMetadata · encoded) else metadataOf db k := by
  obtain ⟨-, row, found, ⟨⟨held, holds, -⟩, rfl⟩ | ⟨unmarked, metadata, written, rfl⟩⟩ := bindRow_ok.mp h
  · refine ⟨rfl, fun k => ?_⟩
    by_cases here : k = b.key
    · subst here
      rw [if_pos rfl, metadataOf, found, Option.map_some, Option.map_some, boundMetadata, holds.marked]
      rfl
    · rw [if_neg here]
  · refine ⟨rfl, fun k => ?_⟩
    have state : bindingMetadataState row.metadata = 0 := unmarked
    have moved := Table.find?_modify db.processes b.key k (boundRow timestamp metadata) (boundRow_key timestamp metadata)
    rw [metadataOf, Database.setProcesses, moved]
    by_cases here : k = b.key
    · subst here
      rw [if_pos rfl, if_pos rfl, metadataOf, found, Option.map_some, Option.map_some, Option.map_some,
        Option.map_some, boundMetadata, if_pos state, written]
      rfl
    · rw [if_neg here, if_neg here]
      rfl

theorem Writable.metadata (writable : Writable db (b, encoded)) :
    ∃ metadata, metadataOf db b.key = some metadata ∧ Fits metadata encoded := writable.2

theorem bindRow_writable (printed : Printed encoded) (h : (bindRow timestamp b encoded).eval db = (.ok (), db'))
    (q : AdapterBinding × Json) :
    Writable db' q ↔ Writable db q ∧ (b.key = q.1.key → encoded = q.2) := by
  obtain ⟨runs, moved⟩ := bindRow_metadata h
  obtain ⟨metadata, here, fits⟩ := (bindRow_returns.mp ⟨db', h⟩).metadata
  unfold Writable RunKnown
  rw [runs, moved]
  by_cases same : b.key = q.1.key
  · rw [if_pos same.symm, ← same, here]
    simp only [Option.map_some, Option.some.injEq, exists_eq_left', fits.again printed, forall_const]
    constructor
    · rintro ⟨known, rfl⟩
      exact ⟨⟨known, fits⟩, rfl⟩
    · rintro ⟨⟨known, -⟩, rfl⟩
      exact ⟨known, rfl⟩
  · rw [if_neg (Ne.symm same)]
    simp [same]

theorem bindRows_returns {bs : List (AdapterBinding × Json)} (printed : ∀ p ∈ bs, Printed p.2) :
    (∃ db', (bindRows timestamp bs).eval db = (.ok (), db')) ↔
      (∀ p ∈ bs, Writable db p) ∧ bs.Pairwise fun p q => p.1.key = q.1.key → p.2 = q.2 := by
  induction bs generalizing db with
  | nil => simp [bindRows, Program.eval_pure]
  | cons p rest ih =>
    obtain ⟨here, later⟩ := List.forall_mem_cons.mp printed
    rw [List.forall_mem_cons, List.pairwise_cons]
    constructor
    · rintro ⟨db', h⟩
      obtain ⟨⟨⟩, middle, first, last⟩ := Program.bind_ok.mp h
      obtain ⟨writable, agree⟩ := (ih later).mp ⟨db', last⟩
      have each := fun q member => (bindRow_writable here first q).mp (writable q member)
      exact ⟨⟨bindRow_returns.mp ⟨middle, first⟩, fun q member => (each q member).1⟩,
        fun q member => (each q member).2, agree⟩
    · rintro ⟨⟨writable, others⟩, apart, agree⟩
      obtain ⟨middle, first⟩ := bindRow_returns.mpr writable
      have each := fun q member => (bindRow_writable here first q).mpr ⟨others q member, apart q member⟩
      obtain ⟨db', last⟩ := (ih later).mpr ⟨each, agree⟩
      exact ⟨db', Program.bind_ok.mpr ⟨(), middle, first, last⟩⟩

/-- A row keeps its metadata, or a redacted binding was added to it. -/
def Bound (old new : Option Text) : Prop :=
  new = old ∨ ∃ metadata metadata' held, old = some metadata ∧ Unmarked metadata ∧ new = some metadata' ∧
    Holds metadata' held ∧ held.redacted.Same held

theorem Bound.keeps {metadata : Text} {held : AdapterSpec} {new : Option Text} (bound : Bound (some metadata) new)
    (holds : Holds metadata held) : new = some metadata := by
  rcases bound with same | ⟨_, _, _, old, unmarked, -⟩
  · exact same
  · cases old
    exact absurd unmarked holds.not_unmarked

theorem Bound.trans {old middle new : Option Text} (first : Bound old middle) (last : Bound middle new) :
    Bound old new := by
  rcases first with rfl | ⟨metadata, metadata', held, rfl, unmarked, rfl, holds, redacted⟩
  · exact last
  · obtain rfl := last.keeps holds
    exact .inr ⟨metadata, metadata', held, rfl, unmarked, rfl, holds, redacted⟩

theorem bindRow_bound (printed : Printed encoded) (h : (bindRow timestamp b encoded).eval db = (.ok (), db')) :
    (∀ k, Bound (metadataOf db k) (metadataOf db' k)) ∧
      ∃ metadata held, metadataOf db' b.key = some metadata ∧ Holds metadata held ∧ held.json = .ok encoded := by
  obtain ⟨-, moved⟩ := bindRow_metadata h
  obtain ⟨metadata, here, fits⟩ := (bindRow_returns.mp ⟨db', h⟩).metadata
  obtain ⟨held, holds, json, redacted⟩ := fits.bound printed
  constructor
  · intro k
    rw [moved]
    by_cases own : k = b.key
    · subst own
      rw [if_pos rfl, here, Option.map_some]
      by_cases unmarked : Unmarked metadata
      · exact .inr ⟨metadata, _, held, rfl, unmarked, rfl, holds, redacted unmarked⟩
      · have state : ¬ bindingMetadataState metadata = 0 := unmarked
        rw [boundMetadata, if_neg state]
        exact .inl rfl
    · rw [if_neg own]
      exact .inl rfl
  · exact ⟨_, held, by rw [moved, if_pos rfl, here, Option.map_some], holds, json⟩

theorem bindRows_bound {bs : List (AdapterBinding × Json)} (printed : ∀ p ∈ bs, Printed p.2)
    (h : (bindRows timestamp bs).eval db = (.ok (), db')) :
    (∀ k, Bound (metadataOf db k) (metadataOf db' k)) ∧
      ∀ p ∈ bs, ∃ metadata held, metadataOf db' p.1.key = some metadata ∧ Holds metadata held ∧ held.json = .ok p.2 := by
  induction bs generalizing db with
  | nil =>
    cases h
    exact ⟨fun _ => .inl rfl, fun _ member => nomatch member⟩
  | cons p rest ih =>
    obtain ⟨here, later⟩ := List.forall_mem_cons.mp printed
    obtain ⟨⟨⟩, middle, first, last⟩ := Program.bind_ok.mp h
    obtain ⟨moved, metadata, held, found, holds, json⟩ := bindRow_bound here first
    obtain ⟨moved', held'⟩ := ih later last
    refine ⟨fun k => (moved k).trans (moved' k), List.forall_mem_cons.mpr ⟨?_, held'⟩⟩
    have after := moved' p.1.key
    rw [found] at after
    exact ⟨metadata, held, after.keeps holds, holds, json⟩

end

/-- The printed form of an adapter that has one. -/
def printedAdapter (adapter : AdapterSpec) : Json := adapter.json.toOption.getD .null

theorem json_printed {adapter : AdapterSpec} (valid : adapter.validate.isOk = true) :
    adapter.json = .ok (printedAdapter adapter) := by
  obtain ⟨encoded, -, shown, -⟩ := AdapterSpec.decode_json valid
  rw [printedAdapter, shown]
  rfl

theorem encodeBinding_ok {b : AdapterBinding} (valid : b.adapter.validate.isOk = true) {p : AdapterBinding × Json} :
    encodeBinding b = .ok p ↔ (b.runId ≠ "" ∧ b.processId ≠ "") ∧ (b, printedAdapter b.adapter) = p := by
  unfold encodeBinding
  by_cases named : b.runId = "" ∨ b.processId = ""
  · rw [if_pos named]
    constructor
    · intro raised
      cases raised
    · rintro ⟨⟨run, process⟩, -⟩
      exact (named.elim run process).elim
  · rw [if_neg named, if_neg (not_not_intro valid), json_printed valid]
    simp [not_or.mp named]

theorem encodeBindings_ok {bindings : List AdapterBinding} (valid : ∀ b ∈ bindings, b.adapter.validate.isOk = true)
    {encoded : List (AdapterBinding × Json)} :
    bindings.mapM encodeBinding = .ok encoded ↔
      (∀ b ∈ bindings, b.runId ≠ "" ∧ b.processId ≠ "") ∧
        encoded = bindings.map fun b => (b, printedAdapter b.adapter) := by
  induction bindings generalizing encoded with
  | nil =>
    constructor
    · intro returned
      cases returned
      exact ⟨fun _ member => (nomatch member), rfl⟩
    · rintro ⟨-, rfl⟩
      rfl
  | cons b rest ih =>
    obtain ⟨here, later⟩ := List.forall_mem_cons.mp valid
    rw [List.mapM_cons, List.forall_mem_cons, List.map_cons]
    cases first : encodeBinding b with
    | error message =>
      have refused : ¬ (b.runId ≠ "" ∧ b.processId ≠ "") := by
        intro named
        have accepted := (encodeBinding_ok here).mpr ⟨named, rfl⟩
        rw [first] at accepted
        cases accepted
      simp [bind, Except.bind, refused]
    | ok p =>
      obtain ⟨named, rfl⟩ := (encodeBinding_ok here).mp first
      cases others : rest.mapM encodeBinding with
      | error message =>
        have refused : ¬ ∀ b ∈ rest, b.runId ≠ "" ∧ b.processId ≠ "" := by
          intro each
          have accepted := (ih later).mpr ⟨each, rfl⟩
          rw [others] at accepted
          cases accepted
        simp only [bind, Except.bind, reduceCtorEq, false_iff]
        exact fun accepted => refused accepted.1.2
      | ok ps =>
        obtain ⟨each, rfl⟩ := (ih later).mp others
        constructor
        · intro returned
          cases returned
          exact ⟨⟨named, each⟩, rfl⟩
        · rintro ⟨-, rfl⟩
          rfl

end Fala.Driver
