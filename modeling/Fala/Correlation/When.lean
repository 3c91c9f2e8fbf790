import Fala.Correlation.Conditions
import Fala.Correlation.DomainValue

/-! When the four tests of one condition on one output have one answer. -/

namespace Fala.Correlation
open Json Schema Journal

/-- A path of nonempty keys. -/
def NamedKeys (path : String) : Prop := ∀ key ∈ segments path, key ≠ ""

/-- The output holds a value under the path that is equal to the expected one. -/
def Meets (path : String) (expected value : Json) : Prop :=
  ∃ found, valueAt (segments path) value = some found ∧ valuesEqual found expected = true

/-- It holds one that is spelled like the expected one. -/
def Spells (path : String) (expected value : Json) : Prop :=
  ∃ found, valueAt (segments path) value = some found ∧ spelledAlike found expected = true

/-- The value under the path, or else null, is spelled like the expected one. -/
def Shows (path : String) (expected value : Json) : Prop :=
  spelledAlike ((valueAt (segments path) value).getD .null) expected = true

/-- The projection on the declared fields keeps what is under the path. -/
def Keeps (outputSchemaJson : Text) (path : String) (source : List (String × Json)) : Prop :=
  ∃ schema, outputSchemaJson.parse = some schema ∧
    (schema.isObject = true → ∃ properties, projectionProperties schema.depth schema (.obj source) = .ok properties ∧
      (properties = [] ∨ ∀ key ∈ (segments path).head?, (lookup key properties).isSome = true))

theorem Spells.meets {path : String} {expected value : Json} (scalar : expected.isScalar = true)
    (spells : Spells path expected value) : Meets path expected value := by
  obtain ⟨found, held, alike⟩ := spells
  exact ⟨found, held, valuesEqual_of_spelledAlike scalar alike⟩

theorem Spells.shows {path : String} {expected value : Json} (spells : Spells path expected value) :
    Shows path expected value := by
  obtain ⟨found, held, alike⟩ := spells
  rw [Shows, held]
  exact alike

theorem lookup_projected (key : String) (properties source : List (String × Json)) :
    lookup key (properties.filterMap fun m => (lookup m.1 source).map (m.1, ·)) =
      if (lookup key properties).isSome then lookup key source else none := by
  induction properties with
  | nil => rfl
  | cons head rest ih =>
    obtain ⟨name, declared⟩ := head
    by_cases here : name = key
    · subst here
      cases held : lookup name source with
      | none =>
        rw [List.filterMap_cons_none (by simp [held]), ih, held]
        simp
      | some value =>
        rw [List.filterMap_cons_some (b := (name, value)) (by simp [held])]
        simp [lookup]
    · cases held : lookup name source with
      | none =>
        rw [List.filterMap_cons_none (by simp [held]), ih]
        simp [lookup, here]
      | some value =>
        rw [List.filterMap_cons_some (b := (name, value)) (by simp [held])]
        simp [lookup, here, ih]

theorem valueAt_obj {path : String} {members : List (String × Json)} {found : Json} :
    valueAt (segments path) (.obj members) = some found ↔
      ∃ key rest child, segments path = key :: rest ∧ lookup key members = some child ∧
        valueAt rest child = some found := by
  cases split : segments path with
  | nil => exact absurd split (segments_ne_nil path)
  | cons key rest =>
    rw [valueAt_cons, member]
    constructor
    · rintro ⟨child, held, inner⟩
      exact ⟨key, rest, child, rfl, held, inner⟩
    · rintro ⟨_, _, child, same, held, inner⟩
      cases same
      exact ⟨child, held, inner⟩

/-- What is under the path in a projected output: what its source holds there, where the projection keeps it. -/
theorem projectOutput_valueAt {output : Json} {outputSchemaJson : Text} {path : String} {found : Json} :
    (∃ projected, projectOutput output outputSchemaJson = .ok projected ∧
        valueAt (segments path) projected = some found) ↔
      ∃ source, domainSource output = .ok source ∧ Keeps outputSchemaJson path source ∧
        valueAt (segments path) (.obj source) = some found := by
  simp only [projectOutput, bind_ok]
  constructor
  · rintro ⟨projected, ⟨source, sourced, made⟩, found⟩
    refine ⟨source, sourced, ?_⟩
    cases read : outputSchemaJson.parse with
    | none => simp [read] at made
    | some schema =>
      by_cases object : schema.isObject = true
      · simp only [read, object, if_true, bind_ok] at made
        obtain ⟨properties, listed, made⟩ := made
        by_cases none : properties.isEmpty = true
        · rw [if_pos none] at made
          cases made
          exact ⟨⟨schema, read, fun _ => ⟨properties, listed, .inl (List.isEmpty_iff.mp none)⟩⟩, found⟩
        · rw [if_neg none] at made
          cases made
          obtain ⟨key, rest, child, split, held, inner⟩ := valueAt_obj.mp found
          rw [lookup_projected] at held
          split at held
          · rename_i declared
            refine ⟨⟨schema, read, fun _ => ⟨properties, listed, .inr fun first isFirst => ?_⟩⟩, ?_⟩
            · rw [split, List.head?_cons, Option.mem_some_iff] at isFirst
              subst isFirst
              exact declared
            · exact valueAt_obj.mpr ⟨key, rest, child, split, held, inner⟩
          · cases held
      · simp only [read, object, Bool.false_eq_true, if_false] at made
        cases made
        exact ⟨⟨schema, read, fun is => absurd is object⟩, found⟩
  · rintro ⟨source, sourced, ⟨schema, read, keeps⟩, found⟩
    by_cases object : schema.isObject = true
    · obtain ⟨properties, listed, kept⟩ := keeps object
      by_cases none : properties.isEmpty = true
      · refine ⟨.obj source, ⟨source, sourced, ?_⟩, found⟩
        simp only [read, object, if_true, bind_ok]
        exact ⟨properties, listed, by rw [if_pos none]; rfl⟩
      · obtain ⟨key, rest, child, split, held, inner⟩ := valueAt_obj.mp found
        have declared : (lookup key properties).isSome = true := by
          rcases kept with empty | kept
          · exact absurd (List.isEmpty_iff.mpr empty) none
          · exact kept key (by rw [split]; rfl)
        refine ⟨.obj (properties.filterMap fun m => (lookup m.1 source).map (m.1, ·)), ⟨source, sourced, ?_⟩, ?_⟩
        · simp only [read, object, if_true, bind_ok]
          exact ⟨properties, listed, by rw [if_neg none]; rfl⟩
        · exact valueAt_obj.mpr ⟨key, rest, child, split, by rw [lookup_projected, if_pos declared]; exact held, inner⟩
    · refine ⟨.obj source, ⟨source, sourced, ?_⟩, found⟩
      simp only [read, object, Bool.false_eq_true, if_false]
      rfl

/-! The data of one condition, as each of the four places reads it. -/

/-- One condition on one output of a source that succeeded, set before the four places that test it. -/
structure Tested (path : String) (expected output : Json) (outputSchemaJson : Text) where
  scalar : expected.isScalar = true
  upstream : String
  item : CorrelationProcessPlan Text
  plan : CorrelationInstantiationPlan Text
  states : List (CorrelationExecutionState Text)
  state : CorrelationExecutionState Text
  source : CorrelationProcessPlan Text
  condition : Json
  written : item.whenJson.parse = some condition
  names : condition.member "upstream" = some (.str upstream)
  reads : condition.member "path" = some (.str path)
  equals : condition.member "equals" = some expected
  direct : item.conduction.contains upstream = true
  stated : Advance.lastState states upstream = some state
  planned : Advance.lastPlan plan upstream = some source
  succeeded : state.status = .succeeded
  conducted : state.outputJson.parse = some output
  declared : source.outputSchemaJson = outputSchemaJson
  terminal : PathTerminal
  terminalCondition : Json
  terminalWritten : terminal.whenJson.parse = some terminalCondition
  terminalReads : terminalCondition.member "path" = some (.str path)
  terminalEquals : terminalCondition.member "equals" = some expected
  fixture : Json
  effector : String
  capability : String
  effectors : List (String × Json)
  outcome : Json
  wantedJson : Text
  fixed : fixture.member "effectors" = some (.obj effectors)
  outcomes : lookup effector effectors = some (.arr [outcome])
  resulted : outcome.member "kind" = some (.str "result")
  produced : outcome.member "output" = some output
  wanted : wantedJson.parse = some expected
  db : Database
  runId : String
  pathId : String
  row : ProcessRow
  sourceRow : ProcessRow
  metadata : Json
  explained : row.metadata.parse = some metadata
  explainedWhen : metadata.member "__correlation_when" = some condition
  open_ : row.status ≠ .skipped
  stored : db.processes.find? (runId, Explain.processId runId pathId upstream) = some sourceRow
  storedStatus : sourceRow.status = .succeeded
  storedOutput : sourceRow.outputJson.parse = some output

namespace Tested

variable {path : String} {expected output : Json} {outputSchemaJson : Text}

/-- Correlation advancement finds the condition met. -/
def Advances (t : Tested path expected output outputSchemaJson) : Prop :=
  Advance.conditionMatches t.item t.plan t.states = .ok true

/-- The path terminal finds it met. -/
def Selects (t : Tested path expected output outputSchemaJson) : Prop :=
  t.terminal.meets (terminalValues output) = .ok true

/-- The fixture covers it. -/
def Covers (t : Tested path expected output outputSchemaJson) : Prop :=
  scenarioCovers t.fixture t.effector t.capability path t.wantedJson = .ok true

/-- The explanation of the waiting row does not say that it is not met. -/
def Explains (t : Tested path expected output outputSchemaJson) : Prop :=
  ∃ e, Explain.explainRow t.db t.runId t.pathId t.row = .ok e ∧ e.reason ≠ "condition_not_met"

def Agree (t : Tested path expected output outputSchemaJson) : Prop :=
  (t.Advances ↔ t.Selects) ∧ (t.Selects ↔ t.Covers) ∧ (t.Covers ↔ t.Explains)

theorem advanceFieldAt_ok (itemId : String) {keys : List String} {value found : Json} :
    Advance.fieldAt itemId keys value = .ok found ↔
      (∀ key ∈ keys, key ≠ "") ∧ valueAt keys value = some found := by
  induction keys generalizing value with
  | nil => simp [Advance.fieldAt, valueAt]
  | cons key rest ih =>
    cases held : value.member key with
    | none => simp [Advance.fieldAt, valueAt, held]
    | some child =>
      by_cases empty : key = ""
      · subst empty
        simp [Advance.fieldAt, held]
      · simp [Advance.fieldAt, valueAt, held, empty, ih]

theorem terminalFieldAt_ok (terminal : PathTerminal) {keys : List String} {value found : Json} :
    terminal.fieldAt keys value = .ok found ↔ valueAt keys value = some found := by
  induction keys generalizing value with
  | nil => simp [PathTerminal.fieldAt, valueAt]
  | cons key rest ih =>
    cases held : value.member key with
    | none => simp [PathTerminal.fieldAt, valueAt, held]
    | some child => simp [PathTerminal.fieldAt, valueAt, held, ih]

theorem parsed_ok {text : Text} {value : Json} : parsed text = .ok value ↔ text.parse = some value := by
  unfold parsed
  cases text.parse <;> simp

theorem isObject_of_member {value child : Json} {key : String} (held : value.member key = some child) :
    value.isObject = true := by
  cases value with
  | obj members => rfl
  | null | bool _ | int _ | uint _ | float _ | str _ | arr _ => cases held

theorem written_ne {text : Text} {value : Json} (written : text.parse = some value) : text ≠ .empty := by
  rintro rfl
  cases written

theorem advances_iff (t : Tested path expected output outputSchemaJson) :
    t.Advances ↔ NamedKeys path ∧ ∃ source, domainSource output = .ok source ∧ Keeps outputSchemaJson path source ∧
      Spells path expected (.obj source) := by
  have started : t.Advances ↔ Advance.outputMatches t.item.id path expected t.state t.source = .ok true := by
    simp only [Advances, Advance.conditionMatches, if_neg (written_ne t.written), bind_ok, parsed_ok, ensure_ok,
      t.written, Option.some.injEq, exists_eq_left', isObject_of_member t.names, exists_const, t.names, t.reads,
      t.equals, t.direct, t.stated, t.planned, t.succeeded, true_and]
  rw [started]
  simp only [Advance.outputMatches, bind_ok, parsed_ok, t.conducted, Option.some.injEq, exists_eq_left', t.declared,
    ensure_ok, decide_eq_true_eq, exists_const, t.scalar, true_and, advanceFieldAt_ok]
  constructor
  · rintro ⟨projected, made, -, found, ⟨named, held⟩, -, alike⟩
    obtain ⟨source, sourced, keeps, held⟩ := projectOutput_valueAt.mp ⟨projected, made, held⟩
    exact ⟨named, source, sourced, keeps, found, held, Except.ok.inj alike⟩
  · rintro ⟨named, source, sourced, keeps, found, held, alike⟩
    obtain ⟨projected, made, held⟩ := projectOutput_valueAt.mpr ⟨source, sourced, keeps, held⟩
    refine ⟨projected, made, ?_, found, ⟨named, held⟩, isScalar_of_spelledAlike t.scalar alike, congrArg _ alike⟩
    rintro rfl
    exact named "" (by decide) rfl

theorem selects_iff (t : Tested path expected output outputSchemaJson) :
    t.Selects ↔ Meets path expected (terminalValues output) := by
  simp only [Selects, PathTerminal.meets, if_neg (written_ne t.terminalWritten), bind_ok, parsed_ok,
    t.terminalWritten, Option.some.injEq, exists_eq_left', t.terminalReads, t.terminalEquals, terminalFieldAt_ok]
  constructor
  · rintro ⟨found, held, equal⟩
    exact ⟨found, held, Except.ok.inj equal⟩
  · rintro ⟨found, held, equal⟩
    exact ⟨found, held, congrArg _ equal⟩

theorem isObject_of_valueAt {path : String} {value found : Json} (held : valueAt (segments path) value = some found) :
    value.isObject = true := by
  cases split : segments path with
  | nil => exact absurd split (segments_ne_nil path)
  | cons key rest =>
    rw [split] at held
    obtain ⟨child, here, -⟩ := valueAt_cons.mp held
    exact isObject_of_member here

theorem covers_iff (t : Tested path expected output outputSchemaJson) :
    t.Covers ↔ Meets path expected (fixturePayload t.outcome) := by
  have named : ¬ ((lookup t.effector t.effectors).isNone = true ∧ t.capability ≠ "" ∧
      (lookup t.capability t.effectors).isSome = true) := by simp [t.outcomes]
  simp only [Covers, scenarioCovers, t.fixed, if_neg named]
  rw [t.outcomes]
  simp only [bind_ok, parsed_ok, t.wanted, Option.some.injEq, exists_eq_left', List.any_cons, List.any_nil,
    Bool.or_false]
  have asked : (pure (outcomeCovers path expected t.outcome) : Except String Bool) = .ok true ↔
      outcomeCovers path expected t.outcome = true := by simp [pure, Except.pure]
  rw [asked, outcomeCovers, t.resulted]
  constructor
  · intro covers
    simp only [decide_true, Bool.true_and, Bool.and_eq_true] at covers
    cases held : valueAt (segments path) (fixturePayload t.outcome) with
    | none => simp [held] at covers
    | some found =>
      rw [held] at covers
      exact ⟨found, held, covers.2⟩
  · rintro ⟨found, held, equal⟩
    simp [held, equal, isObject_of_valueAt held]

theorem explains_iff (t : Tested path expected output outputSchemaJson) : t.Explains ↔ Shows path expected output := by
  have status : Explain.sourceStatus t.db t.runId t.pathId t.upstream = some .succeeded := by
    rw [Explain.sourceStatus, t.stored, Option.map_some, t.storedStatus]
  have seen : Explain.observed t.db t.runId t.pathId t.upstream path =
      .ok ((valueAt (segments path) output).getD .null) := by
    simp only [Explain.observed, t.stored, t.storedStatus, if_true, parsed, t.storedOutput]
    rfl
  have open_ : Explain.initialReason t.row.status ≠ "condition_not_met" := by
    cases h : t.row.status with
    | skipped => exact absurd h t.open_
    | pending | ready | running | waiting | retryWait | succeeded | failed | cancelRequested | cancelled | timedOut =>
      decide
  simp only [Explains, Explain.explainRow, bind_ok, parsed_ok, t.explained, Option.some.injEq, exists_eq_left',
    t.explainedWhen, t.names, t.reads, t.equals, status, seen, Except.ok.injEq, pure, Except.pure]
  constructor
  · intro reason
    by_contra hidden
    rw [Shows, Bool.not_eq_true] at hidden
    simp [Explain.reasonAfter, hidden] at reason
  · intro shows_
    rw [Shows] at shows_
    simpa [Explain.reasonAfter, shows_] using open_

theorem fixturePayload_eq (t : Tested path expected output outputSchemaJson) :
    fixturePayload t.outcome = ((messagePayload output).map Json.obj).getD output := by
  simp only [fixturePayload, t.produced]
  cases messagePayload output <;> rfl

end Tested

/-- The members of an object without its adapter telemetry. -/
def withoutTelemetry : Json → List (String × Json)
  | .obj members => members.filter fun m => m.1 ≠ "adapter"
  | _ => []

theorem spells_withoutTelemetry {path : String} {expected : Json} {members : List (String × Json)} :
    Spells path expected (.obj (members.filter fun m => m.1 ≠ "adapter")) ↔
      (segments path).head? ≠ some "adapter" ∧ Spells path expected (.obj members) := by
  simp only [Spells, valueAt_obj, lookup_filter_ne]
  constructor
  · rintro ⟨found, ⟨key, rest, child, split, held, inner⟩, alike⟩
    by_cases telemetry : key = "adapter"
    · rw [if_pos telemetry] at held
      cases held
    · rw [if_neg telemetry] at held
      have other : (segments path).head? ≠ some "adapter" := by
        rw [split, List.head?_cons]
        exact fun same => telemetry (Option.some.inj same)
      exact ⟨other, found, ⟨key, rest, child, split, held, inner⟩, alike⟩
  · rintro ⟨other, found, ⟨key, rest, child, split, held, inner⟩, alike⟩
    have telemetry : key ≠ "adapter" := by
      rintro rfl
      rw [split] at other
      exact other rfl
    exact ⟨found, ⟨key, rest, child, split, by rw [if_neg telemetry]; exact held, inner⟩, alike⟩

/-- When the four tests agree. In a result message the payload is tested, and the whole output is shown; in any
    other output the output itself is, which is also opened where it has the kind and the payload of an envelope. -/
def Uniform (outputSchemaJson : Text) (path : String) (expected output : Json) : Prop :=
  match messagePayload output with
  | some payload =>
    (Meets path expected (.obj payload) →
      Spells path expected (.obj payload) ∧ NamedKeys path ∧ Keeps outputSchemaJson path payload ∧
        Shows path expected output) ∧
      (Shows path expected output → Meets path expected (.obj payload))
  | none =>
    (Meets path expected output →
      Spells path expected output ∧ NamedKeys path ∧ Keeps outputSchemaJson path (withoutTelemetry output) ∧
        (segments path).head? ≠ some "adapter") ∧
      (Shows path expected output → Meets path expected output) ∧
        (Meets path expected (terminalValues output) ↔ Meets path expected output)

namespace Tested

variable {path : String} {expected output : Json} {outputSchemaJson : Text}

theorem agree_message (t : Tested path expected output outputSchemaJson) {payload : List (String × Json)}
    (message : messagePayload output = some payload) :
    t.Agree ↔ Uniform outputSchemaJson path expected output := by
  have sourced : domainSource output = .ok payload := by
    cases output with
    | obj members => rw [domainSource_obj, message, Option.getD_some]
    | null | bool _ | int _ | uint _ | float _ | str _ | arr _ => cases message
  have advances : t.Advances ↔
      NamedKeys path ∧ Keeps outputSchemaJson path payload ∧ Spells path expected (.obj payload) := by
    rw [advances_iff, sourced]
    simp only [Except.ok.injEq, exists_eq_left']
  have covers := t.covers_iff
  rw [fixturePayload_eq, message, Option.map_some, Option.getD_some] at covers
  have meets := fun spells : Spells path expected (.obj payload) => spells.meets t.scalar
  rw [Agree, advances, selects_iff, terminalValues_message message, covers, explains_iff, Uniform, message]
  constructor
  · rintro ⟨advance, -, explain⟩
    refine ⟨fun found => ?_, explain.mpr⟩
    obtain ⟨named, keeps, spells⟩ := advance.mpr found
    exact ⟨spells, named, keeps, explain.mp found⟩
  · rintro ⟨readable, shown⟩
    refine ⟨⟨fun advance => meets advance.2.2, fun found => ?_⟩, Iff.rfl, fun found => (readable found).2.2.2, shown⟩
    obtain ⟨spells, named, keeps, -⟩ := readable found
    exact ⟨named, keeps, spells⟩

theorem advances_plain (t : Tested path expected output outputSchemaJson) (plain : messagePayload output = none) :
    t.Advances ↔ NamedKeys path ∧ Keeps outputSchemaJson path (withoutTelemetry output) ∧
      (segments path).head? ≠ some "adapter" ∧ Spells path expected output := by
  rw [advances_iff]
  cases output with
  | obj members =>
    rw [domainSource_obj, plain, Option.getD_none]
    simp only [Except.ok.injEq, exists_eq_left', spells_withoutTelemetry, withoutTelemetry]
  | null | bool _ | int _ | uint _ | float _ | str _ | arr _ =>
    constructor
    · rintro ⟨-, source, sourced, -⟩
      cases sourced
    · rintro ⟨-, -, -, found, held, -⟩
      cases isObject_of_valueAt held

theorem agree_plain (t : Tested path expected output outputSchemaJson) (plain : messagePayload output = none) :
    t.Agree ↔ Uniform outputSchemaJson path expected output := by
  have covers := t.covers_iff
  rw [fixturePayload_eq, plain, Option.map_none, Option.getD_none] at covers
  rw [Agree, t.advances_plain plain, selects_iff, covers, explains_iff, Uniform, plain]
  constructor
  · rintro ⟨advance, select, explain⟩
    refine ⟨fun found => ?_, explain.mpr, select⟩
    obtain ⟨named, keeps, other, spells⟩ := advance.mpr (select.mpr found)
    exact ⟨spells, named, keeps, other⟩
  · rintro ⟨readable, shown, select⟩
    refine ⟨⟨fun advance => select.mpr (advance.2.2.2.meets t.scalar), fun found => ?_⟩, select,
      fun found => (readable found).1.shows, shown⟩
    obtain ⟨spells, named, keeps, other⟩ := readable (select.mp found)
    exact ⟨named, keeps, other, spells⟩

end Tested

def sampleRow (id : String) (status : ProcessStatus) (outputJson metadata : Text) : ProcessRow where
  runId := "run"
  id := id
  processType := "correlation.effector"
  impulseId := ""
  status := status
  priority := 0
  attempt := 1
  maxAttempts := 1
  availableAt := "t0"
  leaseOwner := ""
  leaseExpiresAt := ""
  inputJson := .braces
  outputJson := outputJson
  errorJson := .braces
  metadata := metadata
  createdAt := "t0"
  updatedAt := "t0"
  startedAt := ""
  finishedAt := ""
  outputSchemaJson := .braces

def sampleWhen (expected : Json) : Json :=
  .obj [("equals", expected), ("path", .str "n"), ("upstream", .str "measure")]

def samplePlan (effectorId : String) (conduction : List String) (whenJson : Text) : CorrelationProcessPlan Text where
  id := Explain.processId "run" "path" effectorId
  runId := "run"
  effectorId := effectorId
  declarationSeq := 0
  status := .pending
  priority := 0
  maxAttempts := 1
  timeoutSeconds := 0
  inputJson := .braces
  configJson := .braces
  outputSchemaJson := .braces
  conduction := conduction
  whenJson := whenJson
  metadataJson := .braces
  idempotencyKey := ""

def measuredState (output : Json) : CorrelationExecutionState Text :=
  ⟨Explain.processId "run" "path" "measure", "measure", .succeeded, 1, 1, .printed output, .braces, .braces, []⟩

def measuredRow (output : Json) : ProcessRow :=
  sampleRow (Explain.processId "run" "path" "measure") .succeeded (.printed output) .braces

/-- `decide` waits until `n` of `measure` is the expected scalar. -/
def waitingOn (expected output : Json) (scalar : expected.isScalar = true) : Tested "n" expected output .braces where
  scalar := scalar
  upstream := "measure"
  item := samplePlan "decide" ["measure"] (.printed (sampleWhen expected))
  plan := ⟨"path", "run", [samplePlan "measure" [] .empty], false⟩
  states := [measuredState output]
  state := measuredState output
  source := samplePlan "measure" [] .empty
  condition := sampleWhen expected
  written := rfl
  names := rfl
  reads := rfl
  equals := rfl
  direct := rfl
  stated := rfl
  planned := rfl
  succeeded := rfl
  conducted := rfl
  declared := rfl
  terminal := ⟨"done", "measure", .succeeded, .printed (sampleWhen expected), .braces⟩
  terminalCondition := sampleWhen expected
  terminalWritten := rfl
  terminalReads := rfl
  terminalEquals := rfl
  fixture := .obj [("effectors", .obj [("measure", .arr [.obj [("kind", .str "result"), ("output", output)]])])]
  effector := "measure"
  capability := ""
  effectors := [("measure", .arr [.obj [("kind", .str "result"), ("output", output)]])]
  outcome := .obj [("kind", .str "result"), ("output", output)]
  wantedJson := .printed expected
  fixed := rfl
  outcomes := rfl
  resulted := rfl
  produced := rfl
  wanted := rfl
  db := { Database.empty with processes := ⟨[measuredRow output], by simp⟩ }
  runId := "run"
  pathId := "path"
  row := sampleRow (Explain.processId "run" "path" "decide") .pending .braces
    (.printed (.obj [("__correlation_when", sampleWhen expected)]))
  sourceRow := measuredRow output
  metadata := .obj [("__correlation_when", sampleWhen expected)]
  explained := rfl
  explainedWhen := rfl
  open_ := nofun
  stored := rfl
  storedStatus := rfl
  storedOutput := rfl

end Fala.Correlation
