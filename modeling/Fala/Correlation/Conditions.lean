import Fala.Correlation.Advancement
import Fala.Correlation.Projection
import Fala.Store.Database

/-! The four places that test a declared scalar of an output. -/

namespace Fala.Correlation
open Json Schema

def parsed (text : Text) : Except String Json :=
  match text.parse with
  | some value => .ok value
  | none => .error "invalid JSON"

namespace Advance

def pathMissing (itemId segment : String) : String :=
  "correlation.advance.condition_path_missing at /processes/" ++ itemId ++ "/when/path: missing object key " ++ segment

def invalidCondition (itemId detail : String) : String :=
  "correlation.advance.invalid_condition at /processes/" ++ itemId ++ "/when" ++ detail

/-- The scalar under the path; an empty key is missing. -/
def fieldAt (itemId : String) : List String → Json → Except String Json
  | [], current => .ok current
  | segment :: rest, current =>
    match current.member segment with
    | some child =>
      if segment = "" then .error (pathMissing itemId segment) else fieldAt itemId rest child
    | none => .error (pathMissing itemId segment)

def lastState (states : List (CorrelationExecutionState Text)) (effectorId : String) :
    Option (CorrelationExecutionState Text) := (states.filter fun s => s.effectorId = effectorId).getLast?

def lastPlan (plan : CorrelationInstantiationPlan Text) (effectorId : String) :
    Option (CorrelationProcessPlan Text) := (plan.processes.filter fun p => p.effectorId = effectorId).getLast?

/-- The part of `_condition_matches` after its source was found. -/
def outputMatches (itemId path : String) (expected : Json) (state : CorrelationExecutionState Text)
    (source : CorrelationProcessPlan Text) : Except String Bool := do
  let output ← parsed state.outputJson
  let projected ← projectOutput output source.outputSchemaJson
  ensure (path ≠ "") (invalidCondition itemId "/path: path must not be empty")
  let current ← fieldAt itemId (segments path) projected
  ensure current.isScalar ("correlation.advance.condition_value_not_scalar at /processes/" ++ itemId ++
    "/when/path: selected value must be scalar")
  ensure expected.isScalar (invalidCondition itemId "/equals: expected value must be scalar")
  return spelledAlike current expected

/-- `_condition_matches` -/
def conditionMatches (item : CorrelationProcessPlan Text) (plan : CorrelationInstantiationPlan Text)
    (states : List (CorrelationExecutionState Text)) : Except String Bool :=
  if item.whenJson = .empty then .ok true
  else do
    let condition ← parsed item.whenJson
    ensure condition.isObject (invalidCondition item.id ": expected object")
    match condition.member "upstream", condition.member "path", condition.member "equals" with
    | some (.str upstream), some (.str path), some expected =>
      ensure (item.conduction.contains upstream)
        (invalidCondition item.id "/upstream: source must be a direct conduction dependency")
      match lastState states upstream, lastPlan plan upstream with
      | some state, some source =>
        match state.status with
        | .succeeded => outputMatches item.id path expected state source
        | .skipped | .failed | .cancelled | .timedOut => return false
        | status => .error ("correlation.advance.condition_source_not_succeeded at /processes/" ++ item.id ++
            "/when/upstream: source status is " ++ status.value)
      | _, _ => .error (invalidCondition item.id "/upstream: source is missing")
    | _, _, _ => .error (invalidCondition item.id ": upstream, path, and equals are required")

end Advance

/-! A path terminal. -/

structure PathTerminal where
  id : String
  sourceEffector : String
  status : ProcessStatus
  whenJson : Text
  outputSchemaJson : Text
  deriving DecidableEq

structure PathTerminalResult where
  id : String := ""
  valuesJson : Text := .braces
  evidenceJson : Text := .printed (.arr [])
  deriving DecidableEq

namespace PathTerminal

def fieldAt (t : PathTerminal) : List String → Json → Except String Json
  | [], current => .ok current
  | key :: rest, current =>
    match current.member key with
    | some child => fieldAt t rest child
    | none => .error ("path.terminal.missing_field at /terminals/" ++ t.id ++ "/when: " ++ key)

/-- Whether the condition of the terminal holds of the values. -/
def meets (t : PathTerminal) (values : Json) : Except String Bool :=
  if t.whenJson = .empty then .ok true
  else do
    let condition ← parsed t.whenJson
    match condition.member "path", condition.member "equals" with
    | some (.str path), some expected =>
      let current ← t.fieldAt (segments path) values
      return valuesEqual current expected
    | _, _ => .error "expected path and equals"

def evidence (envelope : Json) (earlier : Text) : Text :=
  match envelope.member "payload" with
  | some payload =>
    match payload.member "evidence" with
    | some (.arr items) => .printed (.arr items)
    | _ => earlier
  | none => earlier

/-- One row against one terminal, with the number of matches so far and the last of them. -/
def consider (processPrefix : String) (t : PathTerminal) (row : ProcessRow) (chosen : Nat × PathTerminalResult) :
    Except String (Nat × PathTerminalResult) :=
  if row.id ≠ processPrefix ++ ":" ++ t.sourceEffector ∨ row.status ≠ t.status then .ok chosen
  else do
    let envelope ← parsed (if t.status = .succeeded ∨ t.status = .skipped then row.outputJson else row.errorJson)
    let values := terminalValues envelope
    if ← t.meets values then
      let schema ← parsed t.outputSchemaJson
      validateValue values schema "/path_result/values"
      return (chosen.1 + 1, ⟨t.id, .printed values, evidence envelope chosen.2.evidenceJson⟩)
    else return chosen

end PathTerminal

/-- `select_path_terminal` -/
def selectPathTerminal (terminals : List PathTerminal) (rows : List ProcessRow) (processPrefix : String)
    (requireMatch : Bool) : Except String PathTerminalResult := do
  let chosen ← terminals.foldlM (fun chosen t => rows.foldlM (fun chosen row => t.consider processPrefix row chosen) chosen)
    (0, {})
  ensure (chosen.1 ≤ 1) "path.terminal.ambiguous: ambiguous declared path terminals"
  ensure (¬ (chosen.1 = 0 ∧ 0 < terminals.length ∧ requireMatch))
    "path.terminal.missing: no declared path terminal matched"
  return chosen.2

/-! The coverage of a rehearsal fixture. -/

def outcomeCovers (fieldPath : String) (wanted outcome : Json) : Bool :=
  decide (outcome.member "kind" = some (.str "result")) && (fixturePayload outcome).isObject &&
    match valueAt (segments fieldPath) (fixturePayload outcome) with
    | some current => valuesEqual current wanted
    | none => false

/-- `_scenario_covers` -/
def scenarioCovers (fixture : Json) (effector capability fieldPath : String) (wantedJson : Text) :
    Except String Bool :=
  match fixture.member "effectors" with
  | some (.obj effectors) =>
    let fixtureId :=
      if (lookup effector effectors).isNone ∧ capability ≠ "" ∧ (lookup capability effectors).isSome then capability
      else effector
    match lookup fixtureId effectors with
    | some (.arr outcomes) => do
      let wanted ← parsed wantedJson
      return outcomes.any (outcomeCovers fieldPath wanted)
    | _ => .ok false
  | _ => .ok false

/-! The explanation of a process row. -/

namespace Explain

/-- `_select`: a missing key leads to null. -/
def select (value : Json) (path : String) : Json := (valueAt (segments path) value).getD .null

/-- `_process_id` -/
def processId (runId pathId effectorId : String) : String := runId ++ ":" ++ pathId ++ ":" ++ effectorId

/-- `_array_strings` -/
def arrayStrings : Json → List String
  | .arr items => items.filterMap fun item => match item with | .str text => some text | _ => none
  | _ => []

structure ExplainedCondition where
  expected : Json
  observed : Json
  path : String
  sourceEffector : String
  sourceStatus : Option ProcessStatus

structure Explanation where
  reason : String
  upstream : List (String × Option ProcessStatus)
  missing : List String
  condition : Option ExplainedCondition

def initialReason : ProcessStatus → String
  | .waiting => "waiting"
  | .succeeded | .failed | .cancelled | .timedOut => "terminal"
  | .skipped => "condition_not_met"
  | .ready => "ready"
  | .running => "running"
  | .retryWait | .pending | .cancelRequested => "not_ready"

/-- The status of the row of an effector; none is shown as `not_materialized`. -/
def sourceStatus (db : Database) (runId pathId effectorId : String) : Option ProcessStatus :=
  (db.processes.find? (runId, processId runId pathId effectorId)).map fun r => r.status

def unmet (status : Option ProcessStatus) : Bool :=
  status ≠ some .succeeded ∧ status ≠ some .failed ∧ status ≠ some .skipped ∧ status ≠ some .cancelled ∧
    status ≠ some .timedOut

/-- What is observed under the path in the output of a source that succeeded. -/
def observed (db : Database) (runId pathId effectorId path : String) : Except String Json :=
  match db.processes.find? (runId, processId runId pathId effectorId) with
  | some source =>
    if source.status = .succeeded then (parsed source.outputJson).map fun output => select output path
    else .ok .null
  | none => .ok .null

def reasonAfter (status : Option ProcessStatus) (seen expected : Json) (reason : String) : String :=
  if status = some .failed ∨ status = some .cancelled ∨ status = some .timedOut then "upstream_failed"
  else if status = some .skipped ∨ spelledAlike seen expected = false then "condition_not_met"
  else reason

/-- What `explain_run` shows of one row. -/
def explainRow (db : Database) (runId pathId : String) (row : ProcessRow) : Except String Explanation := do
  let metadata ← parsed row.metadata
  let conduction := ((metadata.member "__correlation_conduction").map arrayStrings).getD []
  let upstream := conduction.map fun effector => (effector, sourceStatus db runId pathId effector)
  let missing := (upstream.filter fun u => unmet u.2).map Prod.fst
  let reason := initialReason row.status
  match metadata.member "__correlation_when" with
  | none => return ⟨reason, upstream, missing, none⟩
  | some when_ =>
    match when_.member "upstream", when_.member "path", when_.member "equals" with
    | some (.str effector), some (.str path), some expected =>
      let status := sourceStatus db runId pathId effector
      let seen ← observed db runId pathId effector path
      return ⟨reasonAfter status seen expected reason, upstream, missing,
        some ⟨expected, seen, path, effector, status⟩⟩
    | some _, some _, some _ => .error "expected text"
    | _, _, _ => return ⟨reason, upstream, missing, none⟩

end Explain

end Fala.Correlation
