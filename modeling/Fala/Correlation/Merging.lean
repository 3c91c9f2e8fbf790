import Fala.Correlation.Identity

/-! The pure parts of the two runtimes of a plan: the states of the durable rows, the inputs that are merged from
    them, and what a round decides. -/

namespace Fala.Correlation
open Json Schema Journal

/-- The texts that `advance_correlation_states` writes out. -/
def literals : Literals Text where
  empty := .empty
  braces := .braces
  upstreamNotFound := .printed (.obj [("error", .str "upstream_not_found"),
    ("message", .str "upstream effector was not instantiated or is missing")])

/-- The members of the regulation that a value carries. -/
def regulationOf (value : Json) : List (String × Json) :=
  match value.member "regulation" with
  | some (.obj members) => members
  | _ => []

/-- The kinds under `accepted_reaction_kinds`. -/
def acceptedKinds (metadata : Json) : List String :=
  match metadata.member "accepted_reaction_kinds" with
  | some (.arr kinds) => kinds.filterMap fun kind => match kind with | .str text => some text | _ => none
  | _ => []

/-- What is conducted of a terminal upstream that did not succeed. -/
def errorPayload (output : Json) : Json := if output.isObject then output else .obj [("error", output)]

/-- The members that a merge adds to the authored ones. -/
def mergedMembers (authored conduction regulation : List (String × Json)) (reactions : Option (List Json)) :
    List (String × Json) :=
  let conducted := setMember "conduction" (.obj conduction) authored
  let regulated := if regulation = [] then conducted else setMember "regulation" (.obj regulation) conducted
  match reactions with
  | none => regulated
  | some accumulated => setMember "upstream_reactions" (.arr accumulated) regulated

namespace Advance

def fault (kind place detail : String) : String := "correlation.advance." ++ kind ++ " at " ++ place ++ ": " ++ detail

/-- The references of one process of the plan. -/
def checkConduction (place effectorId : String) (effectors : List String) : List String → List String → Except String Unit
  | _, [] => return ()
  | prior, upstream :: rest => do
    ensure (upstream ≠ "") (fault "unknown_upstream" place "conduction upstream must not be empty")
    ensure (upstream ≠ effectorId) (fault "missing_plan" place "effector cannot depend on itself")
    ensure (¬ prior.contains upstream) (fault "missing_plan" place ("duplicate conduction reference: " ++ upstream))
    ensure (effectors.contains upstream) (fault "unknown_upstream" place ("unknown upstream " ++ upstream))
    checkConduction place effectorId effectors (prior ++ [upstream]) rest

def checkConductions (effectors : List String) : Nat → List (CorrelationProcessPlan Text) → Except String Unit
  | _, [] => return ()
  | index, item :: rest => do
    checkConduction ("/processes/" ++ toString index ++ "/conduction") item.effectorId effectors [] item.conduction
    checkConductions effectors (index + 1) rest

/-- The identities of the processes of the plan. -/
def checkIdentities (runId pathId : String) : Nat → List String → List String → List (CorrelationProcessPlan Text) →
    Except String Unit
  | _, _, _, [] => return ()
  | index, ids, effectors, item :: rest => do
    let place := "/processes/" ++ toString index
    ensure (item.runId = runId) (fault "missing_plan" (place ++ "/run_id") "process run differs from plan")
    ensure (item.id ≠ "" ∧ item.effectorId ≠ "")
      (fault "missing_plan" place "process and effector ids must not be empty")
    ensure (item.id.startsWith (pathId ++ ":"))
      (fault "missing_plan" (place ++ "/id") "process is outside correlation path")
    ensure (¬ (ids.contains item.id ∨ effectors.contains item.effectorId))
      (fault "missing_plan" place "duplicate process or effector id")
    checkIdentities runId pathId (index + 1) (ids ++ [item.id]) (effectors ++ [item.effectorId]) rest

/-- `validate_correlation_advance_plan` -/
def validateCorrelationAdvancePlan (plan : CorrelationInstantiationPlan Text) : Except String Unit := do
  ensure (plan.runId ≠ "") (fault "missing_plan" "/run_id" "run id must not be empty")
  ensure (plan.correlationPathId ≠ "")
    (fault "missing_plan" "/correlation_path_id" "correlation path id must not be empty")
  ensure (plan.processes ≠ []) (fault "missing_plan" "/processes" "correlation plan has no processes")
  checkIdentities plan.runId plan.correlationPathId 0 [] [] plan.processes
  checkConductions (plan.processes.map (·.effectorId)) 0 plan.processes

/-- The texts of one process of the plan. -/
def checkTexts (item : CorrelationProcessPlan Text) : Except String Unit := do
  let place := "/processes/" ++ item.id
  match ← parsed item.inputJson with
  | .obj input => do
    ensure (← parsed item.configJson).isObject (fault "invalid_config" (place ++ "/config_json") "expected JSON object")
    ensure (← parsed item.outputSchemaJson).isObject
      (fault "invalid_output_schema" (place ++ "/output_schema_json") "expected JSON object")
    validateCorrelationInputJson (.printed (Json.obj (without injectedKeys input)).canonical)
  | _ => .error (fault "invalid_input" (place ++ "/input_json") "expected JSON object")

/-- `_validate` -/
def validate (plan : CorrelationInstantiationPlan Text) : Except String Unit := do
  validateCorrelationAdvancePlan plan
  plan.processes.forM checkTexts

/-- `_validate_projected_schema` -/
def validateProjectedSchema (value schema : Json) (path : String) : Except String Unit :=
  (validateValue value schema path).mapError (fault "invalid_output" path)

/-- The output of a row that succeeded, as it is stored canonically. -/
def succeededOutput (item : CorrelationProcessPlan Text) (output : Text) : Except String Text := do
  let value ← parsed output
  ensure value.isObject "root output must be an object"
  let projected ← projectOutput value item.outputSchemaJson
  let schema ← parsed item.outputSchemaJson
  validateProjectedSchema projected schema ("/processes/" ++ item.id ++ "/output_json")
  return .printed value.canonical

def skippedOutput (output : Text) : Except String Text := do
  let value ← parsed output
  ensure value.isObject "skipped output must be an object"
  return .printed value.canonical

/-- What a row has put out: its output when it succeeded or was skipped, its error when it ended otherwise. -/
def putOut (item : CorrelationProcessPlan Text) (row : ProcessRow) : Except String Text :=
  let place := "/processes/" ++ item.id ++ "/output_json"
  match row.status with
  | .succeeded => (succeededOutput item row.outputJson).mapError fun _ =>
      fault "invalid_output" place "succeeded output is invalid"
  | .skipped => (skippedOutput row.outputJson).mapError fun _ =>
      fault "invalid_output" place "skipped output is invalid"
  | .failed | .cancelled | .timedOut => .ok row.errorJson
  | _ => .ok row.outputJson

def missingRow (processId : String) : String :=
  fault "missing_plan" ("/processes/" ++ processId) "durable process row is missing"

/-- The state of a planned process. -/
def stateFor (rows : List ProcessRow) (item : CorrelationProcessPlan Text) :
    Except String (CorrelationExecutionState Text) := do
  match findRow rows item.id with
  | none => .error (missingRow item.id)
  | some row =>
    let outputJson ← putOut item row
    return { processId := row.id, effectorId := item.effectorId, status := row.status, attempt := row.attempt
             maxAttempts := row.maxAttempts, outputJson, inputJson := row.inputJson, reactionsJson := .braces
             conduction := item.conduction }

variable (digest : Json → String) (plan : CorrelationInstantiationPlan Text)

/-- `_states` -/
def states (rows : List ProcessRow) : Except String (List (CorrelationExecutionState Text)) :=
  plan.processes.mapM (stateFor rows)

section
variable (held : List (CorrelationExecutionState Text)) (item : CorrelationProcessPlan Text)

/-- `project_conduction` -/
def projectConduction : List String → Except String (List (CorrelationConductionValue Text))
  | [] => return []
  | upstreamId :: rest =>
    match stateOf held upstreamId with
    | none => .error ("unknown conduction upstream: " ++ upstreamId)
    | some upstream => do
      let later ← projectConduction rest
      return if upstream.status.isTerminal then ⟨upstreamId, upstream.outputJson⟩ :: later else later

/-- The member that a conducted value becomes. -/
def conductedMember (value : CorrelationConductionValue Text) : Except String (String × Json) := do
  let output ← parsed value.outputJson
  match processOf plan.processes value.upstreamEffectorId with
  | none => .error ("correlation.advance.unknown_upstream: " ++ value.upstreamEffectorId)
  | some source =>
    if (stateOf held value.upstreamEffectorId).any fun upstream => upstream.status = .succeeded then
      let place := "/processes/" ++ item.id ++ "/conduction/" ++ value.upstreamEffectorId
      let projected ← projectOutput output source.outputSchemaJson
      validateProjectedSchema projected (← parsed source.outputSchemaJson) place
      ensure projected.isObject (fault "invalid_output" place "expected JSON object")
      return (value.upstreamEffectorId, projected)
    else return (value.upstreamEffectorId, errorPayload output)

/-- The regulation of an upstream, from its own input. -/
def regulationFrom (value : CorrelationConductionValue Text) : Except String (List (String × Json)) :=
  match stateOf held value.upstreamEffectorId with
  | none => .ok []
  | some upstream => (parsed upstream.inputJson).map regulationOf

/-- Whether the reactions of the ancestors are asked for; another value than a flag is refused. -/
def accumulates (metadata : Json) : Except String Bool :=
  match metadata.member "accumulate_upstream_reactions" with
  | none => .ok false
  | some (.bool flag) => .ok flag
  | some _ => .error "expected bool"

def reactionsFrom (allowed : List String) (ancestor : String) : Except String (List Json) :=
  match stateOf held ancestor with
  | none => .ok []
  | some state => do
    let output ← parsed state.outputJson
    reactionList digest output allowed

/-- The reactions of all ancestors, when they are asked for. -/
def accumulated (metadata : Json) : Except String (Option (List Json)) := do
  if ← accumulates metadata then
    let found ← (ancestorEffectors plan.processes item.effectorId).mapM (reactionsFrom digest held (acceptedKinds metadata))
    return some found.flatten
  else return none

/-- `_merged_input` -/
def mergedInput : Except String Text := do
  match ← parsed item.inputJson with
  | .obj authored =>
    match held.find? fun state => state.processId = item.id with
    | none => .error (fault "missing_plan" ("/processes/" ++ item.id) "execution projection is missing")
    | some downstream => do
      let values ← projectConduction held downstream.conduction
      let conducted ← values.mapM (conductedMember plan held item)
      let metadata ← parsed item.metadataJson
      let upstream ← values.mapM (regulationFrom held)
      let regulation := setMembers (setMembers [] upstream.flatten) (regulationOf metadata)
      let reactions ← accumulated digest plan held item metadata
      return .printed (Json.obj (mergedMembers authored (setMembers [] conducted) regulation reactions)).canonical
  | _ => .error (fault "invalid_input" ("/processes/" ++ item.id ++ "/input_json") "expected JSON object")

end

/-- `_wait_diagnostic` -/
def waitDiagnostic (computed : CorrelationAdvancePlan Text) : CorrelationWaitDiagnostic :=
  if computed.waitDiagnostic.code ≠ "" then computed.waitDiagnostic
  else if computed.blocked = [] then ⟨[], false, "", ""⟩
  else ⟨computed.blocked.map (·.processId), false, "wait_graph_unavailable", "wait_graph_unavailable"⟩

/-- The output of a row whose condition is not met. -/
def conditionMissed (item : CorrelationProcessPlan Text) : Text :=
  .template [("reason", .quote "condition_not_met"), ("when", item.whenJson)]

/-- What the loop body makes of a readied process. -/
def decision (rows : List ProcessRow) (held : List (CorrelationExecutionState Text)) (readiedId : String) :
    Except String (Option Decision) :=
  match findRow rows readiedId with
  | none => .ok none
  | some row =>
    if row.status ≠ .pending then .ok none
    else
      match plan.processes.find? fun p => p.id = readiedId with
      | none => .error (fault "missing_plan" ("/processes/" ++ readiedId) "canonical process plan is missing")
      | some item => do
        if ← conditionMatches item plan held then
          let inputJson ← mergedInput digest plan held item
          return some (.promote { processId := readiedId, targetStatus := "ready", inputJson, errorJson := .braces })
        else return some (.skip readiedId row.createdAt (conditionMissed item))

/-- What a round computes from the rows that it read. -/
def round (rows : List ProcessRow) : Except String Round := do
  let held ← states plan rows
  let computed := advanceCorrelationStates literals held
  return { decisions := computed.readied.map fun readied => decision digest plan rows held readied.id
           diagnostic := waitDiagnostic computed }

/-- The comparison of a planned process with its row. -/
def checkRow (rows : List ProcessRow) (item : CorrelationProcessPlan Text) : Except String Unit :=
  match findRow rows item.id with
  | none => .error (missingRow item.id)
  | some row => do
    ensure (← sameDurableRow item row)
      (fault "duplicate_conflict" ("/processes/" ++ item.id) "durable row conflicts with plan")

/-- The pure parts of `advance_correlation` for a plan. -/
def reconciliation : Reconciliation where
  runId := plan.runId
  processes := plan.processes.length
  validate := validate plan
  check rows := plan.processes.forM (checkRow rows)
  round := round digest plan

end Advance

namespace Persist

variable (digest : Json → String) (plan : CorrelationInstantiationPlan Text)

def outputFault (path detail : String) : String := "correlation.persistence.invalid_output at " ++ path ++ ": " ++ detail

/-- The projected output of a row that succeeded under the schema of the plan. -/
def projectedPayload (row : ProcessRow) (upstream : CorrelationProcessPlan Text) (path : String) : Except String Json := do
  let schemaPath := "/processes/" ++ row.id ++ "/output_schema_json"
  let schema ← parsed row.outputSchemaJson
  validateOutputSchema schema schemaPath
  let durable ← canonicalObject row.outputSchemaJson schemaPath
  let expected ← canonicalObject upstream.outputSchemaJson schemaPath
  ensure (durable = expected) ("correlation.persistence.invalid_output_schema at " ++ schemaPath ++
    ": durable output schema differs from plan")
  let output ← (parsed row.outputJson).mapError fun _ => outputFault path "malformed JSON"
  ensure output.isObject (outputFault path "expected JSON object")
  let projected ← (do
    let value ← projectOutput output expected
    Advance.validateProjectedSchema value (← parsed expected) path
    return value).mapError fun _ => outputFault path "invalid projected output"
  ensure projected.isObject (outputFault path "expected JSON object")
  return projected

/-- `_conducted_upstream_payload` -/
def conductedUpstreamPayload (row : ProcessRow) (upstream : CorrelationProcessPlan Text) (path : String) :
    Except String Json :=
  match row.status with
  | .failed | .cancelled | .timedOut => do
    let error ← (parsed row.errorJson).mapError fun _ => outputFault path "malformed error JSON"
    return errorPayload error
  | .skipped => do
    let skipped ← parsed row.outputJson
    ensure skipped.isObject (outputFault path "skipped output must be an object")
    return skipped
  | .succeeded => projectedPayload row upstream path
  | _ => .error (outputFault path "upstream is not terminal")

section
variable (rows : List ProcessRow) (item : CorrelationProcessPlan Text)

/-- The row of an upstream, with its process of the plan. -/
def upstreamRow (upstream : String) : Except String (ProcessRow × CorrelationProcessPlan Text) :=
  match processOf plan.processes upstream with
  | none => .error (fault "unknown_upstream" item.id "/conduction" ("unknown upstream " ++ upstream))
  | some source =>
    if source.id = "" then .error (fault "unknown_upstream" item.id "/conduction" ("unknown upstream " ++ upstream))
    else
      match findRow rows source.id with
      | none => .error (fault "unknown_path" source.id "" "durable process row is missing")
      | some row => .ok (row, source)

def conductedMember (upstream : String) : Except String (String × Json) := do
  let (row, source) ← upstreamRow plan rows item upstream
  return (upstream, ← conductedUpstreamPayload row source ("/processes/" ++ item.id ++ "/conduction/" ++ upstream))

def regulationFrom (upstream : String) : Except String (List (String × Json)) := do
  let (row, _) ← upstreamRow plan rows item upstream
  return regulationOf (← parsed row.inputJson)

def reactionsFrom (allowed : List String) (ancestor : String) : Except String (List Json) :=
  match processOf plan.processes ancestor with
  | none => .ok []
  | some source =>
    if source.id = "" then .ok []
    else
      match findRow rows source.id with
      | none => .ok []
      | some row => do
        let output ← parsed row.outputJson
        reactionList digest output allowed

def accumulated (metadata : Json) : Except String (Option (List Json)) := do
  if metadata.member "accumulate_upstream_reactions" = some (.bool true) then
    let found ← (ancestorEffectors plan.processes item.effectorId).mapM
      (reactionsFrom digest plan rows (acceptedKinds metadata))
    return some found.flatten
  else return none

/-- `_merged_input` over the durable rows. -/
def mergedInput : Except String Text := do
  match ← parsed item.inputJson with
  | .obj authored => do
    let conducted ← item.conduction.mapM (conductedMember plan rows item)
    let upstream ← item.conduction.mapM (regulationFrom plan rows item)
    let metadata ← parsed item.metadataJson
    let regulation := setMembers (setMembers [] upstream.flatten) (regulationOf metadata)
    let reactions ← accumulated digest plan rows item metadata
    return .printed (Json.obj (mergedMembers authored (setMembers [] conducted) regulation reactions)).canonical
  | _ => .error (fault "invalid_input" item.id "/input_json" "expected JSON object")

end
def planFault (kind place detail : String) : String :=
  "correlation.persistence." ++ kind ++ " at " ++ place ++ ": " ++ detail

/-- The identities of the processes of the plan. -/
def checkIdentities (runId pathId : String) : Nat → List String → List String → List (CorrelationProcessPlan Text) →
    Except String Unit
  | _, _, _, [] => return ()
  | index, ids, effectors, item :: rest => do
    let place := "/processes/" ++ toString index
    ensure (item.runId = runId) (planFault "unknown_run" (place ++ "/run_id") "process run differs from plan")
    ensure (item.id ≠ "" ∧ item.effectorId ≠ "")
      (planFault "invalid_plan" place "process and effector ids must not be empty")
    ensure (item.id.startsWith (pathId ++ ":"))
      (planFault "unknown_path" (place ++ "/id") "process is outside correlation path")
    ensure (¬ (ids.contains item.id ∨ effectors.contains item.effectorId))
      (planFault "duplicate_conflict" place "duplicate process or effector id")
    ensure (1 ≤ item.maxAttempts) (planFault "invalid_plan" (place ++ "/max_attempts") "must be positive")
    checkIdentities runId pathId (index + 1) (ids ++ [item.id]) (effectors ++ [item.effectorId]) rest

/-- The references of one process of the plan. -/
def checkConduction (place effectorId : String) (effectors : List String) : List String → List String → Except String Unit
  | _, [] => return ()
  | prior, upstream :: rest => do
    ensure (upstream ≠ "") (planFault "unknown_upstream" place "conduction upstream must not be empty")
    ensure (upstream ≠ effectorId) (planFault "invalid_plan" place "effector cannot depend on itself")
    ensure (¬ prior.contains upstream)
      (planFault "duplicate_conflict" place ("duplicate conduction reference: " ++ upstream))
    ensure (effectors.contains upstream) (planFault "unknown_upstream" place ("unknown upstream " ++ upstream))
    checkConduction place effectorId effectors (prior ++ [upstream]) rest

/-- The condition of one process of the plan. -/
def checkCondition (place : String) (item : CorrelationProcessPlan Text) : Except String Unit :=
  if item.whenJson = .empty then .ok ()
  else
    match item.whenJson.parse with
    | none => .error (planFault "invalid_condition" place "malformed condition JSON")
    | some condition =>
      match condition.member "upstream", condition.member "path", condition.member "equals" with
      | some (.str upstream), some (.str path), some expected => do
        ensure (item.conduction.contains upstream)
          (planFault "invalid_condition" (place ++ "/upstream") "condition upstream must be a direct conduction dependency")
        ensure (path ≠ "") (planFault "invalid_condition" (place ++ "/path") "path must not be empty")
        ensure expected.isScalar (planFault "invalid_condition" (place ++ "/equals") "expected value must be scalar")
      | _, _, _ => .error (planFault "invalid_condition" place "upstream, path, and equals are required")

def checkReferences (effectors : List String) : Nat → List (CorrelationProcessPlan Text) → Except String Unit
  | _, [] => return ()
  | index, item :: rest => do
    let place := "/processes/" ++ toString index
    checkConduction (place ++ "/conduction") item.effectorId effectors [] item.conduction
    checkCondition (place ++ "/when") item
    checkReferences effectors (index + 1) rest

/-- `validate_correlation_persistence_plan` -/
def validateCorrelationPersistencePlan : Except String Unit := do
  ensure (plan.runId ≠ "") (planFault "invalid_plan" "/run_id" "run id must not be empty")
  ensure (plan.correlationPathId ≠ "") (planFault "invalid_plan" "/correlation_path_id" "path id must not be empty")
  checkIdentities plan.runId plan.correlationPathId 0 [] [] plan.processes
  checkReferences (plan.processes.map (·.effectorId)) 0 plan.processes

def checkTexts (item : CorrelationProcessPlan Text) : Except String Unit := do
  let _ ← authoredJson item.inputJson ("/processes/" ++ item.id ++ "/input_json")
  let _ ← metadataForItem item

/-- `_validate_plan` -/
def validatePlan : Except String Unit := do
  validateCorrelationPersistencePlan plan
  plan.processes.forM checkTexts

def missingRow (processId : String) : String := fault "unknown_path" processId "" "durable process row is missing"

/-- Whether the upstreams are over; the loop ends at the first that is not. -/
def allTerminal (rows : List ProcessRow) (itemId : String) : List String → Except String Bool
  | [] => return true
  | upstream :: rest =>
    match processOf plan.processes upstream with
    | none => .error (fault "unknown_path" itemId "/conduction" ("unknown upstream " ++ upstream))
    | some source =>
      if source.id = "" then .error (fault "unknown_path" itemId "/conduction" ("unknown upstream " ++ upstream))
      else
        match findRow rows source.id with
        | none => .error (missingRow source.id)
        | some row => if row.status.isTerminal then allTerminal rows itemId rest else return false

/-- What `refresh_correlation_readiness` makes of a planned process. -/
def candidate (rows : List ProcessRow) (item : CorrelationProcessPlan Text) : Except String (Option (String × Text)) :=
  match findRow rows item.id with
  | none => .error (missingRow item.id)
  | some row =>
    if row.status ≠ .pending then .ok none
    else do
      if ← allTerminal plan rows item.id item.conduction then
        ensure (item.whenJson = .empty)
          (fault "conditional_requires_advance" item.id "" "use advance_correlation for conditional conduction")
        return some (item.id, ← mergedInput digest plan rows item)
      else return none

/-- `_readiness_from_rows`, as far as it refuses. -/
def checkRows (rows : List ProcessRow) : Except String Unit :=
  plan.processes.forM fun item => ensure (findRow rows item.id).isSome (missingRow item.id)

/-- The pure parts of `persist_correlation_plan` and of the refresh after it. -/
def persistence : Persistence where
  runId := plan.runId
  processes := plan.processes.map planned
  validate := validatePlan plan
  candidates rows := (plan.processes.mapM (candidate digest plan rows)).map List.reduceOption
  readiness := checkRows plan

end Persist
end Fala.Correlation
