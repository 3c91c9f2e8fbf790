import Fala.Correlation.Instantiation
import Fala.Correlation.Persistence
import Fala.Driver.Stored

/-! What a durable row keeps of the plan that it was stored for, and how it is compared with a plan. -/

namespace Fala.Correlation
open Json Schema Journal
open Protocol (canonicalText)
open Driver (bindingMarker adapterSpecFromJson)

def configKey : String := "__correlation_config"
def schemaKey : String := "__correlation_output_schema"
def conductionKey : String := "__correlation_conduction"
def whenKey : String := "__correlation_when"
def timeoutKey : String := "__correlation_timeout_seconds"

/-- The members that persistence adds to the metadata of a plan. -/
def addedKeys : List String := [configKey, schemaKey, conductionKey, whenKey, timeoutKey]

/-- The members of an input that are no authored ones. -/
def injectedKeys : List String := ["conduction", "upstream_reactions", "regulation"]

def without (keys : List String) (members : List (String × Json)) : List (String × Json) :=
  members.filter fun m => m.1 ∉ keys

namespace Persist

def fault (kind itemId place detail : String) : String :=
  "correlation.persistence." ++ kind ++ " at /processes/" ++ itemId ++ place ++ ": " ++ detail

def schemaFault (path detail : String) : String := "correlation.persistence.invalid_output_schema at " ++ path ++ detail

/-- The keywords that scheduling knows. -/
def schemaKeywords : List String :=
  ["$schema", "$id", "$ref", "$defs", "definitions", "$anchor", "$dynamicRef", "$comment", "title", "description", "type",
    "enum", "const", "multipleOf", "maximum", "exclusiveMaximum", "minimum", "exclusiveMinimum", "maxLength", "minLength",
    "pattern", "format", "contentEncoding", "contentMediaType", "maxItems", "minItems", "uniqueItems", "maxContains",
    "minContains", "maxProperties", "minProperties", "required", "dependentRequired", "dependentSchemas", "properties",
    "patternProperties", "additionalProperties", "propertyNames", "unevaluatedProperties", "items", "prefixItems",
    "contains", "additionalItems", "unevaluatedItems", "allOf", "anyOf", "oneOf", "not"]

def checkTypes (path : String) (seen : List String) : List Json → Except String Unit
  | [] => return ()
  | .str kind :: rest => do
    ensure (¬ seen.contains kind) (schemaFault path "/type: duplicate JSON Schema type")
    ensure (knownKind kind) (schemaFault path "/type: unsupported JSON Schema type")
    checkTypes path (seen ++ [kind]) rest
  | _ :: _ => .error (schemaFault path "/type: expected string or array of strings")

def checkType (path : String) : Option Json → Except String Unit
  | none => return ()
  | some (.str kind) => ensure (knownKind kind) (schemaFault path "/type: unsupported JSON Schema type")
  | some (.arr []) => .error (schemaFault path "/type: type array must not be empty")
  | some (.arr kinds) => checkTypes path [] kinds
  | some _ => .error (schemaFault path "/type: expected string or array of strings")

def isText : Json → Bool
  | .str _ => true
  | _ => false

def checkRequired (path : String) : Option Json → Except String Unit
  | none => return ()
  | some (.arr names) => ensure (names.all isText) (schemaFault path "/required: expected array of strings")
  | some _ => .error (schemaFault path "/required: expected array of strings")

mutual

/-- `_validate_output_schema` of a parsed schema. -/
def validateOutputSchema : Json → String → Except String Unit
  | .obj members, path => do
    validateSchema "schema.invalid" (.obj members) path
    match members.find? fun m => ¬ schemaKeywords.contains m.1 with
    | some m => .error (schemaFault path (": unknown JSON Schema keyword " ++ m.1))
    | none => return ()
    checkType path (lookup "type" members)
    validatePropertySchemas members path
    checkRequired path (lookup "required" members)
    validateItemSchemas members path
  | schema, path => do
    validateSchema "schema.invalid" schema path
    .error (schemaFault path ": expected JSON object")

def validatePropertySchemas : List (String × Json) → String → Except String Unit
  | [], _ => return ()
  | (name, child) :: rest, path =>
    if name = "properties" then
      match child with
      | .obj properties => validateEachProperty properties (path ++ "/properties/")
      | _ => .error (schemaFault path "/properties: expected object")
    else validatePropertySchemas rest path

def validateEachProperty : List (String × Json) → String → Except String Unit
  | [], _ => return ()
  | (name, schema) :: rest, path => do
    validateOutputSchema schema (path ++ name)
    validateEachProperty rest path

def validateItemSchemas : List (String × Json) → String → Except String Unit
  | [], _ => return ()
  | (name, child) :: rest, path =>
    if name = "items" then
      match child with
      | .obj items => validateOutputSchema (.obj items) (path ++ "/items")
      | _ => .error (schemaFault path "/items: expected schema object")
    else validateItemSchemas rest path

end

/-- `_canonical_object` -/
def canonicalObject (text : Text) (path : String) : Except String Text :=
  match text.parse with
  | none => .error ("correlation.persistence.invalid_json at " ++ path ++ ": malformed JSON")
  | some (.obj members) => .ok (.printed (Json.obj members).canonical)
  | some _ => .error ("correlation.persistence.invalid_json at " ++ path ++ ": expected JSON object")

/-- `_authored_json`, where injected keys are refused. -/
def authoredJson (text : Text) (path : String) : Except String Text :=
  match text.parse with
  | none => .error ("correlation.persistence.invalid_input at " ++ path ++ ": malformed JSON")
  | some (.obj source) =>
    match source.find? fun m => m.1 ∈ ["adapter", "config", "conduction", "upstream_reactions", "regulation"] with
    | some m => .error ("correlation.persistence.invalid_input at " ++ path ++ "/" ++ m.1 ++ ": reserved key")
    | none => .ok (.printed (Json.obj source).canonical)
  | some _ => .error ("correlation.persistence.invalid_input at " ++ path ++ ": expected JSON object")

section
variable (item : CorrelationProcessPlan Text)

/-- The condition of a planned process; null where it has none. -/
def whenValue : Except String Json := if item.whenJson = .empty then .ok .null else parsed item.whenJson

def conductionValue : Json := .arr (item.conduction.map .str)

/-- `_metadata_for_item` -/
def metadataForItem : Except String Text := do
  match ← parsed item.metadataJson with
  | .obj source =>
    match source.find? fun m => m.1 ∈ addedKeys ∨ m.1 = bindingMarker ∨ m.1 = markerName with
    | some m => .error (fault "invalid_metadata" item.id ("/metadata/" ++ m.1) "reserved key")
    | none => do
      let config ← parsed item.configJson
      ensure config.isObject (fault "invalid_config" item.id "/config_json" "expected JSON object")
      let schema ← parsed item.outputSchemaJson
      validateOutputSchema schema ("/processes/" ++ item.id ++ "/output_schema_json")
      ensure schema.isObject (fault "invalid_output_schema" item.id "/output_schema_json" "expected JSON object")
      let condition ← whenValue item
      return .printed (Json.obj (setMembers source [(configKey, config), (schemaKey, schema),
        (conductionKey, conductionValue item), (whenKey, condition), (timeoutKey, .float item.timeoutSeconds)])).canonical
  | _ => .error (fault "invalid_metadata" item.id "/metadata" "expected JSON object")

/-- `_initial_input` -/
def initialInput : Except String Text := do
  match ← parsed item.inputJson with
  | .obj authored =>
    match (← parsed item.metadataJson).member "regulation" with
    | some (.obj (first :: rest)) =>
      return .printed (Json.obj (setMember "regulation" (.obj (first :: rest)) authored)).canonical
    | _ => return .printed (Json.obj authored).canonical
  | _ => .error (fault "invalid_input" item.id "/input_json" "expected JSON object")

variable (row : ProcessRow)

/-- `_same_authored_input` -/
def sameAuthoredInput : Except String Bool := do
  let expected ← authoredJson item.inputJson ("/processes/" ++ item.id ++ "/input_json")
  match ← parsed row.inputJson with
  | .obj source => return expected = .printed (Json.obj (without injectedKeys source)).canonical
  | _ => .error (fault "invalid_input" item.id "/input_json" "expected JSON object")

/-- The binding of a row, if it has one, has to be readable. -/
def checkBinding (refused : String) (source : List (String × Json)) : Except String Unit :=
  match lookup bindingMarker source with
  | none => .ok ()
  | some binding =>
    match adapterSpecFromJson binding with
    | .ok _ => .ok ()
    | .error _ => .error refused

/-- What the row holds under the added keys, against what the plan would add. -/
def sameAdded (source : List (String × Json)) (config schema condition : Json) : Bool :=
  (lookup configKey source).map canonical = some config ∧ (lookup schemaKey source).map canonical = some schema ∧
    (lookup conductionKey source).map canonical = some (conductionValue item).canonical ∧
    ((lookup whenKey source).map canonical).getD .null = condition ∧
    (lookup timeoutKey source).map canonical = some (.float item.timeoutSeconds)

def valueOf (text : Text) : Json := text.parse.getD .null

/-- `_same_metadata` -/
def sameMetadata : Except String Bool := do
  let expected ← canonicalObject item.metadataJson ("/processes/" ++ item.id ++ "/metadata")
  match ← parsed row.metadata with
  | .obj source => do
    checkBinding (fault "invalid_metadata" item.id ("/metadata/" ++ bindingMarker) "invalid adapter binding") source
    let config ← canonicalObject item.configJson ("/processes/" ++ item.id ++ "/config_json")
    let schema ← canonicalObject item.outputSchemaJson ("/processes/" ++ item.id ++ "/output_schema_json")
    let condition ← whenValue item
    return expected = .printed (Json.obj (without (bindingMarker :: markerName :: addedKeys) source)).canonical ∧
      sameAdded item source (valueOf config) (valueOf schema) condition.canonical
  | _ => .error (fault "invalid_metadata" item.id "/metadata" "expected JSON object")

/-- `_same_row` -/
def sameRow : Except String Bool := do
  let schema ← canonicalObject item.outputSchemaJson ("/processes/" ++ item.id ++ "/output_schema_json")
  if row.runId = item.runId ∧ row.id = item.id ∧ row.processType = "correlation.effector" ∧
      row.priority = item.priority ∧ row.maxAttempts = item.maxAttempts ∧ row.outputSchemaJson = schema then
    if ← sameAuthoredInput item row then sameMetadata item row else return false
  else return false

end

/-- What is scheduled of a planned process. -/
def initialRow (item : CorrelationProcessPlan Text) : Except String InitialRow := do
  let inputJson ← initialInput item
  let metadata ← metadataForItem item
  let outputSchemaJson ← canonicalObject item.outputSchemaJson ("/processes/" ++ item.id ++ "/output_schema_json")
  return { inputJson, metadata, outputSchemaJson }

/-- The planned process, as its rows are persisted. -/
def planned (item : CorrelationProcessPlan Text) : PlannedProcess where
  id := item.id
  dependent := item.conduction ≠ []
  initial := initialRow item
  sameRow := sameRow item
  priority := item.priority
  maxAttempts := item.maxAttempts

end Persist

namespace Advance

section
variable (item : CorrelationProcessPlan Text) (row : ProcessRow)

def canonicalObject (text : Text) : Except String Text := do
  match ← parsed text with
  | .obj members => return .printed (Json.obj members).canonical
  | _ => .error "expected JSON object"

/-- The typed sequence and effector of the plan are those of its metadata. -/
def declaredMarker (expected : List (String × Json)) : Bool :=
  (lookup "seq" expected = some (.int item.declarationSeq) ∨
    (lookup "seq" expected).any fun seq => match seq with | .uint n => (n : Int) = item.declarationSeq | _ => false) ∧
    lookup "effector_id" expected = some (.str item.effectorId)

/-- `_same_durable_row`, after the inputs were compared. -/
def sameMarker : Except String Bool := do
  match ← parsed row.metadata, ← parsed item.metadataJson with
  | .obj source, .obj expected => do
    Persist.checkBinding ("correlation.advance.invalid_metadata at /processes/" ++ item.id ++ "/metadata/" ++
      bindingMarker ++ ": invalid adapter binding") source
    if (Json.obj (without (bindingMarker :: markerName :: addedKeys) source)).canonical =
        (Json.obj (without (markerName :: addedKeys) expected)).canonical ∧ declaredMarker item expected then do
      let config ← canonicalObject item.configJson
      let schema ← canonicalObject item.outputSchemaJson
      let condition ← Persist.whenValue item
      return Persist.sameAdded item source (Persist.valueOf config) (Persist.valueOf schema) condition.canonical
    else return false
  | _, _ => return false

/-- `_same_durable_row` -/
def sameDurableRow : Except String Bool := do
  if row.runId ≠ item.runId ∨ row.id ≠ item.id ∨ row.processType ≠ "correlation.effector" ∨
      row.priority ≠ item.priority ∨ row.maxAttempts ≠ item.maxAttempts then return false
  else
    match ← parsed item.inputJson, ← parsed row.inputJson with
    | .obj expected, .obj source =>
      if (Json.obj (without injectedKeys source)).canonical ≠ (Json.obj (without injectedKeys expected)).canonical then
        return false
      else sameMarker item row
    | _, _ => return false

end
end Advance
end Fala.Correlation

/-! The input of a process whose upstreams are over: what was authored, and what is conducted to it. -/

namespace Fala.Correlation
open Json Schema Journal

/-! The reactions of an output. -/

/-- `filter_reactions_json` keeps such a reaction. -/
def reactionAccepted (allowed : List String) : Json → Bool
  | .obj members =>
    if allowed = [] then true
    else
      match lookup "kind" members with
      | some (.str kind) => allowed.contains kind
      | _ => false
  | _ => false

def reactionFault (detail : String) : String := "correlation.advance.invalid_reactions: " ++ detail

def checkReaction : Json → Except String Unit
  | .obj members => do
    match lookup "kind" members with
    | some (.str kind) => ensure (kind ≠ "") (reactionFault "reaction kind must be a non-empty string")
    | _ => .error (reactionFault "reaction kind must be a non-empty string")
    ensure ((lookup "uri" members).all Persist.isText) (reactionFault "reaction uri must be a string")
    ensure ((lookup "id" members).all Persist.isText) (reactionFault "reaction id must be a string")
  | _ => .error (reactionFault "reaction must be an object")

/-- `_reaction_list` -/
def reactionList (digest : Json → String) (output : Json) (allowed : List String) : Except String (List Json) := do
  ensure output.isObject (reactionFault "expected output object")
  match ← Protocol.domainPayload digest (.printed output.canonical) with
  | .obj payload =>
    match lookup "reactions" payload with
    | none => return []
    | some (.arr reactions) => do
      reactions.forM checkReaction
      return canonicalItems (reactions.filter (reactionAccepted allowed))
    | some _ => .error (reactionFault "reactions must be an array")
  | _ => .error (reactionFault "expected output object")

/-! The effectors before another one. -/

section Ancestors

variable (processes : List (CorrelationProcessPlan Text)) (effectorId : String)

/-- The first process of an effector. -/
def processOf (processes : List (CorrelationProcessPlan Text)) (effectorId : String) :
    Option (CorrelationProcessPlan Text) := processes.find? fun p => p.effectorId = effectorId

/-- The work left: each effector not seen yet is entered once, with its upstreams, and left once. -/
def workLeft (seen : List String) : List (CorrelationProcessPlan Text) → Nat
  | [] => 0
  | p :: rest => (if p.effectorId ∈ seen then 0 else p.conduction.length + 1) + workLeft seen rest

variable {processes}

theorem workLeft_seen (seen : List String) (current : String) (processes : List (CorrelationProcessPlan Text)) :
    workLeft (current :: seen) processes ≤ workLeft seen processes := by
  induction processes with
  | nil => exact Nat.le_refl _
  | cons p rest ih =>
    simp only [workLeft, List.mem_cons]
    by_cases here : p.effectorId ∈ seen
    · simpa [here] using ih
    · by_cases same : p.effectorId = current
      · simp only [same, true_or, if_true]
        omega
      · simp only [same, false_or]
        omega

theorem workLeft_entered {p : CorrelationProcessPlan Text} {seen : List String} {current : String}
    (found : processOf processes current = some p) (new : current ∉ seen) :
    workLeft (current :: seen) processes + (p.conduction.length + 1) ≤ workLeft seen processes := by
  induction processes with
  | nil => cases found
  | cons head rest ih =>
    simp only [processOf, List.find?_cons] at found
    simp only [workLeft, List.mem_cons]
    by_cases same : head.effectorId = current
    · simp only [same, decide_true] at found
      cases found
      have kept := workLeft_seen seen current rest
      simp only [same, true_or, if_true, new, if_false]
      omega
    · simp only [same, decide_false] at found
      have later := ih found
      simp only [same, false_or]
      omega

variable (processes)

/-- The loop of `_ancestor_effectors`. The cursor is a stack with its top first; an entry is marked when its upstreams
    lie above it. -/
def ancestorSearch (cursor : List (String × Bool)) (seen order : List String) : List String :=
  match cursor with
  | [] => order
  | (current, true) :: rest =>
    ancestorSearch rest seen (if current ≠ effectorId then order ++ [current] else order)
  | (current, false) :: rest =>
    if _known : current ∈ seen then ancestorSearch rest seen order
    else
      match _found : processOf processes current with
      | none => ancestorSearch rest seen order
      | some p =>
        let next := p.conduction.filter fun upstream => upstream ∉ current :: seen ∧ upstream ≠ effectorId
        ancestorSearch (next.map (·, false) ++ (current, true) :: rest) (current :: seen) order
termination_by cursor.length + workLeft seen processes
decreasing_by
  · simp
  · simp
  · simp
  · have entered := workLeft_entered _found _known
    have some := List.length_filter_le (fun upstream => decide (upstream ∉ current :: seen ∧ upstream ≠ effectorId))
      p.conduction
    simp only [List.length_append, List.length_map, List.length_cons]
    omega

/-- `_ancestor_effectors` -/
def ancestorEffectors : List String := ancestorSearch processes effectorId [(effectorId, false)] [] []

end Ancestors
end Fala.Correlation
