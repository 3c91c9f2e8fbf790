import Fala.Json.Paths
import Fala.Json.Wire

namespace Fala.Correlation
open Json Schema

/-- The payload of a value that has the form of a result message. -/
def messagePayload (value : Json) : Option (List (String × Json)) :=
  match value.member "protocol", value.member "kind", value.member "payload" with
  | some _, some (.str "result"), some (.obj payload) => some payload
  | _, _, _ => none

/-- `_project_output` before the schema is looked at: the payload of a result message, and any other object
    without its adapter telemetry. -/
def domainSource : Json → Except String (List (String × Json))
  | .obj members =>
    let source := members.filter fun m => m.1 ≠ "adapter"
    .ok ((messagePayload (.obj source)).getD source)
  | _ => .error "expected JSON object"

/-- `result[key] = value` -/
def setMember (name : String) (value : Json) : List (String × Json) → List (String × Json)
  | [] => [(name, value)]
  | (other, held) :: rest =>
    if other = name then (name, value) :: rest else (other, held) :: setMember name value rest

def setMembers (members added : List (String × Json)) : List (String × Json) :=
  added.foldl (fun held m => setMember m.1 m.2 held) members

/-- `schema_projection_properties`. Every call is on a schema inside this one, so the depth of the schema bounds
    the nesting of the calls. -/
def projectionProperties : Nat → Json → Json → Except String (List (String × Json))
  | 0, _, _ => .error "schema nesting exceeded"
  | nesting + 1, schema, value => do
    ensure schema.isObject "expected object"
    let mut result := propertiesOf schema
    for keyword in ["oneOf", "anyOf", "allOf"] do
      match schema.member keyword with
      | none => pure ()
      | some (.arr branches) =>
        for branch in branches do
          if succeeds (validateValue value branch "/projection") then
            result := setMembers result (← projectionProperties nesting branch value)
      | some _ => .error "expected array"
    return result

/-- `_project_output` -/
def projectOutput (output : Json) (outputSchemaJson : Text) : Except String Json := do
  let source ← domainSource output
  match outputSchemaJson.parse with
  | none => .error "invalid JSON"
  | some schema =>
    if schema.isObject then
      let properties ← projectionProperties schema.depth schema (.obj source)
      if properties.isEmpty then return .obj source
      else return .obj (properties.filterMap fun m => (lookup m.1 source).map (m.1, ·))
    else return .obj source

/-- `_fixture_payload` -/
def fixturePayload (outcome : Json) : Json :=
  match outcome.member "output" with
  | none => .obj []
  | some output =>
    match messagePayload output with
    | some payload => .obj payload
    | none => output

/-- The values that `select_path_terminal` takes from the envelope of a row. -/
def terminalValues (envelope : Json) : Json :=
  match envelope.member "kind", envelope.member "payload" with
  | some (.str "result"), some payload => payload
  | _, _ => envelope

end Fala.Correlation
