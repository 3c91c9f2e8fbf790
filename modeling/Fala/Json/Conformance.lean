import Fala.Json.Schema

/-! The payload checks that an effector package runs without a journal. -/

namespace Fala.Conformance
open Json Schema

/-- The number that a value is to `==` and `<`; a boolean is one. -/
def asNumber : Json → Option Rat
  | .bool b => some (if b then 1 else 0)
  | .int n => some n
  | .uint n => some n
  | .float q => some q
  | _ => none

mutual

/-- `==` of two payloads. -/
def equal : Json → Json → Bool
  | .null, .null => true
  | .str a, .str b => a == b
  | .arr items, .arr others => itemsEqual items others
  | .obj members, .obj others => members.length == others.length && membersEqual members others
  | .bool a, right => asNumber right == some (if a then 1 else 0)
  | .int a, right => asNumber right == some (a : Rat)
  | .uint a, right => asNumber right == some (a : Rat)
  | .float a, right => asNumber right == some a
  | _, _ => false

end

/-- `_payload_type_name` -/
def payloadTypeName : Json → String
  | .null => "null"
  | .bool _ => "boolean"
  | .int _ | .uint _ => "integer"
  | .float _ => "number"
  | .str _ => "string"
  | .arr _ => "array"
  | .obj _ => "object"

/-- `_type_matches` -/
def typeMatches (value : Json) (declared : String) : Bool :=
  if declared = "number" then payloadTypeName value = "number" ∨ payloadTypeName value = "integer"
  else payloadTypeName value = declared

def supportedSchemaKeys : List String :=
  ["type", "const", "enum", "required", "properties", "items", "minimum", "maximum", "minLength", "maxLength",
    "minItems", "maxItems", "additionalProperties", "oneOf", "anyOf", "allOf", "title", "description", "$comment"]

/-- Raise `ProtocolError` at a path unless a condition holds. -/
def check (condition : Bool) (path : String) : Except String Unit :=
  ensure condition ("fep.payload_invalid at " ++ path)

/-- The first of the unknown keywords in order. -/
def checkKeys (members : List (String × Json)) (path : String) : Except String Unit :=
  match sortMembers (members.filter fun m => ¬ supportedSchemaKeys.contains m.1) with
  | [] => return ()
  | (key, _) :: _ => check false (pointer path key)

/-- `int(schema[keyword])`, for the values that a schema may have there. -/
def intOf : Json → Except String Int
  | .int n => .ok n
  | .uint n => .ok n
  | .float q => .ok (truncate q)
  | _ => .error "int() argument"

def limited (schema : Json) (keyword : String) (admits : Int → Bool) (path : String) : Except String Unit := do
  match schema.member keyword with
  | some limit =>
    let n ← intOf limit
    check (admits n) path
  | none => return ()

def compared (schema : Json) (keyword : String) (admits : Rat → Bool) (path : String) : Except String Unit :=
  match schema.member keyword with
  | some limit =>
    match asNumber limit with
    | some q => check (admits q) path
    | none => .error "not supported between instances"
  | none => return ()

def checkConst (value schema : Json) (path : String) : Except String Unit :=
  match schema.member "const" with
  | some expected => check (equal value expected) path
  | none => return ()

def checkEnum (value schema : Json) (path : String) : Except String Unit :=
  match schema.member "enum" with
  | some (.arr options) => check (options.any (equal value)) path
  | some _ => check false path
  | none => return ()

def checkType (value schema : Json) (path : String) : Except String Unit :=
  match schema.member "type" with
  | some (.str declared) => check (typeMatches value declared) path
  | some (.arr declared) =>
    check (declared.any fun item => match item with | .str name => typeMatches value name | _ => false) path
  | _ => return ()

/-- The lengths of texts and lists, and the size of numbers. -/
def checkLimits (value schema : Json) (path : String) : Except String Unit :=
  match value with
  | .str text => do
    limited schema "minLength" (fun n => n ≤ (text.length : Int)) path
    limited schema "maxLength" (fun n => (text.length : Int) ≤ n) path
  | .arr items => do
    limited schema "minItems" (fun n => n ≤ (items.length : Int)) path
    limited schema "maxItems" (fun n => (items.length : Int) ≤ n) path
  | .int _ | .uint _ | .float _ => do
    compared schema "minimum" (fun q => q ≤ value.exactNumber) path
    compared schema "maximum" (fun q => value.exactNumber ≤ q) path
  | _ => return ()

/-- A required key that is no text is missing. -/
def requireKeys (members : List (String × Json)) (path : String) : List Json → Except String Unit
  | [] => return ()
  | .str key :: rest => do
    check (lookup key members).isSome (pointer path key)
    requireKeys members path rest
  | _ :: _ => check false (pointer path "")

def refuseAdditional (properties : List (String × Json)) (path : String) : List (String × Json) → Except String Unit
  | [] => return ()
  | (key, _) :: rest => do
    check (lookup key properties).isSome (pointer path key)
    refuseAdditional properties path rest

def checkRequired (members : List (String × Json)) (schema : Json) (path : String) : Except String Unit :=
  match schema.member "required" with
  | some (.arr required) => requireKeys members path required
  | _ => return ()

/-- Without properties every key is admitted. -/
def checkAdditional (members : List (String × Json)) (schema : Json) (path : String) : Except String Unit :=
  match schema.member "additionalProperties", schema.member "properties" with
  | some (.bool false), some (.obj properties) => refuseAdditional properties path members
  | _, _ => return ()

def checkItems (payload : Json → Json → String → Except String Unit) (item : Json) (path : String) :
    List Json → Nat → Except String Unit
  | [], _ => return ()
  | value :: rest, index => do
    payload value item (path ++ "/" ++ toString index)
    checkItems payload item path rest (index + 1)

def checkProperties (payload : Json → Json → String → Except String Unit) (members : List (String × Json))
    (path : String) : List (String × Json) → Except String Unit
  | [] => return ()
  | (key, child) :: rest => do
    match lookup key members, child with
    | some value, .obj _ => payload value child (pointer path key)
    | _, _ => pure ()
    checkProperties payload members path rest

/-- One of `oneOf`, `anyOf` and `allOf`. An option that raises is not matched. -/
def checkCombinator (payload : Json → Json → String → Except String Unit) (value schema : Json) (path : String)
    (combinator : String) : Except String Unit :=
  match schema.member combinator with
  | none | some .null => return ()
  | some (.arr (first :: rest)) => do
    check ((first :: rest).all isObject) (path ++ "/" ++ combinator)
    let found := (first :: rest).countP fun option => succeeds (payload value option path)
    check (combinatorHolds combinator found (first :: rest).length) path
  | some _ => check false (path ++ "/" ++ combinator)

/-- The part of `check_payload` that is about one object or list. -/
def checkNested (payload : Json → Json → String → Except String Unit) (value schema : Json) (path : String) :
    Except String Unit :=
  match value with
  | .arr items =>
    match schema.member "items" with
    | some (.obj item) => checkItems payload (.obj item) path items 0
    | _ => return ()
  | .obj members => do
    checkRequired members schema path
    checkProperties payload members path (propertiesOf schema)
    checkAdditional members schema path
  | _ => return ()

/-- `check_payload`. Every call is on a schema inside this one, so the depth of the schema bounds the nesting. -/
def checkPayload : Nat → Json → Json → String → Except String Unit
  | nesting + 1, value, .obj schema, path => do
    checkKeys schema path
    checkConst value (.obj schema) path
    checkEnum value (.obj schema) path
    checkType value (.obj schema) path
    checkLimits value (.obj schema) path
    checkNested (checkPayload nesting) value (.obj schema) path
    checkCombinator (checkPayload nesting) value (.obj schema) path "oneOf"
    checkCombinator (checkPayload nesting) value (.obj schema) path "anyOf"
    checkCombinator (checkPayload nesting) value (.obj schema) path "allOf"
  | _, _, _, path => check false path

mutual

/-- A schema that `check_payload` never refuses as a declaration, whatever part of it a payload reaches. -/
def declares : Json → Bool
  | .obj members => declaresKeywords members
  | _ => false

def declaresKeywords : List (String × Json) → Bool
  | [] => true
  | (key, child) :: rest =>
    supportedSchemaKeys.contains key &&
    (if key = "properties" then
      match child with
      | .obj properties => declaresProperties properties
      | _ => true
    else if key = "items" then
      match child with
      | .obj members => declaresKeywords members
      | _ => true
    else if key = "oneOf" ∨ key = "anyOf" ∨ key = "allOf" then
      match child with
      | .arr (first :: branches) => declares first && declaresBranches branches
      | _ => false
    else if key = "enum" then child.isArray
    else true) &&
    declaresKeywords rest

def declaresProperties : List (String × Json) → Bool
  | [] => true
  | (_, schema) :: rest =>
    (match schema with
      | .obj members => declaresKeywords members
      | _ => true) && declaresProperties rest

def declaresBranches : List Json → Bool
  | [] => true
  | schema :: rest => declares schema && declaresBranches rest

end

end Fala.Conformance
