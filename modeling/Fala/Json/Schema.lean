import Fala.Json.Text
import Mathlib.Algebra.Group.Nat.Defs

namespace Fala

/-- `Float64(n)`: the nearest double, ties to even. -/
def float64OfInt (n : Int) : Rat :=
  let shift := n.natAbs.log2 - 52
  let quotient := n.natAbs / 2 ^ shift
  let remainder := n.natAbs % 2 ^ shift
  let up := 2 ^ shift < 2 * remainder ∨ (2 ^ shift = 2 * remainder ∧ quotient % 2 = 1)
  let rounded := (if up then quotient + 1 else quotient) * 2 ^ shift
  if n < 0 then -(rounded : Rat) else (rounded : Rat)

namespace Json

def isObject : Json → Bool
  | .obj _ => true
  | _ => false

def isArray : Json → Bool
  | .arr _ => true
  | _ => false

def isInteger : Json → Bool
  | .int _ | .uint _ => true
  | _ => false

def isNumber : Json → Bool
  | .int _ | .uint _ | .float _ => true
  | _ => false

/-- The exact value of a number. -/
def exactNumber : Json → Rat
  | .int n => n
  | .uint n => n
  | .float q => q
  | _ => 0

mutual

/-- `json_values_equal`: numbers by value, objects by members. -/
def valuesEqual : Json → Json → Bool
  | .null, .null => true
  | .bool a, .bool b => a == b
  | .str a, .str b => a == b
  | .arr items, .arr others => itemsEqual items others
  | .obj members, .obj others =>
    members.length == others.length && membersEqual members others
  | .int a, right => right.isNumber && decide ((a : Rat) = right.exactNumber)
  | .uint a, right => right.isNumber && decide ((a : Rat) = right.exactNumber)
  | .float a, right => right.isNumber && decide (a = right.exactNumber)
  | _, _ => false

def itemsEqual : List Json → List Json → Bool
  | [], [] => true
  | a :: as, b :: bs => valuesEqual a b && itemsEqual as bs
  | _, _ => false

def membersEqual : List (String × Json) → List (String × Json) → Bool
  | [], _ => true
  | (name, a) :: rest, others =>
    (match lookup name others with
      | some b => valuesEqual a b
      | none => false) && membersEqual rest others

def depth : Json → Nat
  | .arr items => itemsDepth items + 1
  | .obj members => membersDepth members + 1
  | _ => 1

def itemsDepth : List Json → Nat
  | [] => 0
  | item :: rest => max (depth item) (itemsDepth rest)

def membersDepth : List (String × Json) → Nat
  | [] => 0
  | (_, value) :: rest => max (depth value) (membersDepth rest)

end

end Json

namespace Schema
open Json

/-- `_schema_number` -/
def number : Json → Rat
  | .float q => q
  | .int n => float64OfInt n
  | .uint n => float64OfInt n
  | _ => 0

/-- `_schema_kind_matches` -/
def kindMatches (value : Json) (kind : String) : Bool :=
  match kind, value with
  | "object", .obj _ | "array", .arr _ | "string", .str _ | "boolean", .bool _
  | "null", .null => true
  | "number", value => value.isNumber
  | "integer", .int _ | "integer", .uint _ => true
  | "integer", .float q => decide (-9223372036854775808 ≤ q ∧ q < 9223372036854775808 ∧ q.den = 1)
  | _, _ => false

/-- `_schema_type_matches` -/
def typeMatches (value schema : Json) : Bool :=
  match schema.member "type" with
  | none => true
  | some (.str kind) => kindMatches value kind
  | some (.arr kinds) =>
    kinds.all (fun k => match k with | .str _ => true | _ => false) &&
      kinds.any fun k => match k with | .str kind => kindMatches value kind | _ => false
  | some _ => false

def knownKind (kind : String) : Bool :=
  ["null", "boolean", "object", "array", "number", "integer", "string"].contains kind

def refuse (code path message : String) : Except String Unit :=
  .error (code ++ " at " ++ path ++ ": " ++ message)

def escape (c : Char) : List Char :=
  if c = '~' then ['~', '0'] else if c = '/' then ['~', '1'] else [c]

/-- `_pointer` -/
def pointer (path key : String) : String :=
  path ++ "/" ++ String.ofList (key.toList.flatMap escape)

def checkTypeNames (code path : String) : List String → List Json → Except String Unit
  | _, [] => return ()
  | seen, .str kind :: rest =>
    if ¬ knownKind kind ∨ seen.contains kind then refuse code path "unknown or duplicate type"
    else checkTypeNames code path (kind :: seen) rest
  | _, _ :: _ => refuse code path "expected type name"

def checkFieldNames (code path : String) : List String → List Json → Except String Unit
  | _, [] => return ()
  | seen, .str name :: rest =>
    if seen.contains name then refuse code path "duplicate field"
    else checkFieldNames code path (name :: seen) rest
  | _, _ :: _ => refuse code path "expected field name"

/-- The keywords whose value is no schema. -/
def checkPlainKeyword (code pointer key : String) (child : Json) : Except String Unit :=
  if key = "type" then
    match child with
    | .str kind => if knownKind kind then return () else refuse code pointer "unknown type"
    | .arr [] => refuse code pointer "empty type array"
    | .arr kinds => checkTypeNames code pointer [] kinds
    | _ => refuse code pointer "expected type name or array"
  else if key = "required" then
    match child with
    | .arr names => checkFieldNames code pointer [] names
    | _ => refuse code pointer "expected string array"
  else if key = "additionalProperties" then
    match child with
    | .bool _ => return ()
    | _ => refuse code pointer "only boolean additionalProperties is supported"
  else if key = "enum" then
    match child with
    | .arr (_ :: _) => return ()
    | _ => refuse code pointer "expected nonempty enum array"
  else if key = "const" then return ()
  else if key = "minimum" ∨ key = "maximum" then
    if child.isNumber then return () else refuse code pointer "expected number"
  else if ["minLength", "maxLength", "minItems", "maxItems"].contains key then
    match child with
    | .int n => if n < 0 then refuse code pointer "expected nonnegative integer" else return ()
    | .uint _ => return ()
    | _ => refuse code pointer "expected nonnegative integer"
  else if ["$schema", "$id", "$comment", "title", "description"].contains key then
    match child with
    | .str _ => return ()
    | _ => refuse code pointer "expected annotation string"
  else if ["deprecated", "readOnly", "writeOnly"].contains key then
    match child with
    | .bool _ => return ()
    | _ => refuse code pointer "expected annotation boolean"
  else refuse code pointer ("unsupported JSON Schema keyword " ++ key)

mutual

/-- `validate_schema` -/
def validateSchema (code : String) : Json → String → Except String Unit
  | .obj members, path => validateKeywords code members path
  | _, path => refuse code path "expected schema object"

def validateKeywords (code : String) : List (String × Json) → String → Except String Unit
  | [], _ => return ()
  | (key, child) :: rest, path => do
    if key = "properties" then
      match child with
      | .obj properties => validateProperties code properties (pointer path key)
      | _ => refuse code (pointer path key) "expected object"
    else if key = "items" then validateSchema code child (pointer path key)
    else if key = "oneOf" ∨ key = "anyOf" ∨ key = "allOf" then
      match child with
      | .arr (first :: branches) =>
        validateSchema code first (pointer path key ++ "/0")
        validateBranches code branches (pointer path key) 1
      | _ => refuse code (pointer path key) "expected nonempty schema array"
    else checkPlainKeyword code (pointer path key) key child
    validateKeywords code rest path

def validateProperties (code : String) : List (String × Json) → String → Except String Unit
  | [], _ => return ()
  | (name, schema) :: rest, path => do
    validateSchema code schema (pointer path name)
    validateProperties code rest path

def validateBranches (code : String) : List Json → String → Nat → Except String Unit
  | [], _, _ => return ()
  | schema :: rest, path, index => do
    validateSchema code schema (path ++ "/" ++ toString index)
    validateBranches code rest path (index + 1)

end

def succeeds {α : Type} : Except String α → Bool
  | .ok _ => true
  | .error _ => false

def ensure (condition : Bool) (message : String) : Except String Unit :=
  if condition then return () else .error message

theorem ensure_ok {condition : Bool} {message : String} {u : Unit} :
    ensure condition message = .ok u ↔ condition = true := by
  cases condition <;> simp [ensure, pure, Except.pure]

theorem ensure_bind_ok {α : Type} {condition : Bool} {message : String}
    {next : Unit → Except String α} {a : α} :
    (ensure condition message >>= next) = .ok a ↔ condition = true ∧ next () = .ok a := by
  cases condition <;> simp [ensure, bind, Except.bind, pure, Except.pure]

theorem bind_ok {α β : Type} {x : Except String α} {f : α → Except String β} {b : β} :
    (x >>= f) = .ok b ↔ ∃ a, x = .ok a ∧ f a = .ok b := by
  cases x <;> simp [bind, Except.bind]

/-- A present numeric keyword bounds the value. -/
def bound (schema : Json) (keyword : String) (admits : Json → Bool) (message : String) :
    Except String Unit :=
  match schema.member keyword with
  | some limit => ensure (admits limit) message
  | none => return ()

def truncate (q : Rat) : Int := if q < 0 then -((-q).floor) else q.floor

/-- The checks of `_validate_schema_payload` that look at no other schema. -/
def validateScalar (value schema : Json) (path : String) : Except String Unit := do
  if let some expected := schema.member "const" then
    ensure (valuesEqual value expected) ("output does not match schema const at " ++ path)
  if let some (.arr candidates) := schema.member "enum" then
    ensure (candidates.any (valuesEqual value)) ("output does not match schema enum at " ++ path)
  ensure (typeMatches value schema) ("output does not match schema type at " ++ path)
  if value.isNumber then
    bound schema "minimum" (fun m => ¬ (m.isNumber ∧ number value < number m))
      ("output is below schema minimum at " ++ path)
    bound schema "maximum" (fun m => ¬ (m.isNumber ∧ number m < number value))
      ("output exceeds schema maximum at " ++ path)
  if let .str text := value then
    bound schema "minLength" (fun m => ¬ (m.isInteger ∧ (text.length : Int) < truncate (number m)))
      ("output is shorter than schema minLength at " ++ path)
    bound schema "maxLength" (fun m => ¬ (m.isInteger ∧ truncate (number m) < (text.length : Int)))
      ("output exceeds schema maxLength at " ++ path)
  if let .arr items := value then
    bound schema "minItems" (fun m => ¬ (float64OfInt items.length < number m))
      ("output has fewer items than schema minItems at " ++ path)
    bound schema "maxItems" (fun m => ¬ (number m < float64OfInt items.length))
      ("output has more items than schema maxItems at " ++ path)

def requireFields (members : List (String × Json)) (path : String) : List Json → Except String Unit
  | [] => return ()
  | .str key :: rest => do
    ensure (lookup key members).isSome ("missing required output field " ++ key ++ " at " ++ path)
    requireFields members path rest
  | _ :: rest => requireFields members path rest

def refuseAdditional (properties : List (String × Json)) (path : String) :
    List (String × Json) → Except String Unit
  | [] => return ()
  | (key, _) :: rest => do
    ensure (lookup key properties).isSome
      ("output contains additional property " ++ key ++ " at " ++ path)
    refuseAdditional properties path rest

def propertiesOf (schema : Json) : List (String × Json) :=
  match schema.member "properties" with
  | some (.obj properties) => properties
  | _ => []

/-- How many branches of a combinator must accept. -/
def combinatorHolds (keyword : String) (accepted total : Nat) : Bool :=
  if keyword = "oneOf" then accepted = 1
  else if keyword = "anyOf" then accepted ≠ 0
  else accepted = total

/-- `_validate_schema_payload`. Every call is on a schema inside this one, so the
    depth of the schema bounds the nesting of the calls. -/
def validatePayload : Nat → Json → Json → String → Except String Unit
  | 0, _, _, path => .error ("schema nesting exceeded at " ++ path)
  | nesting + 1, value, schema, path => do
    ensure schema.isObject "expected schema object"
    for keyword in ["oneOf", "anyOf", "allOf"] do
      match schema.member keyword with
      | none => pure ()
      | some (.arr (first :: rest)) =>
        let branches := first :: rest
        let accepted := branches.countP fun branch =>
          succeeds (validatePayload nesting value branch path)
        ensure (combinatorHolds keyword accepted branches.length)
          ("output does not match schema " ++ keyword ++ " at " ++ path)
      | some _ => .error ("expected nonempty schema array at " ++ path ++ "/" ++ keyword)
    validateScalar value schema path
    match value with
    | .arr items =>
      match schema.member "items" with
      | some itemSchema =>
        for (item, index) in items.zipIdx do
          validatePayload nesting item itemSchema (path ++ "/" ++ toString index)
      | none => pure ()
    | .obj members =>
      if let some (.arr required) := schema.member "required" then
        requireFields members path required
      if let some (.bool false) := schema.member "additionalProperties" then
        refuseAdditional (propertiesOf schema) path members
      for (key, property) in propertiesOf schema do
        match lookup key members with
        | some held => validatePayload nesting held property (path ++ "/" ++ key)
        | none => pure ()
    | _ => pure ()

/-- `validate_json_schema_value` -/
def validateValue (value schema : Json) (path : String) : Except String Unit := do
  validateSchema "schema.invalid" schema (path ++ "/schema")
  validatePayload schema.depth value schema path

example : succeeds (validateValue (.obj [("n", .int 3)])
    (.obj [("properties", .obj [("n", .obj [("type", .str "integer"), ("maximum", .int 4)])])])
    "/output_json") = true := by decide +kernel

end Schema
end Fala
