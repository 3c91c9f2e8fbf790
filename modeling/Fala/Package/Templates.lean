import Fala.Package.GraphTools
import Fala.Correlation.Projection
import Fala.Json.Notation

/-! The path templates of a package and their expansion while the package is loaded. -/

namespace Fala.Package
open Json Schema Correlation Replacing

/-- The message of `_error`. -/
def located (code path message : String) : String := code ++ " at " ++ path ++ ": " ++ message

/-- `_pointer_token` -/
def pointerToken (key : String) : String :=
  String.join (key.toList.map fun c => if c = '~' then "~0" else if c = '/' then "~1" else c.toString)

def required (root : Json) (key path : String) : Except String Json :=
  match root.member key with
  | some value => .ok value
  | none => .error (located "manifest.missing" (path ++ "/" ++ pointerToken key) "required field is missing")

def requiredNonnull (root : Json) (key path : String) : Except String Json := do
  let value ← required root key path
  ensure (value ≠ .null) (located "manifest.type" (path ++ "/" ++ key) "explicit null is not allowed")
  return value

/-- `_optional` -/
def optionalMember (root : Json) (key : String) : Json := (root.member key).getD .null

/-- `_string` -/
def stringAt (value : Json) (path : String) : Except String String :=
  match value with
  | .str text => .ok text
  | _ => .error (located "manifest.type" path "expected string")

/-- `_integer` -/
def integerAt (value : Json) (path : String) : Except String Int :=
  match value with
  | .int n => .ok n
  | .uint n => .ok n
  | _ => .error (located "manifest.type" path "expected integer")

def objectAt (value : Json) (path message : String) : Except String (List (String × Json)) :=
  match value with
  | .obj members => .ok members
  | _ => .error (located "manifest.type" path message)

def arrayAt (value : Json) (path message : String) : Except String (List Json) :=
  match value with
  | .arr items => .ok items
  | _ => .error (located "manifest.type" path message)

/-- The loop of `_known` over the keys of an object. -/
def checkKeys (allowed : List String) (path message : String) : List (String × Json) → Except String Unit
  | [] => .ok ()
  | (key, _) :: rest => do
    ensure (key ∈ allowed) (located "manifest.unknown" (path ++ "/" ++ pointerToken key) message)
    checkKeys allowed path message rest

/-! What a template has to be. -/

def isIdFirst (c : Char) : Bool := c.isAlpha

def isIdRest (c : Char) : Bool := c.isAlphanum || c ∈ ['_', '.', '-']

/-- A text that `_runtime_id` accepts. -/
def isRuntimeId (text : String) : Bool :=
  match text.toList with
  | [] => false
  | first :: rest => decide (text.utf8ByteSize ≤ 128) && isIdFirst first && rest.all isIdRest

theorem requiredNonnull_ok {root value : Json} {key path : String} (passed : requiredNonnull root key path = .ok value) :
    root.member key = some value := by
  simp only [requiredNonnull, required, bind_ok, ensure_ok] at passed
  obtain ⟨held, found, _, _, same⟩ := passed
  cases same
  cases member : root.member key with
  | none =>
    rw [member] at found
    cases found
  | some other =>
    rw [member] at found
    exact congrArg some (Except.ok.inj found)

/-! The expansion. -/

section Expansion

variable (print : Json → String) (read : String → Except String Json)

/-- `_parameter_text` -/
def parameterText (value : Json) (kind path : String) : Except String String :=
  if kind = "string" then
    match value with
    | .str _ => .ok (String.ofList ((print value).toList.drop 1).dropLast)
    | _ => .error (located "manifest.type" path "expected string")
  else if kind = "integer" then
    match value with
    | .int n => .ok (toString n)
    | .uint n => .ok (toString n)
    | _ => .error (located "manifest.type" path "expected integer")
  else if kind = "number" then
    if value.isNumber then .ok (print value) else .error (located "manifest.type" path "expected number")
  else if kind = "boolean" then
    match value with
    | .bool b => .ok (toString b)
    | _ => .error (located "manifest.type" path "expected boolean")
  else .error (located "manifest.value" path "parameter type must be string, integer, number, or boolean")

/-- The placeholder of a parameter in a text. -/
def placeholder (name : String) : String := "$\x7b" ++ name ++ "\x7d"

/-- `_replace_all` -/
def replaceAllIn (source needle replacement : String) : String :=
  String.ofList (replaceAll needle.toList replacement.toList source.toList)

/-- The loop over the declared parameters. -/
def replaceParameters (path itemPath : String) (supplied : List (String × Json)) :
    List (String × Json) → String → Except String String
  | [], rendered => .ok rendered
  | (key, declared) :: rest, rendered => do
    let parameterPath := itemPath ++ "/" ++ pointerToken key
    ensure (lookup key supplied).isSome (located "manifest.missing" parameterPath "required parameter is missing")
    let kind ← stringAt declared (path ++ "/template/parameters/" ++ pointerToken key)
    let replacement ← parameterText print ((lookup key supplied).getD .null) kind parameterPath
    replaceParameters path itemPath supplied rest (replaceAllIn rendered (placeholder key) replacement)

/-- `canonical_json_text` -/
def canonicalText (text : String) : Except String String := do
  let value ← read text
  return print value.canonical

/-- The effectors of one item, before they are linked to those of the item before it. -/
def renderItem (declared : List (String × Json)) (source : Json) (path itemPath : String) (item : Json) :
    Except String (List Json) := do
  let supplied ← objectAt item itemPath "expected object"
  checkKeys (declared.map Prod.fst) itemPath "unknown parameter" supplied
  let authored ← canonicalText print read (print source)
  let rendered ← replaceParameters print path itemPath supplied declared authored
  ensure (!occurs "$\x7b" rendered) (located "manifest.value" itemPath "template contains an undeclared parameter")
  let value ← read rendered
  arrayAt value itemPath "expanded effectors must be an array"

/-- Past the first item of a serial expansion an effector without a conduction takes the one given. -/
def linkEffector (linked : Bool) (tail : String) (effector : Json) : Except String Json :=
  if linked = true ∧ optionalMember effector "conduction" = .null then
    match effector with
    | .obj members => do
      let conduction ← read ("[" ++ print (.str tail) ++ "]")
      return .obj (setMember "conduction" conduction members)
    | _ => .error "expected object"
  else .ok effector

/-- The loop over the effectors of one item. It gives them linked, and the id of the last. -/
def linkEffectors (linked : Bool) (tail itemPath : String) : List Json → Except String (List Json × String)
  | [] => .ok ([], tail)
  | effector :: rest => do
    let effector ← linkEffector print read linked tail effector
    if rest = [] then
      let id ← requiredNonnull effector "id" itemPath
      let last ← stringAt id (itemPath ++ "/id")
      return ([effector], last)
    else
      let (others, last) ← linkEffectors linked tail itemPath rest
      return (effector :: others, last)

/-- The loop over the items. -/
def expandItems (declared : List (String × Json)) (source : Json) (serial : Bool) (path : String) :
    Nat → String → List Json → Except String (List Json)
  | _, _, [] => .ok []
  | index, tail, item :: rest => do
    let itemPath := path ++ "/expansion/items/" ++ toString index
    let effectors ← renderItem print read declared source path itemPath item
    let (linked, last) ← linkEffectors print read (serial && decide (0 < index)) tail itemPath effectors
    let others ← expandItems declared source serial path (index + 1) last rest
    return linked ++ others

def joined : List String → String
  | [] => ""
  | text :: rest => text ++ (if rest = [] then "" else ",") ++ joined rest

def serialFlag (expansion : Json) (path : String) : Except String Bool :=
  match optionalMember expansion "serial" with
  | .null => .ok false
  | .bool serial => .ok serial
  | _ => .error (located "manifest.type" (path ++ "/expansion/serial") "expected boolean")

/-- `_template_effectors` -/
def templateEffectors (template expansion : Json) (path : String) : Except String Json := do
  let parametersValue ← requiredNonnull template "parameters" (path ++ "/template")
  let declared ← objectAt parametersValue (path ++ "/template/parameters") "expected object"
  let source ← requiredNonnull template "effectors" (path ++ "/template")
  ensure (source.isArray && source ≠ .arr [])
    (located "manifest.value" (path ++ "/template/effectors") "must be nonempty array")
  let itemsValue ← requiredNonnull expansion "items" (path ++ "/expansion")
  let items ← arrayAt itemsValue (path ++ "/expansion/items") "expected array"
  let maximumValue ← requiredNonnull expansion "max_items" (path ++ "/expansion")
  let maximum ← integerAt maximumValue (path ++ "/expansion/max_items")
  ensure (0 ≤ maximum) (located "manifest.value" (path ++ "/expansion/max_items") "must not be negative")
  ensure ((items.length : Int) ≤ maximum)
    (located "manifest.limit" (path ++ "/expansion/items") "item count exceeds max_items")
  let serial ← serialFlag expansion path
  let effectors ← expandItems print read declared source serial path 0 "" items
  read ("[" ++ joined (effectors.map print) ++ "]")

end Expansion

end Fala.Package
