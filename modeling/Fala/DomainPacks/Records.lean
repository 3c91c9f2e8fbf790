import Fala.Correlation.Projection
import Fala.Json.CanonicalText
import Fala.Json.Notation

/-! The domain packs: Splot cases and Takt requests, mapped onto impulses. -/

namespace Fala.DomainPacks
open Json Schema Correlation

structure Impulse where
  id : String
  runId : String
  impulseType : String
  payload : String := "\x7b\x7d"
  metadata : String := "\x7b\x7d"
  createdAt : String := ""
  updatedAt : String := ""
  deriving DecidableEq

/-! Objects made of texts. -/

def fieldsText : List (String × String) → String
  | [] => ""
  | (name, text) :: rest => name ++ ":" ++ text ++ (if rest = [] then "" else ",") ++ fieldsText rest

def objectText (fields : List (String × String)) : String := "\x7b" ++ fieldsText fields ++ "\x7d"

/-- A name as the packs write it, in quotes. -/
def label (name : String) : String := "\x22" ++ name ++ "\x22"

/-- The JSON library, with `String` of a Float64, and what is documented of both: the texts of the members make up the
    text of an object, a text is never the string that it spells, and `null`, a Float64 or an Int is read back. -/
structure Codec extends Library where
  floatText : Rat → String
  composes : ∀ members : List (String × String × Json), (members.map Prod.fst).Nodup →
    (∀ m ∈ members, read m.2.1 = .ok m.2.2) →
      read (objectText (members.map fun m => (print (.str m.1), m.2.1))) = .ok (.obj (members.map fun m => (m.1, m.2.2)))
  spelled : ∀ {text s}, read text = .ok (.str s) → text ≠ s
  null : read "null" = .ok .null
  floats : ∀ q, Known (.float q) → read (floatText q) = .ok (.float q)
  native : ∀ n : Int64, 0 ≤ n.toInt → Known (.int n.toInt)

section
variable (codec : Codec)

/-- `quote_json_string` -/
def quote (text : String) : String := codec.print (.str text)

/-- The canonical text, or the raw one where it is none. -/
def written (raw : String) : String :=
  match canonicalJsonText codec.print codec.read raw with
  | .ok text => text
  | .error _ => raw

/-- `_json_string` -/
def jsonString (members : List (String × Json)) (key : String) (missing : String := "") : String :=
  match lookup key members with
  | some (.str text) => text
  | some (.int n) => toString n
  | some (.float q) => codec.floatText q
  | _ => missing

/-- `_json_optional_number` -/
def jsonOptionalNumber (members : List (String × Json)) (key : String) : String :=
  match lookup key members with
  | some (.int n) => toString n
  | some (.uint n) => toString n
  | some (.float q) => codec.floatText q
  | some (.str text) => if text = "" then "null" else text
  | _ => "null"

def embedded (members : List (String × Json)) (key missing : String) : String :=
  match lookup key members with
  | some value => codec.print value
  | none => missing

/-- `metadata_with_pack` of the pack under the id. -/
def metadataWithPack (pack message base : String) : Except String String :=
  if base = "" ∨ base = "\x7b\x7d" then .ok (objectText [(label "domain_pack", quote codec pack)])
  else do
    let parsed ← codec.read base
    match parsed with
    | .obj members =>
      canonicalJsonText codec.print codec.read
        (codec.print (.obj (setMember "domain_pack" (.str pack) members)))
    | _ => .error message

/-- The metadata without the pack. -/
def metadataSurface (metadata : String) : String :=
  match codec.read metadata with
  | .ok (.obj members) =>
    if (lookup "domain_pack" members).isSome then
      objectText ((members.filter fun m => m.1 ≠ "domain_pack").map fun m => (quote codec m.1, codec.print m.2))
    else metadata
  | _ => metadata

end

/-! Splot. -/

namespace Splot

def domainPackId : String := "splot"
def arbitrationCase : String := "splot.arbitration_case"

end Splot

structure SplotArbitrationCase where
  id : String
  claimId : String
  claimant : String
  respondent : String
  amountJson : String := "null"
  currency : String := ""
  rules : String := ""
  valuesJson : String := "\x7b\x7d"
  metadataJson : String := "\x7b\x7d"
  reactionsJson : String := "[]"
  deriving DecidableEq

namespace SplotArbitrationCase

def isValid (c : SplotArbitrationCase) : Bool := c.id ≠ "" ∧ c.claimId ≠ "" ∧ c.claimant ≠ "" ∧ c.respondent ≠ ""

variable (codec : Codec)

def payloadJson (c : SplotArbitrationCase) : String :=
  let currencyJson := if c.currency ≠ "" then quote codec c.currency else "null"
  let rulesJson := if c.rules ≠ "" then quote codec c.rules else "null"
  written codec (objectText
    [(label "claim_id", quote codec c.claimId), (label "claimant", quote codec c.claimant),
      (label "respondent", quote codec c.respondent), (label "amount", c.amountJson),
      (label "currency", currencyJson), (label "rules", rulesJson), (label "values", c.valuesJson),
      (label "reactions", c.reactionsJson)])

def metadataWithPack (c : SplotArbitrationCase) : Except String String :=
  DomainPacks.metadataWithPack codec Splot.domainPackId "splot case metadata must be a JSON object" c.metadataJson

end SplotArbitrationCase

section
variable (codec : Codec)

def impulseFromCase (c : SplotArbitrationCase) (runId : String) (createdAt : String := "") : Except String Impulse := do
  ensure c.isValid "splot: case requires id, claim_id, claimant, respondent"
  ensure (runId ≠ "") "splot: run_id must not be empty"
  let metadata ← c.metadataWithPack codec
  return {
    id := c.id
    runId
    impulseType := Splot.arbitrationCase
    payload := c.payloadJson codec
    metadata
    createdAt
    updatedAt := createdAt }

def caseFromImpulse (impulse : Impulse) : Except String SplotArbitrationCase := do
  ensure (impulse.impulseType = Splot.arbitrationCase)
    ("splot: impulse " ++ impulse.id ++ " is not " ++ Splot.arbitrationCase)
  let payload ← codec.read impulse.payload
  match payload with
  | .obj members => do
    let claimId := jsonString codec members "claim_id"
    let claimant := jsonString codec members "claimant"
    let respondent := jsonString codec members "respondent"
    ensure (claimId ≠ "" ∧ claimant ≠ "" ∧ respondent ≠ "") "splot: claim_id, claimant, respondent are required"
    return {
      id := impulse.id
      claimId
      claimant
      respondent
      amountJson := jsonOptionalNumber codec members "amount"
      currency := jsonString codec members "currency"
      rules := jsonString codec members "rules"
      valuesJson := embedded codec members "values" "\x7b\x7d"
      metadataJson := metadataSurface codec impulse.metadata
      reactionsJson := embedded codec members "reactions" "[]" }
  | _ => .error "splot: case payload must be a JSON object"

end

/-! Takt. -/

namespace Takt

def domainPackId : String := "takt"
def cascadeRequest : String := "takt.cascade_request"

end Takt

structure TaktCascadeRequest where
  id : String
  mode : String := "evaluate"
  plantNodesJson : String := "[]"
  layersJson : String := "[]"
  rawSignalsJson : String := "[]"
  steps : Int64 := 0
  metadataJson : String := "\x7b\x7d"
  deriving DecidableEq

namespace TaktCascadeRequest

def isValid (r : TaktCascadeRequest) : Bool := r.id ≠ "" ∧ (r.mode = "evaluate" ∨ r.mode = "run") ∧ 0 ≤ r.steps.toInt

variable (codec : Codec)

def payloadJson (r : TaktCascadeRequest) : String :=
  written codec (objectText
    [(label "mode", quote codec r.mode), (label "plant_nodes", r.plantNodesJson), (label "layers", r.layersJson),
      (label "raw_signals", r.rawSignalsJson), (label "steps", toString r.steps.toInt)])

def metadataWithPack (r : TaktCascadeRequest) : Except String String :=
  DomainPacks.metadataWithPack codec Takt.domainPackId "takt cascade metadata must be a JSON object" r.metadataJson

end TaktCascadeRequest

section
variable (codec : Codec)

def impulseFromCascade (r : TaktCascadeRequest) (runId : String) (createdAt : String := "") : Except String Impulse := do
  ensure r.isValid "takt: cascade requires id and mode evaluate|run"
  ensure (runId ≠ "") "takt: run_id must not be empty"
  let metadata ← r.metadataWithPack codec
  return {
    id := r.id
    runId
    impulseType := Takt.cascadeRequest
    payload := r.payloadJson codec
    metadata
    createdAt
    updatedAt := createdAt }

/-- The steps of a payload; `Int` of a wide number wraps. -/
def stepsOf (members : List (String × Json)) : Int64 :=
  match lookup "steps" members with
  | some (.int n) => .ofInt n
  | some (.uint n) => .ofNat n
  | _ => 0

def cascadeFromImpulse (impulse : Impulse) : Except String TaktCascadeRequest := do
  ensure (impulse.impulseType = Takt.cascadeRequest)
    ("takt: impulse " ++ impulse.id ++ " is not " ++ Takt.cascadeRequest)
  let payload ← codec.read impulse.payload
  match payload with
  | .obj members =>
    return {
      id := impulse.id
      mode := jsonString codec members "mode" "evaluate"
      plantNodesJson := embedded codec members "plant_nodes" "[]"
      layersJson := embedded codec members "layers" "[]"
      rawSignalsJson := embedded codec members "raw_signals" "[]"
      steps := stepsOf members
      metadataJson := metadataSurface codec impulse.metadata }
  | _ => .error "takt: cascade payload must be a JSON object"

end

end Fala.DomainPacks
