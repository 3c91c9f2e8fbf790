import Mathlib.Data.List.Infix
import Fala.Correlation.Conditions
import Fala.Graph.Sweep

/-! The correlation paths of a package, as far as the graph tools read them. -/

namespace Fala.Package
open Json Schema Correlation

structure PackageEffector where
  id : String
  conduction : List String := []
  adapterKind : String := ""
  whenJson : Text := .empty
  outputSchemaJson : Text := .braces
  outputSchemaDeclared : Bool := false

/-- No effector twice, and every reference known. -/
structure Linked (effectors : List PackageEffector) : Prop where
  distinct : (effectors.map (·.id)).Nodup
  known : ∀ effector ∈ effectors, ∀ reference ∈ effector.conduction, reference ∈ effectors.map (·.id)

/-- A correlation path that the loader accepted. -/
structure PackageCorrelationPath where
  id : String
  effectors : List PackageEffector
  terminals : List PathTerminal
  linked : Linked effectors

structure PackageManifest where
  correlationPaths : List PackageCorrelationPath

end Fala.Package

namespace Fala.Package
open Json Schema Correlation Fala.Graph

/-! The finite discriminants of an output. -/

/-- The printer of the JSON library. -/
abbrev Printer := Json → String

structure OutputVariants where
  proven : Bool := false
  fieldPath : String := ""
  values : List String := []
  reason : String := "no required finite scalar discriminant"
  deriving DecidableEq

section Variants

variable (print : Printer)

/-- The values of a property that are written out in its schema, each text once. -/
def discriminant (property : Json) : List String :=
  match property.member "const" with
  | some candidate => if candidate.isScalar then [print candidate.canonical] else []
  | none =>
    match property.member "enum" with
    | some (.arr candidates) =>
      if candidates.all isScalar then
        candidates.foldl (fun values c => if print c.canonical ∈ values then values else values ++ [print c.canonical]) []
      else []
    | _ => []

/-- The first required field with a discriminant that a condition can address. -/
def firstDiscriminant (properties : List (String × Json)) : List Json → OutputVariants
  | .str key :: rest =>
    match lookup key properties with
    | some property =>
      if discriminant print property = [] ∨ '.' ∈ key.toList ∨ key = "" then firstDiscriminant properties rest
      else
        { proven := true
          fieldPath := key
          values := discriminant print property
          reason := "required finite scalar discriminant" }
    | none => firstDiscriminant properties rest
  | _ :: rest => firstDiscriminant properties rest
  | [] => {}

/-- `finite_output_variants` -/
def finiteOutputVariants (schema : Json) : Except String OutputVariants := do
  validateSchema "schema.invalid" schema "/output_schema"
  if schema.member "type" = some (.str "object") then
    match schema.member "required", schema.member "properties" with
    | some (.arr names), some (.obj properties) => return firstDiscriminant print properties names
    | _, _ => return {}
  else return {}

end Variants

/-! The coverage of the discriminants. -/

/-- `text.find(value) >= 0` -/
def occurs (value text : String) : Bool := decide (value.toList <:+: text.toList)

structure CoverageReport where
  diagnostics : List Json
  guaranteed : Bool
  unverified : List String

def effectorPointer (pathIndex effectorIndex : Nat) : String :=
  "/correlation_paths/" ++ toString pathIndex ++ "/effectors/" ++ toString effectorIndex

section Coverage

variable (print : Printer)

def written : Text → String
  | .printed value => print value
  | .other spelling _ => spelling

/-- Such a condition is absent or mentions the value. -/
def mentions (whenJson : Text) (value : String) : Bool :=
  decide (whenJson = .empty) || occurs value (written print whenJson)

/-- `_variant_covered` -/
def variantCovered (path : PackageCorrelationPath) (effector : PackageEffector) (value : String) : Bool :=
  (path.effectors.any fun candidate => candidate.conduction.contains effector.id && mentions print candidate.whenJson value) ||
    path.terminals.any fun terminal => terminal.sourceEffector = effector.id && mentions print terminal.whenJson value

def coverageMissing (message pointer : String) (effector : PackageEffector) (more : List (String × Json)) : Json :=
  .obj ([("code", .str "contract_coverage_missing"), ("message", .str message), ("path", .str pointer),
    ("effector", .str effector.id)] ++ more)

/-- `_coverage_diagnostic` -/
def coverageDiagnostic (pathIndex : Nat) (path : PackageCorrelationPath) (effectorIndex : Nat)
    (effector : PackageEffector) : Except String (Option Json) :=
  let pointer := effectorPointer pathIndex effectorIndex
  if effector.outputSchemaDeclared = false then
    .ok (some (coverageMissing "output contract is required" pointer effector []))
  else do
    let schema ← parsed effector.outputSchemaJson
    match schema with
    | .obj (_ :: _) =>
      let variants ← finiteOutputVariants print schema
      if variants.proven = false then return none
      else
        return (variants.values.find? fun value => !variantCovered print path effector value).map fun value =>
          coverageMissing "output variant is not covered" (pointer ++ "/output_schema") effector
            [("field", .str variants.fieldPath), ("variant", .str value)]
    | _ => return some (coverageMissing "a non-empty output_schema is required; \x7b\x7d is not a contract"
        (pointer ++ "/output_schema") effector [])

def needsVerification (effector : PackageEffector) : Except String Bool :=
  if effector.outputSchemaDeclared = false then .ok true
  else do
    let schema ← parsed effector.outputSchemaJson
    let variants ← finiteOutputVariants print schema
    return !variants.proven

structure CoverageEntry where
  effectorId : String
  unverified : Bool
  diagnostic : Option Json

def coverageEntry (pathIndex : Nat) (path : PackageCorrelationPath) (effectorIndex : Nat) (effector : PackageEffector) :
    Except String CoverageEntry := do
  let unverified ← needsVerification print effector
  let diagnostic ← coverageDiagnostic print pathIndex path effectorIndex effector
  return ⟨effector.id, unverified, diagnostic⟩

/-- `_coverage_report` -/
def coverageReport (manifest : PackageManifest) : Except String CoverageReport := do
  let entries ← manifest.correlationPaths.zipIdx.mapM fun at_ =>
    at_.1.effectors.zipIdx.mapM fun e => coverageEntry print at_.2 at_.1 e.2 e.1
  let entries := entries.flatten
  return { diagnostics := entries.filterMap (·.diagnostic)
           guaranteed := entries.all fun entry => !entry.unverified
           unverified := (entries.filter (·.unverified)).map (·.effectorId) }

end Coverage

/-! The search for a cycle. -/

/-- `_find_effector` -/
def findEffector (effectors : List PackageEffector) (id : String) : Option PackageEffector :=
  effectors.find? fun effector => effector.id = id

def dependenciesOf (effectors : List PackageEffector) (id : String) : List String :=
  ((findEffector effectors id).map (·.conduction)).getD []

section Search

variable (effectors : List PackageEffector) (start : String)

theorem findEffector_listed {effectors : List PackageEffector} {id : String} {effector : PackageEffector}
    (found : findEffector effectors id = some effector) : effector ∈ effectors ∧ effector.id = id := by
  have named := List.find?_some found
  exact ⟨List.mem_of_find?_eq_some found, of_decide_eq_true named⟩

/-- The loop from one effector back to it. The worklist is a stack, its top first. -/
def returns (pending seen : List String) : Bool :=
  match pending with
  | [] => false
  | id :: rest =>
    if id = start then true
    else if id ∈ seen then returns rest seen
    else
      match _found : findEffector effectors id with
      | none => returns rest (id :: seen)
      | some dependency => returns (dependency.conduction.reverse ++ rest) (id :: seen)
termination_by pending.length + outstanding (dependenciesOf effectors) seen (effectors.map (·.id))
decreasing_by
  · simp
  · have kept := outstanding_seen (dependenciesOf effectors) id seen (effectors.map (·.id))
    simp only [List.length_cons]
    omega
  · rename_i new
    have ⟨listed, named⟩ := findEffector_listed _found
    have entered : id ∈ effectors.map (·.id) := List.mem_map.mpr ⟨dependency, listed, named⟩
    have expanded := outstanding_expanded (dependenciesOf effectors) entered new
    simp only [dependenciesOf, _found, Option.map_some, Option.getD_some] at expanded
    simp only [List.length_append, List.length_reverse, List.length_cons]
    omega

end Search

/-! The validation of a graph. -/

inductive Finding where
  | cycle (effectorIndex : Nat)
  | openWait (effectorIndex : Nat)
  deriving DecidableEq

namespace PackageCorrelationPath

/-- The first effector that a search from it leads back to. -/
def cycleAt (path : PackageCorrelationPath) : Option Nat :=
  path.effectors.findIdx? fun effector => returns path.effectors effector.id effector.conduction.reverse []

def isClosed (path : PackageCorrelationPath) (effector : PackageEffector) : Bool :=
  path.effectors.any (fun candidate => candidate.conduction.contains effector.id) ||
    path.terminals.any fun terminal => terminal.sourceEffector = effector.id

/-- The first manual wait without a closure. -/
def openWaitAt (path : PackageCorrelationPath) : Option Nat :=
  path.effectors.findIdx? fun effector => effector.adapterKind = "manual_homeostat" && !path.isClosed effector

def finding (path : PackageCorrelationPath) : Option Finding :=
  (path.cycleAt.map Finding.cycle).or (path.openWaitAt.map Finding.openWait)

end PackageCorrelationPath

inductive GraphReport where
  | finding (pathIndex : Nat) (found : Finding)
  | covered (guaranteed : Bool) (unverified : List String)
  | uncovered (report : CoverageReport)
  | failed (message : String)

def firstFinding : Nat → List PackageCorrelationPath → Option (Nat × Finding)
  | _, [] => none
  | index, path :: rest => (path.finding.map fun found => (index, found)).or (firstFinding (index + 1) rest)

/-- `graph_validate` of what was loaded. -/
def graphValidate (print : Printer) : Except String PackageManifest → GraphReport
  | .error message => .failed message
  | .ok manifest =>
    match firstFinding 0 manifest.correlationPaths with
    | some (pathIndex, found) => .finding pathIndex found
    | none =>
      match coverageReport print manifest with
      | .error message => .failed message
      | .ok report =>
        if report.diagnostics = [] then .covered report.guaranteed report.unverified else .uncovered report

end Fala.Package
