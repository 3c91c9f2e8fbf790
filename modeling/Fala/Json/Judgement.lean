import Fala.Json.Checked

/-! The keywords that the loader knows and the local checks do not. -/

namespace Fala.Schema
open Json

def annotations : List String := ["$schema", "$id", "deprecated", "readOnly", "writeOnly"]

mutual

/-- A schema with an annotation that `check_payload` does not know, in itself or in a schema inside it. -/
def annotated : Json → Bool
  | .obj members => annotatedKeywords members
  | _ => false

def annotatedKeywords : List (String × Json) → Bool
  | [] => false
  | (key, child) :: rest =>
    annotations.contains key ||
    (if key = "properties" then
      match child with
      | .obj properties => annotatedProperties properties
      | _ => false
    else if key = "items" then annotated child
    else if key = "oneOf" ∨ key = "anyOf" ∨ key = "allOf" then
      match child with
      | .arr options => annotatedOptions options
      | _ => false
    else false) ||
    annotatedKeywords rest

def annotatedProperties : List (String × Json) → Bool
  | [] => false
  | (_, schema) :: rest => annotated schema || annotatedProperties rest

def annotatedOptions : List Json → Bool
  | [] => false
  | schema :: rest => annotated schema || annotatedOptions rest

end

def plainKeywords : List String :=
  ["type", "required", "additionalProperties", "enum", "const", "minimum", "maximum", "minLength", "maxLength",
    "minItems", "maxItems", "$schema", "$id", "$comment", "title", "description", "deprecated", "readOnly", "writeOnly"]

section
variable {code path key : String} {child : Json}

theorem checkPlainKeyword_known (passed : checkPlainKeyword code path key child = .ok ()) : key ∈ plainKeywords := by
  refine Decidable.byContradiction fun other => ?_
  simp only [plainKeywords, List.mem_cons, List.not_mem_nil, or_false, not_or] at other
  simp [checkPlainKeyword, other, refuse] at passed

theorem checkPlainKeyword_enum (passed : checkPlainKeyword code path "enum" child = .ok ()) : child.isArray = true := by
  cases child with
  | arr options => rfl
  | _ => simp [checkPlainKeyword, refuse] at passed

theorem supported_iff (known : key ∈ plainKeywords) :
    Conformance.supportedSchemaKeys.contains key = !annotations.contains key := by
  have each : ∀ key ∈ plainKeywords, Conformance.supportedSchemaKeys.contains key = !annotations.contains key := by
    decide
  exact each key known

end

open Conformance in
mutual

theorem declares_eq : ∀ (schema : Json) (code path : String), validateSchema code schema path = .ok () →
    declares schema = !annotated schema
  | .obj members, code, path, passed => declaresKeywords_eq members code path passed
  | .null, _, _, passed | .bool _, _, _, passed | .int _, _, _, passed | .uint _, _, _, passed
  | .float _, _, _, passed | .str _, _, _, passed | .arr _, _, _, passed => by cases passed

theorem declaresKeywords_eq : ∀ (members : List (String × Json)) (code path : String),
    validateKeywords code members path = .ok () → declaresKeywords members = !annotatedKeywords members
  | [], _, _, _ => rfl
  | (key, child) :: rest, code, path, passed => by
    rw [validateKeywords_cons, bind_ok] at passed
    obtain ⟨_, first, others⟩ := passed
    have later := declaresKeywords_eq rest code path others
    rw [declaresKeywords.eq_def, annotatedKeywords.eq_def]
    simp only [later, Bool.not_or]
    congr 1
    unfold checkKeyword at first
    by_cases properties : key = "properties"
    · subst properties
      rw [if_pos rfl] at first
      cases child with
      | obj held => exact declaresProperties_eq held code _ first
      | _ => cases first
    · rw [if_neg properties] at first
      by_cases items : key = "items"
      · subst items
        rw [if_pos rfl] at first
        have inner := declares_eq child code _ first
        cases child with
        | obj held => exact inner
        | _ => cases first
      · rw [if_neg items] at first
        by_cases combinator : key = "oneOf" ∨ key = "anyOf" ∨ key = "allOf"
        · rw [if_pos combinator] at first
          cases child with
          | arr options =>
            cases options with
            | nil => cases first
            | cons option branches =>
              simp only [bind_ok] at first
              obtain ⟨_, head, tail⟩ := first
              have heads := declares_eq option code _ head
              have tails := declaresBranches_eq branches code _ _ tail
              have known : supportedSchemaKeys.contains key = !annotations.contains key := by
                rcases combinator with rfl | rfl | rfl <;> decide
              simp only [if_neg properties, if_neg items, if_pos combinator, known, heads, tails, annotatedOptions,
                Bool.not_or]
          | _ => cases first
        · rw [if_neg combinator] at first
          have known := supported_iff (checkPlainKeyword_known first)
          simp only [if_neg properties, if_neg items, if_neg combinator, known, Bool.not_false, Bool.and_true]
          by_cases enum : key = "enum"
          · subst enum
            rw [if_pos rfl, checkPlainKeyword_enum first, Bool.and_true]
          · rw [if_neg enum, Bool.and_true]

theorem declaresProperties_eq : ∀ (properties : List (String × Json)) (code path : String),
    validateProperties code properties path = .ok () → declaresProperties properties = !annotatedProperties properties
  | [], _, _, _ => rfl
  | (name, schema) :: rest, code, path, passed => by
    simp only [validateProperties, bind_ok] at passed
    obtain ⟨_, first, others⟩ := passed
    have head := declares_eq schema code _ first
    have tail := declaresProperties_eq rest code path others
    rw [declaresProperties.eq_def, annotatedProperties, Bool.not_or]
    simp only [tail]
    congr 1
    cases schema with
    | obj held => exact head
    | _ => cases first

theorem declaresBranches_eq : ∀ (options : List Json) (code path : String) (index : Nat),
    validateBranches code options path index = .ok () → declaresBranches options = !annotatedOptions options
  | [], _, _, _, _ => rfl
  | schema :: rest, code, path, index, passed => by
    simp only [validateBranches, bind_ok] at passed
    obtain ⟨_, first, others⟩ := passed
    rw [declaresBranches, annotatedOptions, Bool.not_or, declares_eq schema code _ first,
      declaresBranches_eq rest code path _ others]

end

end Fala.Schema

/-! The local judgement of a payload and the journal's. -/

namespace Fala.Schema
open Json

section
variable {value schema : Json} {path path' : String}

/-- A value and a schema that both sides compare in the same way. -/
structure Alike (value schema : Json) : Prop where
  const : ∀ expected, schema.member "const" = some expected →
    (Conformance.equal value expected = true ↔ valuesEqual value expected = true)
  enum : ∀ options, schema.member "enum" = some (.arr options) →
    (options.any (Conformance.equal value) = true ↔ options.any (valuesEqual value) = true)
  integer : ∀ q names, value = .float q → kindMatches value "integer" = true → typeNames schema = some names →
    "integer" ∈ names → "number" ∈ names
  minimum : ∀ m, value.isNumber = true → schema.member "minimum" = some m →
    (value.exactNumber < m.exactNumber ↔ number value < number m)
  maximum : ∀ m, value.isNumber = true → schema.member "maximum" = some m →
    (m.exactNumber < value.exactNumber ↔ number m < number value)
  minLength : ∀ text m, value = .str text → schema.member "minLength" = some m →
    ((text.length : Rat) < m.exactNumber ↔ (text.length : Int) < truncate (number m))
  maxLength : ∀ text m, value = .str text → schema.member "maxLength" = some m →
    (m.exactNumber < (text.length : Rat) ↔ truncate (number m) < (text.length : Int))
  minItems : ∀ items m, value = .arr items → schema.member "minItems" = some m →
    ((items.length : Rat) < m.exactNumber ↔ float64OfInt items.length < number m)
  maxItems : ∀ items m, value = .arr items → schema.member "maxItems" = some m →
    (m.exactNumber < (items.length : Rat) ↔ number m < float64OfInt items.length)
  closed : ∀ members, value = .obj members → schema.member "additionalProperties" = some (.bool false) →
    members = [] ∨ ∃ properties, schema.member "properties" = some (.obj properties)

theorem kinds_eq {kind : String} (other : ∀ q, value = .float q → kind ≠ "integer") :
    Conformance.typeMatches value kind = kindMatches value kind := by
  by_cases known : knownKind kind = true
  · simp only [knownKind, List.contains_eq_mem, List.mem_cons, List.not_mem_nil, or_false, decide_eq_true_eq] at known
    rcases known with rfl | rfl | rfl | rfl | rfl | rfl | rfl
    all_goals
      cases value with
      | float q => first | rfl | exact absurd rfl (other q rfl)
      | _ => rfl
  · simp only [knownKind, List.contains_eq_mem, List.mem_cons, List.not_mem_nil, or_false, decide_eq_true_eq,
      not_or] at known
    obtain ⟨null, boolean, object, array, numeric, integer, string⟩ := known
    have none_ : kindMatches value kind = false := by
      unfold kindMatches
      split <;> simp_all
    have nothing : Conformance.typeMatches value kind = false := by
      unfold Conformance.typeMatches
      rw [if_neg numeric]
      cases value <;> simp [Conformance.payloadTypeName, Ne.symm null, Ne.symm boolean, Ne.symm object, Ne.symm array,
        Ne.symm numeric, Ne.symm integer, Ne.symm string]
    rw [none_, nothing]

theorem Alike.types (alike : Alike value schema) {names : List String} (named : typeNames schema = some names) :
    names.any (Conformance.typeMatches value) = true ↔ names.any (kindMatches value) = true := by
  by_cases float : ∃ q, value = .float q
  · obtain ⟨q, rfl⟩ := float
    have split_ (kind : String) : kindMatches (.float q) kind = true ↔
        Conformance.typeMatches (.float q) kind = true ∨ (kind = "integer" ∧ kindMatches (.float q) "integer" = true) := by
      by_cases integer : kind = "integer"
      · subst integer
        have no : ¬ Conformance.typeMatches (.float q) "integer" = true := by
          simp [Conformance.typeMatches, Conformance.payloadTypeName]
        simp [no]
      · rw [kinds_eq fun _ _ => integer]
        simp [integer]
    rw [List.any_eq_true, List.any_eq_true]
    constructor
    · exact fun ⟨kind, member, matched⟩ => ⟨kind, member, (split_ kind).mpr (.inl matched)⟩
    · rintro ⟨kind, member, matched⟩
      rcases (split_ kind).mp matched with matched | ⟨rfl, integral⟩
      · exact ⟨kind, member, matched⟩
      · exact ⟨"number", alike.integer q names rfl integral named member, rfl⟩
  · have same : names.any (Conformance.typeMatches value) = names.any (kindMatches value) := by
      refine congrArg names.any (funext fun kind => kinds_eq fun q is => absurd ⟨q, is⟩ float)
    rw [same]

theorem Alike.level (alike : Alike value schema) : conformance.Level value schema ↔ journal.Level value schema := by
  constructor
  · intro level
    exact {
      const := fun expected found => (alike.const expected found).mp (level.const expected found)
      enum := fun options found => (alike.enum options found).mp (level.enum options found)
      types := fun names found => (alike.types found).mp (level.types names found)
      minimum := fun m numeric found => mt (alike.minimum m numeric found).mpr (level.minimum m numeric found)
      maximum := fun m numeric found => mt (alike.maximum m numeric found).mpr (level.maximum m numeric found)
      minLength := fun text m is found => mt (alike.minLength text m is found).mpr (level.minLength text m is found)
      maxLength := fun text m is found => mt (alike.maxLength text m is found).mpr (level.maxLength text m is found)
      minItems := fun items m is found => mt (alike.minItems items m is found).mpr (level.minItems items m is found)
      maxItems := fun items m is found => mt (alike.maxItems items m is found).mpr (level.maxItems items m is found)
      required := level.required
      additional := by
        intro members is found _
        rcases alike.closed members is found with rfl | properties
        · exact fun _ member => (nomatch member)
        · exact level.additional members is found properties }
  · intro level
    exact {
      const := fun expected found => (alike.const expected found).mpr (level.const expected found)
      enum := fun options found => (alike.enum options found).mpr (level.enum options found)
      types := fun names found => (alike.types found).mpr (level.types names found)
      minimum := fun m numeric found => mt (alike.minimum m numeric found).mp (level.minimum m numeric found)
      maximum := fun m numeric found => mt (alike.maximum m numeric found).mp (level.maximum m numeric found)
      minLength := fun text m is found => mt (alike.minLength text m is found).mp (level.minLength text m is found)
      maxLength := fun text m is found => mt (alike.maxLength text m is found).mp (level.maxLength text m is found)
      minItems := fun items m is found => mt (alike.minItems items m is found).mp (level.minItems items m is found)
      maxItems := fun items m is found => mt (alike.maxItems items m is found).mp (level.maxItems items m is found)
      required := level.required
      additional := fun members is found _ => level.additional members is found trivial }

theorem Everywhere.imp {one two : Json → Json → Prop} {nesting : Nat}
    (implies : ∀ value schema, one value schema → two value schema) (all : Everywhere one nesting value schema) :
    Everywhere two nesting value schema := by
  induction nesting generalizing value schema with
  | zero => trivial
  | succ nesting ih =>
    obtain ⟨here, branches, items, properties⟩ := all
    exact ⟨implies _ _ here, fun keyword listed options found option member =>
      ih (branches keyword listed options found option member),
      fun held inner is found item member => ih (items held inner is found item member),
      fun members is p listed held found => ih (properties members is p listed held found)⟩

end

def maximumSchema (limit : Int) : Json := .obj [("type", .str "integer"), ("maximum", .int limit)]

end Fala.Schema
