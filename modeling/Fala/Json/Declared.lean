import Fala.Json.Conformance

/-! What both evaluators of a schema ask of a value, apart from how each of them compares. -/

namespace Fala.Schema
open Json

/-- How an evaluator compares a value with what a keyword says. -/
structure Judge where
  equal : Json → Json → Bool
  kind : Json → String → Bool
  less : Json → Json → Prop
  shorter : Nat → Json → Prop
  longer : Nat → Json → Prop
  fewer : Nat → Json → Prop
  more : Nat → Json → Prop
  closes : Json → Prop

def journal : Judge where
  equal := valuesEqual
  kind := kindMatches
  less a b := number a < number b
  shorter length m := (length : Int) < truncate (number m)
  longer length m := truncate (number m) < (length : Int)
  fewer count m := float64OfInt count < number m
  more count m := number m < float64OfInt count
  closes _ := True

def conformance : Judge where
  equal := Conformance.equal
  kind := Conformance.typeMatches
  less a b := a.exactNumber < b.exactNumber
  shorter length m := (length : Rat) < m.exactNumber
  longer length m := m.exactNumber < (length : Rat)
  fewer count m := (count : Rat) < m.exactNumber
  more count m := m.exactNumber < (count : Rat)
  closes schema := ∃ properties, schema.member "properties" = some (.obj properties)

def textOf : Json → Option String
  | .str text => some text
  | _ => none

/-- The types that a schema names, when it names any. -/
def typeNames (schema : Json) : Option (List String) :=
  match schema.member "type" with
  | none => none
  | some (.arr kinds) => some (kinds.filterMap textOf)
  | some value => some (textOf value).toList

/-- The checks on a value that look at no other schema. -/
structure Judge.Level (j : Judge) (value schema : Json) : Prop where
  const : ∀ expected, schema.member "const" = some expected → j.equal value expected = true
  enum : ∀ options, schema.member "enum" = some (.arr options) → options.any (j.equal value) = true
  types : ∀ names, typeNames schema = some names → names.any (j.kind value) = true
  minimum : ∀ m, value.isNumber = true → schema.member "minimum" = some m → ¬ j.less value m
  maximum : ∀ m, value.isNumber = true → schema.member "maximum" = some m → ¬ j.less m value
  minLength : ∀ text m, value = .str text → schema.member "minLength" = some m → ¬ j.shorter text.length m
  maxLength : ∀ text m, value = .str text → schema.member "maxLength" = some m → ¬ j.longer text.length m
  minItems : ∀ items m, value = .arr items → schema.member "minItems" = some m → ¬ j.fewer items.length m
  maxItems : ∀ items m, value = .arr items → schema.member "maxItems" = some m → ¬ j.more items.length m
  required : ∀ members names, value = .obj members → schema.member "required" = some (.arr names) →
    ∀ key, .str key ∈ names → (lookup key members).isSome = true
  additional : ∀ members, value = .obj members → schema.member "additionalProperties" = some (.bool false) →
    j.closes schema → ∀ m ∈ members, (lookup m.1 (propertiesOf schema)).isSome = true

def combinators : List String := ["oneOf", "anyOf", "allOf"]

/-- What a schema says through the schemas in it. -/
structure Nested (accepts : Json → Json → Prop) (accepted : List Json → Json → Nat) (value schema : Json) : Prop where
  branches : ∀ keyword ∈ combinators, ∀ options, schema.member keyword = some (.arr options) →
    combinatorHolds keyword (accepted options value) options.length = true
  items : ∀ items inner, value = .arr items → schema.member "items" = some inner → ∀ item ∈ items, accepts item inner
  properties : ∀ members, value = .obj members → ∀ p ∈ propertiesOf schema, ∀ held, lookup p.1 members = some held →
    accepts held p.2

open Classical in
/-- How many of the options accept a value. -/
noncomputable def acceptedBy (accepts : Json → Json → Prop) (options : List Json) (value : Json) : Nat :=
  options.countP fun option => decide (accepts value option)

/-- The whole judgement. -/
def Judge.Accepts (j : Judge) : Nat → Json → Json → Prop
  | 0, _, _ => False
  | nesting + 1, value, schema =>
    j.Level value schema ∧ Nested (j.Accepts nesting) (acceptedBy (j.Accepts nesting)) value schema

/-- Everywhere that a judgement may look. -/
def Everywhere (holds : Json → Json → Prop) : Nat → Json → Json → Prop
  | 0, _, _ => True
  | nesting + 1, value, schema =>
    holds value schema ∧
    (∀ keyword ∈ combinators, ∀ options, schema.member keyword = some (.arr options) →
      ∀ option ∈ options, Everywhere holds nesting value option) ∧
    (∀ items inner, value = .arr items → schema.member "items" = some inner →
      ∀ item ∈ items, Everywhere holds nesting item inner) ∧
    ∀ members, value = .obj members → ∀ p ∈ propertiesOf schema, ∀ held, lookup p.1 members = some held →
      Everywhere holds nesting held p.2

open Classical in
theorem acceptedBy_congr {one two : Json → Json → Prop} {options : List Json} {value : Json}
    (same : ∀ option ∈ options, one value option ↔ two value option) :
    acceptedBy one options value = acceptedBy two options value := by
  refine List.countP_congr fun option member => ?_
  rw [decide_eq_true_eq, decide_eq_true_eq]
  exact same option member

theorem Judge.accepts_congr {one two : Judge} {nesting : Nat} {value schema : Json}
    (same : Everywhere (fun value schema => one.Level value schema ↔ two.Level value schema) nesting value schema) :
    one.Accepts nesting value schema ↔ two.Accepts nesting value schema := by
  induction nesting generalizing value schema with
  | zero => exact Iff.rfl
  | succ nesting ih =>
    obtain ⟨level, branches, items, properties⟩ := same
    have counts (keyword : String) (listed : keyword ∈ combinators) (options : List Json)
        (found : schema.member keyword = some (.arr options)) :
        acceptedBy (one.Accepts nesting) options value = acceptedBy (two.Accepts nesting) options value :=
      acceptedBy_congr fun option member => ih (branches keyword listed options found option member)
    refine and_congr level ⟨fun nested => ?_, fun nested => ?_⟩
    · exact {
        branches := fun keyword listed options found =>
          counts keyword listed options found ▸ nested.branches keyword listed options found
        items := fun held inner is found item member =>
          (ih (items held inner is found item member)).mp (nested.items held inner is found item member)
        properties := fun members is p listed held found =>
          (ih (properties members is p listed held found)).mp (nested.properties members is p listed held found) }
    · exact {
        branches := fun keyword listed options found =>
          (counts keyword listed options found).symm ▸ nested.branches keyword listed options found
        items := fun held inner is found item member =>
          (ih (items held inner is found item member)).mpr (nested.items held inner is found item member)
        properties := fun members is p listed held found =>
          (ih (properties members is p listed held found)).mpr (nested.properties members is p listed held found) }

theorem depth_item {item : Json} {items : List Json} (member : item ∈ items) : item.depth < (Json.arr items).depth := by
  have within : item.depth ≤ itemsDepth items := by
    induction items with
    | nil => cases member
    | cons head rest ih =>
      rw [itemsDepth]
      rcases List.mem_cons.mp member with rfl | member
      · exact Nat.le_max_left _ _
      · exact Nat.le_trans (ih member) (Nat.le_max_right _ _)
  exact Nat.lt_succ_of_le within

theorem depth_member {m : String × Json} {members : List (String × Json)} (member : m ∈ members) :
    m.2.depth < (Json.obj members).depth := by
  have within : m.2.depth ≤ membersDepth members := by
    induction members with
    | nil => cases member
    | cons head rest ih =>
      rw [membersDepth]
      rcases List.mem_cons.mp member with rfl | member
      · exact Nat.le_max_left _ _
      · exact Nat.le_trans (ih member) (Nat.le_max_right _ _)
  exact Nat.lt_succ_of_le within

theorem depth_found {key : String} {schema child : Json} (found : schema.member key = some child) :
    child.depth < schema.depth := by
  cases schema with
  | obj members => exact depth_member (m := (key, child)) (lookup_mem found)
  | _ => cases found

end Fala.Schema

/-! What the loader has made sure of in a schema that it accepted. -/

namespace Fala.Schema
open Json

def Declared (schema : Json) : Prop := ∃ code path, validateSchema code schema path = .ok ()

/-- A keyword that the loader accepted. -/
def KeywordOk (key : String) (child : Json) : Prop :=
  if key = "properties" then ∃ properties, child = .obj properties ∧ ∀ p ∈ properties, Declared p.2
  else if key = "items" then Declared child
  else if key = "oneOf" ∨ key = "anyOf" ∨ key = "allOf" then
    ∃ first rest, child = .arr (first :: rest) ∧ ∀ option ∈ first :: rest, Declared option
  else ∃ code path, checkPlainKeyword code path key child = .ok ()

section
variable {code path key : String} {child schema : Json} {members : List (String × Json)}

theorem validateProperties_ok {properties : List (String × Json)}
    (passed : validateProperties code properties path = .ok ()) : ∀ p ∈ properties, Declared p.2 := by
  induction properties with
  | nil => exact fun _ member => (nomatch member)
  | cons head rest ih =>
    obtain ⟨name, inner⟩ := head
    simp only [validateProperties, bind_ok] at passed
    obtain ⟨_, first, others⟩ := passed
    rw [List.forall_mem_cons]
    exact ⟨⟨code, _, first⟩, ih others⟩

theorem validateBranches_ok {options : List Json} {index : Nat}
    (passed : validateBranches code options path index = .ok ()) : ∀ option ∈ options, Declared option := by
  induction options generalizing index with
  | nil => exact fun _ member => (nomatch member)
  | cons head rest ih =>
    simp only [validateBranches, bind_ok] at passed
    obtain ⟨_, first, others⟩ := passed
    rw [List.forall_mem_cons]
    exact ⟨⟨code, _, first⟩, ih others⟩

/-- The check of one keyword. -/
def checkKeyword (code key : String) (child : Json) (path : String) : Except String Unit :=
  if key = "properties" then
    match child with
    | .obj properties => validateProperties code properties (pointer path key)
    | _ => refuse code (pointer path key) "expected object"
  else if key = "items" then validateSchema code child (pointer path key)
  else if key = "oneOf" ∨ key = "anyOf" ∨ key = "allOf" then
    match child with
    | .arr (first :: branches) => do
      validateSchema code first (pointer path key ++ "/0")
      validateBranches code branches (pointer path key) 1
    | _ => refuse code (pointer path key) "expected nonempty schema array"
  else checkPlainKeyword code (pointer path key) key child

theorem validateKeywords_cons {rest : List (String × Json)} :
    validateKeywords code ((key, child) :: rest) path =
      (do checkKeyword code key child path; validateKeywords code rest path) := by
  rw [validateKeywords.eq_def]
  unfold checkKeyword
  by_cases properties : key = "properties"
  · simp only [if_pos properties]
    cases child <;> rfl
  · by_cases items : key = "items"
    · simp only [if_neg properties, if_pos items]
    · by_cases combinator : key = "oneOf" ∨ key = "anyOf" ∨ key = "allOf"
      · simp only [if_neg properties, if_neg items, if_pos combinator]
        cases child with
        | arr options => cases options with
          | nil => rfl
          | cons first branches => exact (bind_assoc _ _ _).symm
        | _ => rfl
      · simp only [if_neg properties, if_neg items, if_neg combinator]

theorem checkKeyword_ok (passed : checkKeyword code key child path = .ok ()) : KeywordOk key child := by
  unfold checkKeyword at passed
  unfold KeywordOk
  by_cases properties : key = "properties"
  · rw [if_pos properties] at passed ⊢
    cases child with
    | obj held => exact ⟨held, rfl, validateProperties_ok passed⟩
    | _ => cases passed
  · rw [if_neg properties] at passed ⊢
    by_cases items : key = "items"
    · rw [if_pos items] at passed ⊢
      exact ⟨code, _, passed⟩
    · rw [if_neg items] at passed ⊢
      by_cases combinator : key = "oneOf" ∨ key = "anyOf" ∨ key = "allOf"
      · rw [if_pos combinator] at passed ⊢
        cases child with
        | arr options =>
          cases options with
          | nil => cases passed
          | cons first branches =>
            simp only [bind_ok] at passed
            obtain ⟨_, head, tail⟩ := passed
            exact ⟨first, branches, rfl, List.forall_mem_cons.mpr ⟨⟨code, _, head⟩, validateBranches_ok tail⟩⟩
        | _ => cases passed
      · rw [if_neg combinator] at passed ⊢
        exact ⟨code, _, passed⟩

theorem validateKeywords_ok (passed : validateKeywords code members path = .ok ()) :
    ∀ m ∈ members, KeywordOk m.1 m.2 := by
  induction members with
  | nil => exact fun _ member => (nomatch member)
  | cons head rest ih =>
    obtain ⟨name, child⟩ := head
    rw [validateKeywords_cons, bind_ok] at passed
    obtain ⟨_, first, others⟩ := passed
    rw [List.forall_mem_cons]
    exact ⟨checkKeyword_ok first, ih others⟩

theorem Declared.fields (declared : Declared schema) :
    ∃ members, schema = .obj members ∧ ∀ m ∈ members, KeywordOk m.1 m.2 := by
  obtain ⟨code, path, passed⟩ := declared
  cases schema with
  | obj members => exact ⟨members, rfl, validateKeywords_ok passed⟩
  | _ => cases passed

theorem Declared.keyword (declared : Declared schema) (found : schema.member key = some child) :
    KeywordOk key child := by
  obtain ⟨members, rfl, each⟩ := declared.fields
  exact each _ (lookup_mem found)

theorem Declared.isObject (declared : Declared schema) : schema.isObject = true := by
  obtain ⟨members, rfl, -⟩ := declared.fields
  rfl

theorem Declared.properties (declared : Declared schema) : ∀ p ∈ propertiesOf schema, Declared p.2 := by
  unfold propertiesOf
  cases found : schema.member "properties" with
  | none => exact fun _ member => (nomatch member)
  | some child =>
    have ok := declared.keyword found
    rw [KeywordOk, if_pos rfl] at ok
    obtain ⟨properties, rfl, each⟩ := ok
    exact each

theorem Declared.item (declared : Declared schema) (found : schema.member "items" = some child) : Declared child := by
  have ok := declared.keyword found
  rwa [KeywordOk, if_neg (by decide), if_pos rfl] at ok

theorem Declared.options (declared : Declared schema) (listed : key ∈ combinators)
    (found : schema.member key = some child) :
    ∃ first rest, child = .arr (first :: rest) ∧ ∀ option ∈ first :: rest, Declared option := by
  have ok := declared.keyword found
  simp only [combinators, List.mem_cons, List.not_mem_nil, or_false] at listed
  have others : key ≠ "properties" ∧ key ≠ "items" := by
    rcases listed with rfl | rfl | rfl <;> decide
  rwa [KeywordOk, if_neg others.1, if_neg others.2, if_pos listed] at ok

theorem Declared.plain (declared : Declared schema) (found : schema.member key = some child)
    (other : key ∉ "properties" :: "items" :: combinators) : ∃ code path, checkPlainKeyword code path key child = .ok () := by
  have ok := declared.keyword found
  simp only [combinators, List.mem_cons, List.not_mem_nil, or_false, not_or] at other
  rwa [KeywordOk, if_neg other.1, if_neg other.2.1,
    if_neg (fun is => is.elim other.2.2.1 (·.elim other.2.2.2.1 other.2.2.2.2))] at ok

theorem Declared.limit (declared : Declared schema) (found : schema.member key = some child)
    (listed : key ∈ ["minLength", "maxLength", "minItems", "maxItems"]) : child.isInteger = true := by
  obtain ⟨code, path, passed⟩ := declared.plain found (by
    simp only [List.mem_cons, List.not_mem_nil, or_false] at listed
    rcases listed with rfl | rfl | rfl | rfl <;> decide)
  simp only [List.mem_cons, List.not_mem_nil, or_false] at listed
  rcases listed with rfl | rfl | rfl | rfl <;>
    cases child <;> first | rfl | (simp [checkPlainKeyword, refuse] at passed)

theorem Declared.bound (declared : Declared schema) (found : schema.member key = some child)
    (listed : key = "minimum" ∨ key = "maximum") : child.isNumber = true := by
  obtain ⟨code, path, passed⟩ := declared.plain found (by rcases listed with rfl | rfl <;> decide)
  rcases listed with rfl | rfl <;> cases child <;> first | rfl | (simp [checkPlainKeyword, refuse, isNumber] at passed)

theorem checkTypeNames_ok {seen : List String} {kinds : List Json}
    (passed : checkTypeNames code path seen kinds = .ok ()) : ∀ kind ∈ kinds, ∃ text, kind = .str text := by
  induction kinds generalizing seen with
  | nil => exact fun _ member => (nomatch member)
  | cons head rest ih =>
    rw [List.forall_mem_cons]
    cases head with
    | str kind =>
      rw [checkTypeNames] at passed
      split at passed
      · cases passed
      · exact ⟨⟨kind, rfl⟩, ih passed⟩
    | _ => cases passed

theorem checkFieldNames_ok {seen : List String} {names : List Json}
    (passed : checkFieldNames code path seen names = .ok ()) : ∀ name ∈ names, ∃ text, name = .str text := by
  induction names generalizing seen with
  | nil => exact fun _ member => (nomatch member)
  | cons head rest ih =>
    rw [List.forall_mem_cons]
    cases head with
    | str name =>
      rw [checkFieldNames] at passed
      split at passed
      · cases passed
      · exact ⟨⟨name, rfl⟩, ih passed⟩
    | _ => cases passed

theorem Declared.type (declared : Declared schema) (found : schema.member "type" = some child) :
    (∃ kind, child = .str kind) ∨ ∃ kinds, child = .arr kinds ∧ ∀ kind ∈ kinds, ∃ text, kind = .str text := by
  obtain ⟨code, path, passed⟩ := declared.plain found (by decide)
  unfold checkPlainKeyword at passed
  rw [if_pos rfl] at passed
  cases child with
  | str kind => exact .inl ⟨kind, rfl⟩
  | arr kinds =>
    cases kinds with
    | nil => cases passed
    | cons first rest => exact .inr ⟨_, rfl, checkTypeNames_ok passed⟩
  | _ => cases passed

theorem Declared.required (declared : Declared schema) (found : schema.member "required" = some child) :
    ∃ names, child = .arr names ∧ ∀ name ∈ names, ∃ text, name = .str text := by
  obtain ⟨code, path, passed⟩ := declared.plain found (by decide)
  unfold checkPlainKeyword at passed
  rw [if_neg (by decide), if_pos rfl] at passed
  cases child with
  | arr names => exact ⟨names, rfl, checkFieldNames_ok passed⟩
  | _ => cases passed

theorem Declared.enum (declared : Declared schema) (found : schema.member "enum" = some child) :
    ∃ options, child = .arr options := by
  obtain ⟨code, path, passed⟩ := declared.plain found (by decide)
  cases child with
  | arr options => exact ⟨options, rfl⟩
  | _ => simp [checkPlainKeyword, refuse] at passed

end

section
variable {code code' pointer pointer' key path : String} {child schema : Json}

theorem checkTypeNames_anywhere {kinds : List Json} {seen : List String}
    (passed : checkTypeNames code pointer seen kinds = .ok ()) : checkTypeNames code' pointer' seen kinds = .ok () := by
  induction kinds generalizing seen with
  | nil => rfl
  | cons head rest ih =>
    cases head with
    | str kind =>
      rw [checkTypeNames] at passed ⊢
      by_cases refused : ¬ knownKind kind = true ∨ seen.contains kind = true
      · rw [if_pos refused] at passed
        cases passed
      · rw [if_neg refused] at passed ⊢
        exact ih passed
    | _ => cases passed

theorem checkFieldNames_anywhere {names : List Json} {seen : List String}
    (passed : checkFieldNames code pointer seen names = .ok ()) :
    checkFieldNames code' pointer' seen names = .ok () := by
  induction names generalizing seen with
  | nil => rfl
  | cons head rest ih =>
    cases head with
    | str name =>
      rw [checkFieldNames] at passed ⊢
      by_cases refused : seen.contains name = true
      · rw [if_pos refused] at passed
        cases passed
      · rw [if_neg refused] at passed ⊢
        exact ih passed
    | _ => cases passed

theorem checkPlainKeyword_anywhere (passed : checkPlainKeyword code pointer key child = .ok ()) :
    checkPlainKeyword code' pointer' key child = .ok () := by
  unfold checkPlainKeyword at passed ⊢
  by_cases type : key = "type"
  · rw [if_pos type] at passed ⊢
    cases child with
    | str kind =>
      by_cases known : knownKind kind = true
      · simp only [known, if_true] at passed ⊢
        rfl
      · simp only [known] at passed
        cases passed
    | arr kinds =>
      cases kinds with
      | nil => cases passed
      | cons head rest => exact checkTypeNames_anywhere passed
    | _ => cases passed
  rw [if_neg type] at passed ⊢
  by_cases required : key = "required"
  · rw [if_pos required] at passed ⊢
    cases child with
    | arr names => exact checkFieldNames_anywhere passed
    | _ => cases passed
  rw [if_neg required] at passed ⊢
  by_cases additional : key = "additionalProperties"
  · rw [if_pos additional] at passed ⊢
    cases child <;> first | rfl | cases passed
  rw [if_neg additional] at passed ⊢
  by_cases enum : key = "enum"
  · rw [if_pos enum] at passed ⊢
    cases child with
    | arr options => cases options <;> first | rfl | cases passed
    | _ => cases passed
  rw [if_neg enum] at passed ⊢
  by_cases const : key = "const"
  · rw [if_pos const]
    rfl
  rw [if_neg const] at passed ⊢
  by_cases bound : key = "minimum" ∨ key = "maximum"
  · rw [if_pos bound] at passed ⊢
    by_cases number : child.isNumber = true
    · rw [if_pos number]
      rfl
    · rw [if_neg number] at passed
      cases passed
  rw [if_neg bound] at passed ⊢
  by_cases length : ["minLength", "maxLength", "minItems", "maxItems"].contains key = true
  · rw [if_pos length] at passed ⊢
    cases child with
    | int n =>
      by_cases negative : n < 0
      · simp only [negative, if_true] at passed
        cases passed
      · simp only [negative, if_false]
        rfl
    | uint n => rfl
    | _ => cases passed
  rw [if_neg length] at passed ⊢
  by_cases text : ["$schema", "$id", "$comment", "title", "description"].contains key = true
  · rw [if_pos text] at passed ⊢
    cases child <;> first | rfl | cases passed
  rw [if_neg text] at passed ⊢
  by_cases flag : ["deprecated", "readOnly", "writeOnly"].contains key = true
  · rw [if_pos flag] at passed ⊢
    cases child <;> first | rfl | cases passed
  rw [if_neg flag] at passed
  cases passed

theorem validateProperties_of {properties : List (String × Json)}
    (each : ∀ p ∈ properties, ∀ path, validateSchema code p.2 path = .ok ()) (path : String) :
    validateProperties code properties path = .ok () := by
  induction properties with
  | nil => rfl
  | cons head rest ih =>
    obtain ⟨here, others⟩ := List.forall_mem_cons.mp each
    rw [validateProperties, here]
    exact ih others

theorem validateBranches_of {options : List Json} (each : ∀ option ∈ options, ∀ path, validateSchema code option path = .ok ())
    (path : String) (index : Nat) : validateBranches code options path index = .ok () := by
  induction options generalizing index with
  | nil => rfl
  | cons head rest ih =>
    obtain ⟨here, others⟩ := List.forall_mem_cons.mp each
    rw [validateBranches, here]
    exact ih others _

theorem checkKeyword_of (ok : KeywordOk key child)
    (inner : ∀ schema : Json, schema.depth ≤ child.depth → Declared schema → ∀ path, validateSchema code schema path = .ok ())
    (path : String) : checkKeyword code key child path = .ok () := by
  unfold KeywordOk at ok
  unfold checkKeyword
  by_cases properties : key = "properties"
  · rw [if_pos properties] at ok ⊢
    obtain ⟨held, rfl, each⟩ := ok
    exact validateProperties_of (fun p listed => inner p.2 (Nat.le_of_lt (depth_member listed)) (each p listed)) _
  rw [if_neg properties] at ok ⊢
  by_cases items : key = "items"
  · rw [if_pos items] at ok ⊢
    exact inner child (Nat.le_refl _) ok _
  rw [if_neg items] at ok ⊢
  by_cases combinator : key = "oneOf" ∨ key = "anyOf" ∨ key = "allOf"
  · rw [if_pos combinator] at ok ⊢
    obtain ⟨first, rest, rfl, each⟩ := ok
    have valid : ∀ option ∈ first :: rest, ∀ path, validateSchema code option path = .ok () := fun option listed =>
      inner option (Nat.le_of_lt (depth_item listed)) (each option listed)
    obtain ⟨here, others⟩ := List.forall_mem_cons.mp valid
    simp only [here]
    exact validateBranches_of others _ _
  · rw [if_neg combinator] at ok ⊢
    obtain ⟨code', place, passed⟩ := ok
    exact checkPlainKeyword_anywhere passed

theorem Declared.validates (declared : Declared schema) (code path : String) : validateSchema code schema path = .ok () := by
  have bounded : ∀ (bound : Nat) (schema : Json), schema.depth ≤ bound → Declared schema → ∀ path,
      validateSchema code schema path = .ok () := by
    intro bound
    induction bound with
    | zero =>
      intro schema shallow
      cases schema <;> simp [Json.depth] at shallow
    | succ bound ih =>
      intro schema shallow declared path
      obtain ⟨members, rfl, each⟩ := declared.fields
      have passed : ∀ rest, (∀ m ∈ rest, m ∈ members) → validateKeywords code rest path = .ok () := by
        intro rest
        induction rest with
        | nil => exact fun _ => rfl
        | cons head rest again =>
          intro among
          obtain ⟨key, child⟩ := head
          obtain ⟨here, others⟩ := List.forall_mem_cons.mp among
          have below := depth_member here
          have keyword : checkKeyword code key child path = .ok () :=
            checkKeyword_of (each _ here) (fun inner within known => ih inner (by omega) known) path
          rw [validateKeywords_cons, keyword]
          exact again others
      exact passed members fun _ listed => listed
  exact bounded schema.depth schema (Nat.le_refl _) declared path

end

end Fala.Schema
