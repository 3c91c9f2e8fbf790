import Fala.Json.Equality
import Fala.Json.Judgement

/-! The evaluator of the journal and the meaning of a schema over exact numbers. -/

namespace Fala.Schema
open Json

/-- The types of JSON Schema: every integral number is an integer. -/
def standardKind (value : Json) (kind : String) : Bool :=
  match kind, value with
  | "object", .obj _ | "array", .arr _ | "string", .str _ | "boolean", .bool _
  | "null", .null => true
  | "number", value => value.isNumber
  | "integer", value => value.isNumber && decide (value.exactNumber.den = 1)
  | _, _ => false

/-- The meaning of the keywords in JSON Schema. -/
def standard : Judge where
  equal left right := decide (left.meaning = right.meaning)
  kind := standardKind
  less a b := a.exactNumber < b.exactNumber
  shorter length m := (length : Rat) < m.exactNumber
  longer length m := m.exactNumber < (length : Rat)
  fewer count m := (count : Rat) < m.exactNumber
  more count m := m.exactNumber < (count : Rat)
  closes _ := True

/-- No comparison of a value with its schema comes out differently for its numbers being rounded to a double, and no
integral double beyond 64 bits is asked to be an integer. -/
structure Unrounded (value schema : Json) : Prop where
  integer : ∀ q names, value = .float q → q.den = 1 → typeNames schema = some names → "integer" ∈ names →
    "number" ∉ names → -9223372036854775808 ≤ q ∧ q < 9223372036854775808
  minimum : ∀ m, value.isNumber = true → schema.member "minimum" = some m →
    (value.exactNumber < m.exactNumber ↔ number value < number m)
  maximum : ∀ m, value.isNumber = true → schema.member "maximum" = some m →
    (m.exactNumber < value.exactNumber ↔ number m < number value)
  minLength : ∀ text m, value = .str text → schema.member "minLength" = some m →
    ((text.length : Rat) < m.exactNumber ↔ (text.length : Int) < truncate (number m))
  maxLength : ∀ text m, value = .str text → schema.member "maxLength" = some m →
    (m.exactNumber < (text.length : Rat) ↔ truncate (number m) < (text.length : Int))
  minItems : ∀ items m, value = .arr items → schema.member "minItems" = some m →
    ((items.length : Rat) < m.exactNumber ↔ float64OfInt items.length < number m)
  maxItems : ∀ items m, value = .arr items → schema.member "maxItems" = some m →
    (m.exactNumber < (items.length : Rat) ↔ number m < float64OfInt items.length)

section
variable {value schema : Json}

/-! Small integers are not rounded. -/

theorem float64OfInt_exact {n : Int} (small : n.natAbs < 2 ^ 53) : float64OfInt n = n := by
  have bits : n.natAbs.log2 - 52 = 0 := by
    have short := (Nat.log2_lt (n := n.natAbs) (k := 53))
    by_cases zero : n.natAbs = 0
    · rw [zero]
      rfl
    · have := (short zero).mpr small
      omega
  unfold float64OfInt
  simp only [bits, Nat.pow_zero, Nat.div_one, Nat.mod_one]
  have up : ¬ (1 < 2 * 0 ∨ (1 = 2 * 0 ∧ n.natAbs % 2 = 1)) := by omega
  rw [if_neg up, Nat.mul_one]
  by_cases negative : n < 0
  · rw [if_pos negative, ← Rat.intCast_natCast, Int.ofNat_natAbs_of_nonpos (by omega), Rat.intCast_neg, Rat.neg_neg]
  · rw [if_neg negative, ← Rat.intCast_natCast, Int.natAbs_of_nonneg (by omega)]

/-! One level of a schema. -/

theorem standardKind_eq {kind : String} (other : ∀ q, value = .float q → kind ≠ "integer") :
    standardKind value kind = kindMatches value kind := by
  by_cases known : knownKind kind = true
  · simp only [knownKind, List.contains_eq_mem, List.mem_cons, List.not_mem_nil, or_false, decide_eq_true_eq] at known
    rcases known with rfl | rfl | rfl | rfl | rfl | rfl | rfl
    all_goals
      cases value with
      | float q => first | rfl | exact absurd rfl (other q rfl)
      | _ => rfl
  · simp only [knownKind, List.contains_eq_mem, List.mem_cons, List.not_mem_nil, or_false, decide_eq_true_eq,
      not_or] at known
    have none_ : kindMatches value kind = false := by
      unfold kindMatches
      split <;> simp_all
    have nothing : standardKind value kind = false := by
      unfold standardKind
      split <;> simp_all
    rw [none_, nothing]

theorem kindMatches_integer (q : Rat) : kindMatches (.float q) "integer" = true ↔
    standardKind (.float q) "integer" = true ∧ -9223372036854775808 ≤ q ∧ q < 9223372036854775808 := by
  simp only [kindMatches, standardKind, isNumber, exactNumber, Bool.true_and, decide_eq_true_eq]
  constructor
  · rintro ⟨low, high, integral⟩
    exact ⟨decide_eq_true integral, low, high⟩
  · rintro ⟨integral, low, high⟩
    exact ⟨low, high, of_decide_eq_true integral⟩

theorem Unrounded.types (exact_ : Unrounded value schema) {names : List String} (named : typeNames schema = some names) :
    names.any (standardKind value) = true ↔ names.any (kindMatches value) = true := by
  by_cases float : ∃ q, value = .float q
  · have ⟨q, is⟩ := float
    subst is
    have other : ∀ kind, kind ≠ "integer" → standardKind (.float q) kind = kindMatches (.float q) kind :=
      fun kind apart => standardKind_eq fun _ _ => apart
    rw [List.any_eq_true, List.any_eq_true]
    constructor
    · rintro ⟨kind, listed, matched⟩
      by_cases integer : kind = "integer"
      · subst integer
        by_cases numeric : "number" ∈ names
        · exact ⟨"number", numeric, rfl⟩
        · have integral : q.den = 1 := of_decide_eq_true matched
          exact ⟨"integer", listed, (kindMatches_integer q).mpr
            ⟨matched, exact_.integer q names rfl integral named listed numeric⟩⟩
      · rw [other kind integer] at matched
        exact ⟨kind, listed, matched⟩
    · rintro ⟨kind, listed, matched⟩
      by_cases integer : kind = "integer"
      · subst integer
        exact ⟨"integer", listed, ((kindMatches_integer q).mp matched).1⟩
      · rw [← other kind integer] at matched
        exact ⟨kind, listed, matched⟩
  · have same : names.any (standardKind value) = names.any (kindMatches value) := by
      refine congrArg names.any (funext fun kind => standardKind_eq ?_)
      intro q is
      exact absurd ⟨q, is⟩ float
    rw [same]

theorem keyed_member {key : String} {child : Json} (keyed : schema.Keyed) (found : schema.member key = some child) :
    child.Keyed := by
  cases schema with
  | obj members => exact keyedMembers_iff.mp keyed.2 _ (lookup_mem found)
  | _ => cases found

theorem standard_equal {left right : Json} (keyed : left.Keyed) (keyed' : right.Keyed) :
    standard.equal left right = journal.equal left right := by
  rw [Bool.eq_iff_iff]
  exact decide_eq_true_iff.trans (valuesEqual_iff left right keyed keyed').symm

theorem standard_any {options : List Json} (keyed : value.Keyed) (keyed' : ∀ option ∈ options, option.Keyed) :
    options.any (standard.equal value) = options.any (journal.equal value) := by
  rw [Bool.eq_iff_iff, List.any_eq_true, List.any_eq_true]
  constructor
  · rintro ⟨option, listed, same⟩
    exact ⟨option, listed, standard_equal keyed (keyed' option listed) ▸ same⟩
  · rintro ⟨option, listed, same⟩
    exact ⟨option, listed, (standard_equal keyed (keyed' option listed)).symm ▸ same⟩

theorem Unrounded.level (exact_ : Unrounded value schema) (keyed : value.Keyed) (keyed' : schema.Keyed) :
    journal.Level value schema ↔ standard.Level value schema := by
  have const : ∀ expected, schema.member "const" = some expected →
      standard.equal value expected = journal.equal value expected :=
    fun expected found => standard_equal keyed (keyed_member keyed' found)
  have enum : ∀ options, schema.member "enum" = some (.arr options) →
      options.any (standard.equal value) = options.any (journal.equal value) :=
    fun options found => standard_any keyed (keyedItems_iff.mp (keyed_member keyed' found))
  constructor
  · intro level
    exact
      { const := fun expected found => (const expected found).trans (level.const expected found)
        enum := fun options found => (enum options found).trans (level.enum options found)
        types := fun names found => (exact_.types found).mpr (level.types names found)
        minimum := fun m numeric found => mt (exact_.minimum m numeric found).mp (level.minimum m numeric found)
        maximum := fun m numeric found => mt (exact_.maximum m numeric found).mp (level.maximum m numeric found)
        minLength := fun text m is found => mt (exact_.minLength text m is found).mp (level.minLength text m is found)
        maxLength := fun text m is found => mt (exact_.maxLength text m is found).mp (level.maxLength text m is found)
        minItems := fun items m is found => mt (exact_.minItems items m is found).mp (level.minItems items m is found)
        maxItems := fun items m is found => mt (exact_.maxItems items m is found).mp (level.maxItems items m is found)
        required := level.required
        additional := level.additional }
  · intro level
    exact
      { const := fun expected found => (const expected found).symm.trans (level.const expected found)
        enum := fun options found => (enum options found).symm.trans (level.enum options found)
        types := fun names found => (exact_.types found).mp (level.types names found)
        minimum := fun m numeric found => mt (exact_.minimum m numeric found).mpr (level.minimum m numeric found)
        maximum := fun m numeric found => mt (exact_.maximum m numeric found).mpr (level.maximum m numeric found)
        minLength := fun text m is found => mt (exact_.minLength text m is found).mpr (level.minLength text m is found)
        maxLength := fun text m is found => mt (exact_.maxLength text m is found).mpr (level.maxLength text m is found)
        minItems := fun items m is found => mt (exact_.minItems items m is found).mpr (level.minItems items m is found)
        maxItems := fun items m is found => mt (exact_.maxItems items m is found).mpr (level.maxItems items m is found)
        required := level.required
        additional := level.additional }

/-! The whole of a schema. -/

theorem keyed_property (keyed : schema.Keyed) {p : String × Json} (listed : p ∈ propertiesOf schema) : p.2.Keyed := by
  unfold propertiesOf at listed
  cases found : schema.member "properties" with
  | none =>
    rw [found] at listed
    cases listed
  | some child =>
    rw [found] at listed
    cases child with
    | obj properties => exact keyedMembers_iff.mp (keyed_member keyed found).2 p listed
    | _ => cases listed

theorem Unrounded.levels {nesting : Nat} (everywhere : Everywhere Unrounded nesting value schema) (keyed : value.Keyed)
    (keyed' : schema.Keyed) :
    Everywhere (fun value schema => journal.Level value schema ↔ standard.Level value schema) nesting value schema := by
  induction nesting generalizing value schema with
  | zero => trivial
  | succ nesting ih =>
    have ⟨here, branches, items, properties⟩ := everywhere
    refine ⟨here.level keyed keyed', ?_, ?_, ?_⟩
    · intro keyword listed options found option member
      have inner : option.Keyed := keyedItems_iff.mp (keyed_member keyed' found) option member
      exact ih (branches keyword listed options found option member) keyed inner
    · intro held inner is found item member
      subst is
      exact ih (items held inner rfl found item member) (keyedItems_iff.mp keyed item member) (keyed_member keyed' found)
    · intro members is p listed held found
      subst is
      have within : held.Keyed := keyedMembers_iff.mp keyed.2 _ (lookup_mem found)
      exact ih (properties members rfl p listed held found) within (keyed_property keyed' listed)

theorem accepts_unrounded {path : String}
    (passed : validateSchema "schema.invalid" schema (path ++ "/schema") = .ok ()) (keyed : value.Keyed)
    (keyed' : schema.Keyed) (everywhere : Everywhere Unrounded schema.depth value schema) :
    validateValue value schema path = .ok () ↔ standard.Accepts schema.depth value schema := by
  have declared : Declared schema := ⟨_, _, passed⟩
  rw [← Judge.accepts_congr (Unrounded.levels everywhere keyed keyed'), ← validatePayload_ok schema.depth declared,
    validateValue, bind_ok]
  constructor
  · rintro ⟨_, _, accepted⟩
    exact accepted
  · intro accepted
    exact ⟨(), passed, accepted⟩

/-! A schema of one keyword. -/

section Lone

variable (j : Judge) (m : Json)

theorem level_minimum : j.Level value (.obj [("minimum", m)]) ↔ (value.isNumber = true → ¬ j.less value m) := by
  constructor
  · intro level numeric
    exact level.minimum m numeric rfl
  · intro holds
    constructor <;> simp [member, lookup, typeNames]
    exact holds

theorem level_maximum : j.Level value (.obj [("maximum", m)]) ↔ (value.isNumber = true → ¬ j.less m value) := by
  constructor
  · intro level numeric
    exact level.maximum m numeric rfl
  · intro holds
    constructor <;> simp [member, lookup, typeNames]
    exact holds

theorem level_minLength : j.Level value (.obj [("minLength", m)]) ↔
    ∀ text, value = .str text → ¬ j.shorter text.length m := by
  constructor
  · intro level text is
    exact level.minLength text m is rfl
  · intro holds
    constructor <;> simp [member, lookup, typeNames]
    exact holds

theorem level_maxLength : j.Level value (.obj [("maxLength", m)]) ↔
    ∀ text, value = .str text → ¬ j.longer text.length m := by
  constructor
  · intro level text is
    exact level.maxLength text m is rfl
  · intro holds
    constructor <;> simp [member, lookup, typeNames]
    exact holds

theorem level_minItems : j.Level value (.obj [("minItems", m)]) ↔
    ∀ items, value = .arr items → ¬ j.fewer items.length m := by
  constructor
  · intro level items is
    exact level.minItems items m is rfl
  · intro holds
    constructor <;> simp [member, lookup, typeNames]
    exact holds

theorem level_maxItems : j.Level value (.obj [("maxItems", m)]) ↔
    ∀ items, value = .arr items → ¬ j.more items.length m := by
  constructor
  · intro level items is
    exact level.maxItems items m is rfl
  · intro holds
    constructor <;> simp [member, lookup, typeNames]
    exact holds

theorem level_type : j.Level value (.obj [("type", m)]) ↔
    ∀ names, typeNames (.obj [("type", m)]) = some names → names.any (j.kind value) = true := by
  constructor
  · intro level
    exact level.types
  · intro holds
    refine ⟨?_, ?_, holds, ?_, ?_, ?_, ?_, ?_, ?_, ?_, ?_⟩ <;> simp [member, lookup]

end Lone

theorem member_lone {key name : String} {child found : Json} :
    (Json.obj [(key, child)]).member name = some found ↔ key = name ∧ child = found := by
  by_cases here : key = name <;> simp [member, lookup, here]

theorem unrounded_of_level {key : String} {child : Json}
    (same : journal.Level value (.obj [(key, child)]) ↔ standard.Level value (.obj [(key, child)])) :
    Unrounded value (.obj [(key, child)]) where
  integer := by
    intro q names is integral named integer numeric
    subst is
    have typed : key = "type" := by
      by_contra other
      simp [typeNames, member, lookup, other] at named
    subst typed
    rw [level_type, level_type] at same
    have matched : names.any (standardKind (.float q)) = true :=
      List.any_eq_true.mpr ⟨"integer", integer, decide_eq_true integral⟩
    have accepted := same.mpr (by rintro others named'; cases named.symm.trans named'; exact matched)
    obtain ⟨kind, listed, held⟩ := List.any_eq_true.mp (accepted names named)
    by_cases here : kind = "integer"
    · subst here
      exact ((kindMatches_integer q).mp held).2
    · have apart : kind ≠ "number" := fun is => numeric (is ▸ listed)
      have none_ : kindMatches (.float q) kind = false := by
        unfold kindMatches
        split <;> simp_all
      cases none_.symm.trans held
  minimum := by
    intro m numeric found
    obtain ⟨named, is⟩ := member_lone.mp found
    subst named is
    rw [level_minimum, level_minimum] at same
    exact (not_iff_not.mp ⟨fun no => same.mp (fun _ => no) numeric, fun no => same.mpr (fun _ => no) numeric⟩).symm
  maximum := by
    intro m numeric found
    obtain ⟨named, is⟩ := member_lone.mp found
    subst named is
    rw [level_maximum, level_maximum] at same
    exact (not_iff_not.mp ⟨fun no => same.mp (fun _ => no) numeric, fun no => same.mpr (fun _ => no) numeric⟩).symm
  minLength := by
    intro text m is found
    obtain ⟨named, is'⟩ := member_lone.mp found
    subst named is' is
    simp only [level_minLength, Json.str.injEq, forall_eq'] at same
    exact (not_iff_not.mp same).symm
  maxLength := by
    intro text m is found
    obtain ⟨named, is'⟩ := member_lone.mp found
    subst named is' is
    simp only [level_maxLength, Json.str.injEq, forall_eq'] at same
    exact (not_iff_not.mp same).symm
  minItems := by
    intro items m is found
    obtain ⟨named, is'⟩ := member_lone.mp found
    subst named is' is
    simp only [level_minItems, Json.arr.injEq, forall_eq'] at same
    exact (not_iff_not.mp same).symm
  maxItems := by
    intro items m is found
    obtain ⟨named, is'⟩ := member_lone.mp found
    subst named is' is
    simp only [level_maxItems, Json.arr.injEq, forall_eq'] at same
    exact (not_iff_not.mp same).symm

theorem accepts_lone (j : Judge) {key : String} {child : Json} (plain : key ∉ "properties" :: "items" :: combinators)
    (nesting : Nat) : j.Accepts (nesting + 1) value (.obj [(key, child)]) ↔ j.Level value (.obj [(key, child)]) := by
  have other : ∀ name ∈ "properties" :: "items" :: combinators, (Json.obj [(key, child)]).member name = none := by
    intro name listed
    have apart : key ≠ name := fun is => plain (is ▸ listed)
    simp [member, lookup, apart]
  refine ⟨And.left, fun level => ⟨level, ?_, ?_, ?_⟩⟩
  · intro keyword listed options found
    cases (other keyword (List.mem_cons_of_mem _ (List.mem_cons_of_mem _ listed))).symm.trans found
  · intro items inner _ found
    cases (other "items" (by decide)).symm.trans found
  · intro members _ p listed
    rw [propertiesOf, other "properties" (by decide)] at listed
    cases listed

end

end Fala.Schema
