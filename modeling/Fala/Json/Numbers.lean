import Mathlib.Algebra.Order.Field.Rat
import Mathlib.Algebra.Order.Group.Unbundled.Int
import Fala.Json.Exact
import Fala.Json.Notation

/-! The comparison of numbers in their three representations, and the equality of values that rests on it. -/

namespace Fala

/-- A finite double. -/
def IsDouble (q : Rat) : Prop :=
  ∃ m e : Int, m.natAbs < 2 ^ 53 ∧ -1074 ≤ e ∧ e ≤ 971 ∧ q = m * 2 ^ e

namespace Json
open Schema (truncate float64OfInt_exact)

/-- `_json_float_integer_equal`, where no double is a NaN. -/
def floatIntegerEqual (numeric : Rat) : Json → Bool
  | .int n =>
    if numeric < -9223372036854775808 ∨ 9223372036854775808 ≤ numeric then false
    else
      let converted := truncate numeric
      float64OfInt converted = numeric ∧ converted = n
  | .uint n =>
    if numeric < 0 ∨ 18446744073709551616 ≤ numeric then false
    else
      let converted := truncate numeric
      float64OfInt converted = numeric ∧ converted = n
  | _ => false

/-- `_json_numbers_equal` -/
def numbersEqual : Json → Json → Bool
  | .int a, .int b => a = b
  | .uint a, .uint b => a = b
  | .int a, .uint b => 0 ≤ a ∧ a.toNat = b
  | .uint a, .int b => 0 ≤ b ∧ a = b.toNat
  | .float a, .float b => a = b
  | .float a, right => floatIntegerEqual a right
  | left, .float b => floatIntegerEqual b left
  | _, _ => false

mutual

/-- `json_values_equal` -/
def jsonValuesEqual : Json → Json → Bool
  | .null, .null => true
  | .bool a, .bool b => a == b
  | .str a, .str b => a == b
  | .arr items, .arr others => items.length == others.length && jsonItemsEqual items others
  | .obj members, .obj others => members.length == others.length && jsonMembersEqual members others
  | left, right => left.isNumber && (right.isNumber && numbersEqual left right)

def jsonItemsEqual : List Json → List Json → Bool
  | [], _ => true
  | _ :: _, [] => false
  | a :: as, b :: bs => jsonValuesEqual a b && jsonItemsEqual as bs

def jsonMembersEqual : List (String × Json) → List (String × Json) → Bool
  | [], _ => true
  | (name, a) :: rest, others =>
    (match lookup name others with
      | some b => jsonValuesEqual a b
      | none => false) && jsonMembersEqual rest others

end

/-- A number or constant of the types that hold it: `Int64`, `UInt64` and a finite `Float64`. -/
def Storable : Json → Prop
  | .int n => -9223372036854775808 ≤ n ∧ n < 9223372036854775808
  | .uint n => n < 18446744073709551616
  | .float q => IsDouble q
  | _ => True

/-- A finite value: its numbers are stored, and its objects hold a member under each of their names. -/
def Finite (value : Json) : Prop := (∀ leaf ∈ value.leaves, leaf.Storable) ∧ value.keysDistinct = true

/-! Doubles that are integers. -/

theorem float64OfInt_integral (n : Int) : ∃ k : Int, float64OfInt n = k := by
  unfold float64OfInt
  by_cases negative : n < 0
  · simp only [if_pos negative]
    exact ⟨_, ((Rat.intCast_neg _).trans (congrArg _ (Rat.intCast_natCast _))).symm⟩
  · simp only [if_neg negative]
    exact ⟨_, (Rat.intCast_natCast _).symm⟩

theorem float64OfInt_shifted {n : Int} {m shift : Nat} (bits : m < 2 ^ 53) (is : n.natAbs = m * 2 ^ shift) :
    float64OfInt n = n := by
  have less : n.natAbs.log2 - 52 ≤ shift := by
    by_cases zero : n.natAbs = 0
    · rw [zero]
      exact Nat.zero_le _
    · have top : n.natAbs < 2 ^ (53 + shift) := by
        rw [is, pow_add]
        exact Nat.mul_lt_mul_of_pos_right bits (Nat.two_pow_pos shift)
      have := (Nat.log2_lt zero).mpr top
      omega
  have divides : 2 ^ (n.natAbs.log2 - 52) ∣ n.natAbs := by
    have inner := Dvd.dvd.mul_left (pow_dvd_pow 2 less) m
    rwa [← is] at inner
  have remainder : n.natAbs % 2 ^ (n.natAbs.log2 - 52) = 0 := Nat.mod_eq_zero_of_dvd divides
  have positive := Nat.two_pow_pos (n.natAbs.log2 - 52)
  unfold float64OfInt
  have up : ¬ (2 ^ (n.natAbs.log2 - 52) < 2 * 0 ∨ (2 ^ (n.natAbs.log2 - 52) = 2 * 0 ∧
      n.natAbs / 2 ^ (n.natAbs.log2 - 52) % 2 = 1)) := by omega
  simp only [remainder]
  rw [if_neg up, Nat.div_mul_cancel divides]
  by_cases negative : n < 0
  · rw [if_pos negative, ← Rat.intCast_natCast, Int.ofNat_natAbs_of_nonpos (by omega), Rat.intCast_neg, Rat.neg_neg]
  · rw [if_neg negative, ← Rat.intCast_natCast, Int.natAbs_of_nonneg (by omega)]

theorem float64OfInt_double {n : Int} (double : IsDouble n) : float64OfInt n = n := by
  have ⟨m, e, bits, _, _, is⟩ := double
  by_cases whole : 0 ≤ e
  · have ⟨shift, same⟩ := Int.eq_ofNat_of_zero_le whole
    subst same
    have exact_ : n = m * 2 ^ shift := by
      rw [zpow_natCast] at is
      exact_mod_cast is
    have sizes : n.natAbs = m.natAbs * 2 ^ shift := by
      rw [exact_, Int.natAbs_mul, Int.natAbs_pow]
      rfl
    exact float64OfInt_shifted bits sizes
  · have ⟨shift, same⟩ : ∃ shift : Nat, e = -shift := ⟨e.natAbs, by omega⟩
    subst same
    have exact_ : m = n * 2 ^ shift := by
      rw [zpow_neg, zpow_natCast] at is
      have scaled : (n : Rat) * 2 ^ shift = m := by
        rw [is, mul_assoc, inv_mul_cancel₀ (pow_ne_zero _ two_ne_zero), mul_one]
      exact_mod_cast scaled.symm
    apply float64OfInt_exact
    have sizes : m.natAbs = n.natAbs * 2 ^ shift := by
      rw [exact_, Int.natAbs_mul, Int.natAbs_pow]
      rfl
    have grows : n.natAbs ≤ n.natAbs * 2 ^ shift := Nat.le_mul_of_pos_right _ (Nat.two_pow_pos shift)
    omega

theorem truncate_int (n : Int) : truncate n = n := by
  unfold truncate
  by_cases negative : (n : Rat) < 0
  · rw [if_pos negative, ← Rat.intCast_neg, Rat.floor_intCast, Int.neg_neg]
  · rw [if_neg negative, Rat.floor_intCast]

theorem converted_iff {q : Rat} {n : Int} (double : IsDouble q) :
    (float64OfInt (truncate q) = q ∧ truncate q = n) ↔ q = n := by
  constructor
  · rintro ⟨back, same⟩
    have ⟨k, integral⟩ := float64OfInt_integral (truncate q)
    rw [back] at integral
    rw [integral, truncate_int] at same
    rw [integral, same]
  · intro same
    rw [same] at double ⊢
    rw [truncate_int]
    exact ⟨float64OfInt_double double, rfl⟩

theorem floatIntegerEqual_iff {q : Rat} {value : Json} (double : IsDouble q) (integer : value.isInteger = true)
    (stored : value.Storable) : floatIntegerEqual q value = true ↔ q = value.exactNumber := by
  cases value with
  | int n =>
    have ⟨low, high⟩ := stored
    simp only [floatIntegerEqual, exactNumber]
    by_cases outside : q < -9223372036854775808 ∨ 9223372036854775808 ≤ q
    · rw [if_pos outside]
      constructor
      · intro never
        cases never
      · intro same
        have low' : (-9223372036854775808 : Rat) ≤ n := by exact_mod_cast low
        have high' : (n : Rat) < 9223372036854775808 := by exact_mod_cast high
        rw [same] at outside
        rcases outside with below | above
        · exact absurd below (not_lt.mpr low')
        · exact absurd above (not_le.mpr high')
    · rw [if_neg outside]
      exact decide_eq_true_iff.trans (converted_iff double)
  | uint n =>
    have high : n < 18446744073709551616 := stored
    simp only [floatIntegerEqual, exactNumber]
    by_cases outside : q < 0 ∨ 18446744073709551616 ≤ q
    · rw [if_pos outside]
      constructor
      · intro never
        cases never
      · intro same
        have low' : (0 : Rat) ≤ n := by exact_mod_cast Nat.zero_le n
        have high' : (n : Rat) < 18446744073709551616 := by exact_mod_cast high
        rw [same] at outside
        rcases outside with below | above
        · exact absurd below (not_lt.mpr low')
        · exact absurd above (not_le.mpr high')
    · rw [if_neg outside]
      have same := converted_iff (n := n) double
      rw [Rat.intCast_natCast] at same
      exact decide_eq_true_iff.trans same
  | _ => cases integer

theorem numbersEqual_iff {left right : Json} (number : left.isNumber = true) (number' : right.isNumber = true)
    (stored : left.Storable) (stored' : right.Storable) :
    numbersEqual left right = true ↔ left.exactNumber = right.exactNumber := by
  have swapped {q : Rat} {value : Json} (double : IsDouble q) (integer : value.isInteger = true)
      (stored : value.Storable) : floatIntegerEqual q value = true ↔ value.exactNumber = q :=
    (floatIntegerEqual_iff double integer stored).trans eq_comm
  cases left with
  | int a =>
    cases right with
    | int b => exact decide_eq_true_iff.trans Rat.intCast_inj.symm
    | uint b =>
      refine decide_eq_true_iff.trans ?_
      show 0 ≤ a ∧ a.toNat = b ↔ (a : Rat) = b
      rw [← Rat.intCast_natCast, Rat.intCast_inj]
      omega
    | float b => exact swapped stored' rfl stored
    | _ => cases number'
  | uint a =>
    cases right with
    | int b =>
      refine decide_eq_true_iff.trans ?_
      show 0 ≤ b ∧ a = b.toNat ↔ (a : Rat) = b
      rw [← Rat.intCast_natCast, Rat.intCast_inj]
      omega
    | uint b => exact decide_eq_true_iff.trans Rat.natCast_inj.symm
    | float b => exact swapped stored' rfl stored
    | _ => cases number'
  | float a =>
    cases right with
    | int b => exact floatIntegerEqual_iff stored rfl stored'
    | uint b => exact floatIntegerEqual_iff stored rfl stored'
    | float b => exact decide_eq_true_iff
    | _ => cases number'
  | _ => cases number

theorem numbers_eq {left right : Json} (number : left.isNumber = true) (number' : right.isNumber = true)
    (stored : ∀ leaf ∈ left.leaves, leaf.Storable) (stored' : ∀ leaf ∈ right.leaves, leaf.Storable) :
    jsonValuesEqual left right = valuesEqual left right := by
  have alone {value : Json} (number : value.isNumber = true) (stored : ∀ leaf ∈ value.leaves, leaf.Storable) :
      value.Storable := by
    cases value with
    | int | uint | float => exact stored _ List.mem_cons_self
    | _ => cases number
  have exact_ := numbersEqual_iff number number' (alone number stored) (alone number' stored')
  have compared : jsonValuesEqual left right = numbersEqual left right := by
    cases left with
    | int | uint | float =>
      cases right with
      | int | uint | float => rfl
      | _ => cases number'
    | _ => cases number
  rw [compared, Bool.eq_iff_iff, exact_]
  cases left with
  | int | uint | float =>
    rw [valuesEqual, number', Bool.true_and, decide_eq_true_iff]
    rfl
  | _ => cases number

mutual

/-- On stored numbers the comparison is the one of `valuesEqual`. -/
theorem jsonValuesEqual_eq : ∀ left right : Json, (∀ leaf ∈ left.leaves, leaf.Storable) →
    (∀ leaf ∈ right.leaves, leaf.Storable) → jsonValuesEqual left right = valuesEqual left right
  | .null, right, _, _ | .bool _, right, _, _ | .str _, right, _, _ => by
    cases right <;> rfl
  | .int a, right, stored, stored' => by
    by_cases number : right.isNumber = true
    · exact numbers_eq rfl number stored stored'
    · cases right <;> first | rfl | exact absurd rfl number
  | .uint a, right, stored, stored' => by
    by_cases number : right.isNumber = true
    · exact numbers_eq rfl number stored stored'
    · cases right <;> first | rfl | exact absurd rfl number
  | .float a, right, stored, stored' => by
    by_cases number : right.isNumber = true
    · exact numbers_eq rfl number stored stored'
    · cases right <;> first | rfl | exact absurd rfl number
  | .arr items, right, stored, stored' => by
    cases right with
    | arr others => exact jsonItemsEqual_eq items others stored stored'
    | _ => rfl
  | .obj members, right, stored, stored' => by
    cases right with
    | obj others => rw [jsonValuesEqual, valuesEqual, jsonMembersEqual_eq members others stored stored']
    | _ => rfl

theorem jsonItemsEqual_eq : ∀ items others : List Json, (∀ leaf ∈ leavesItems items, leaf.Storable) →
    (∀ leaf ∈ leavesItems others, leaf.Storable) →
      (items.length == others.length && jsonItemsEqual items others) = itemsEqual items others
  | [], [], _, _ | [], _ :: _, _, _ | _ :: _, [], _, _ => rfl
  | a :: as, b :: bs, stored, stored' => by
    rw [leavesItems, List.forall_mem_append] at stored stored'
    rw [jsonItemsEqual, itemsEqual, jsonValuesEqual_eq a b stored.1 stored'.1,
      ← jsonItemsEqual_eq as bs stored.2 stored'.2, Bool.and_left_comm]
    simp

theorem jsonMembersEqual_eq : ∀ members others : List (String × Json),
    (∀ leaf ∈ leavesMembers members, leaf.Storable) → (∀ leaf ∈ leavesMembers others, leaf.Storable) →
      jsonMembersEqual members others = membersEqual members others
  | [], _, _, _ => rfl
  | (name, a) :: rest, others, stored, stored' => by
    rw [leavesMembers, List.forall_mem_append] at stored
    rw [jsonMembersEqual, membersEqual, jsonMembersEqual_eq rest others stored.2 stored']
    cases found : lookup name others with
    | none => rfl
    | some b =>
      have inner : ∀ leaf ∈ b.leaves, leaf.Storable := by
        intro leaf listed
        apply stored'
        rw [leavesMembers_eq]
        exact List.mem_flatMap.mpr ⟨_, lookup_mem found, listed⟩
      simp only [jsonValuesEqual_eq a b stored.1 inner]

end

end Json
end Fala
