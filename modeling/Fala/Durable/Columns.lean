import Mathlib.Algebra.Order.Field.Basic
import Mathlib.Algebra.Order.Field.Rat
import Mathlib.Data.String.Basic
import Mathlib.Tactic.Linarith
import Mathlib.Tactic.Positivity
import Mathlib.Tactic.FieldSimp
import Mathlib.Tactic.Ring

/-! Numbers that are written with a fixed number of digits. -/

namespace Columns

/-- A number in as many decimal digits as the column is wide, the first digit first. -/
def digits : Nat → Nat → List Char
  | 0, _ => []
  | width + 1, n => Nat.digitChar (n / 10 ^ width) :: digits width (n % 10 ^ width)

theorem digitChar_lt {a b : Nat} (ha : a < 10) (hb : b < 10) : Nat.digitChar a < Nat.digitChar b ↔ a < b := by
  have all : ∀ a < 10, ∀ b < 10, (Nat.digitChar a < Nat.digitChar b ↔ a < b) := by decide
  exact all a ha b hb

theorem digitChar_inj {a b : Nat} (ha : a < 10) (hb : b < 10) : Nat.digitChar a = Nat.digitChar b ↔ a = b := by
  have all : ∀ a < 10, ∀ b < 10, (Nat.digitChar a = Nat.digitChar b ↔ a = b) := by decide
  exact all a ha b hb

/-- No digit comes after `Z`. -/
theorem digitChar_lt_letter {a : Nat} (ha : a < 10) : Nat.digitChar a < 'Z' := by
  have all : ∀ a < 10, Nat.digitChar a < 'Z' := by decide
  exact all a ha

theorem length_digits (width n : Nat) : (digits width n).length = width := by
  induction width generalizing n with
  | zero => rfl
  | succ width ih => rw [digits, List.length_cons, ih]

theorem first_digit_lt {width n : Nat} (fits : n < 10 ^ (width + 1)) : n / 10 ^ width < 10 := by
  apply Nat.div_lt_of_lt_mul
  rw [← Nat.pow_succ]
  exact fits

theorem digits_lt_letter {width n : Nat} (fits : n < 10 ^ width) : ∀ c ∈ digits width n, c < 'Z' := by
  induction width generalizing n with
  | zero => simp [digits]
  | succ width ih =>
    intro c member
    rw [digits, List.mem_cons] at member
    rcases member with rfl | member
    · exact digitChar_lt_letter (first_digit_lt fits)
    · exact ih (Nat.mod_lt n (Nat.pow_pos (by decide))) c member

theorem digits_lt_iff {width a b : Nat} (ha : a < 10 ^ width) (hb : b < 10 ^ width) (rest rest' : List Char) :
    digits width a ++ rest < digits width b ++ rest' ↔ a < b ∨ a = b ∧ rest < rest' := by
  induction width generalizing a b with
  | zero =>
    have za : a = 0 := by simpa using ha
    have zb : b = 0 := by simpa using hb
    simp [za, zb, digits]
  | succ width ih =>
    have positive : 0 < 10 ^ width := Nat.pow_pos (by decide)
    have qa := first_digit_lt ha
    have qb := first_digit_lt hb
    have split_a := Nat.div_add_mod a (10 ^ width)
    have split_b := Nat.div_add_mod b (10 ^ width)
    rw [digits, digits, List.cons_append, List.cons_append, List.cons_lt_cons_iff, digitChar_lt qa qb,
      digitChar_inj qa qb, ih (Nat.mod_lt a positive) (Nat.mod_lt b positive)]
    rcases Nat.lt_trichotomy (a / 10 ^ width) (b / 10 ^ width) with less | same | more
    · have smaller : a < b := Nat.lt_of_div_lt_div less
      simp [less, smaller]
    · rw [same] at split_a
      have order : a % 10 ^ width < b % 10 ^ width ↔ a < b := by omega
      have equal : a % 10 ^ width = b % 10 ^ width ↔ a = b := by omega
      simp [same, order, equal]
    · have greater : b < a := Nat.lt_of_div_lt_div more
      have apart : a / 10 ^ width ≠ b / 10 ^ width := by omega
      have apart' : a ≠ b := by omega
      simp [apart, apart', Nat.not_lt.mpr more.le, Nat.not_lt.mpr greater.le]

/-- A number of a given width, and what stands before it. -/
structure Column where
  mark : List Char
  width : Nat
  deriving DecidableEq

/-- Numbers in their columns, and a text after them. -/
def render : List Column → List Nat → List Char → List Char
  | column :: columns, n :: numbers, tail => column.mark ++ (digits column.width n ++ render columns numbers tail)
  | _, _, tail => tail

/-- Every number fits its column. -/
def Fits : List Column → List Nat → Prop := List.Forall₂ fun column n => n < 10 ^ column.width

theorem append_lt_append {mark left right : List Char} : mark ++ left < mark ++ right ↔ left < right := by
  induction mark with
  | nil => rfl
  | cons head rest ih => simp [ih]

theorem render_lt_iff {columns : List Column} {xs ys : List Nat} (hx : Fits columns xs) (hy : Fits columns ys)
    (tail tail' : List Char) :
    render columns xs tail < render columns ys tail' ↔ xs < ys ∨ xs = ys ∧ tail < tail' := by
  induction hx generalizing ys with
  | nil =>
    cases hy
    simp [render]
  | cons fits _ ih =>
    cases hy with
    | cons fits' rest =>
      rw [render, render, append_lt_append, digits_lt_iff fits fits', ih rest, List.cons_lt_cons_iff, List.cons.injEq]
      tauto

theorem digits_prefix_iff {width a b : Nat} (ha : a < 10 ^ width) (hb : b < 10 ^ width) (rest rest' : List Char) :
    digits width a ++ rest <+: digits width b ++ rest' ↔ a = b ∧ rest <+: rest' := by
  induction width generalizing a b with
  | zero =>
    have za : a = 0 := by simpa using ha
    have zb : b = 0 := by simpa using hb
    simp [za, zb, digits]
  | succ width ih =>
    have positive : 0 < 10 ^ width := Nat.pow_pos (by decide)
    have split_a := Nat.div_add_mod a (10 ^ width)
    have split_b := Nat.div_add_mod b (10 ^ width)
    rw [digits, digits, List.cons_append, List.cons_append, List.cons_prefix_cons,
      digitChar_inj (first_digit_lt ha) (first_digit_lt hb), ih (Nat.mod_lt a positive) (Nat.mod_lt b positive)]
    constructor
    · rintro ⟨quotient, remainder, continued⟩
      rw [quotient, remainder] at split_a
      exact ⟨split_a.symm.trans split_b, continued⟩
    · rintro ⟨rfl, continued⟩
      exact ⟨rfl, rfl, continued⟩

theorem render_prefix_iff {columns : List Column} {xs ys : List Nat} (hx : Fits columns xs) (hy : Fits columns ys)
    (tail tail' : List Char) :
    render columns xs tail <+: render columns ys tail' ↔ xs = ys ∧ tail <+: tail' := by
  induction hx generalizing ys with
  | nil =>
    cases hy
    simp [render]
  | cons fits _ ih =>
    cases hy with
    | cons fits' rest =>
      rw [render, render, List.prefix_append_right_inj, digits_prefix_iff fits fits', ih rest, List.cons.injEq, and_assoc]

theorem render_append (columns : List Column) (numbers : List Nat) (tail more : List Char) :
    render columns numbers (tail ++ more) = render columns numbers tail ++ more := by
  induction columns generalizing numbers with
  | nil => rfl
  | cons column columns ih =>
    cases numbers with
    | nil => rfl
    | cons n numbers => rw [render, render, ih, List.append_assoc, List.append_assoc]

theorem length_render {columns : List Column} {xs ys : List Nat} (hx : Fits columns xs) (hy : Fits columns ys)
    {tail tail' : List Char} (same : tail.length = tail'.length) :
    (render columns xs tail).length = (render columns ys tail').length := by
  induction hx generalizing ys with
  | nil =>
    cases hy
    exact same
  | cons _ _ ih =>
    cases hy with
    | cons _ rest =>
      simp only [render, List.length_append, length_digits, ih rest]

/-! Decimal fractions. -/

/-- The fraction whose digits after the point are the number. -/
def fraction (width n : Nat) : ℚ := n / 10 ^ width

theorem fraction_nonneg (width n : Nat) : 0 ≤ fraction width n := by
  unfold fraction
  positivity

theorem fraction_lt_one {width n : Nat} (fits : n < 10 ^ width) : fraction width n < 1 := by
  have positive : (0 : ℚ) < 10 ^ width := by positivity
  rw [fraction, div_lt_one positive]
  exact_mod_cast fits

theorem fraction_succ (width n : Nat) :
    fraction (width + 1) n = ((n / 10 ^ width : Nat) + fraction width (n % 10 ^ width)) / 10 := by
  have positive : (10 : ℚ) ^ width ≠ 0 := by positivity
  have split := Nat.div_add_mod n (10 ^ width)
  have exact : ((10 ^ width : Nat) : ℚ) * (n / 10 ^ width : Nat) + (n % 10 ^ width : Nat) = n := by exact_mod_cast split
  rw [fraction, fraction, ← exact, pow_succ]
  push_cast
  field_simp

theorem fraction_lt_iff {width width' n m : Nat} (hn : n < 10 ^ width) (hm : m < 10 ^ width')
    (apart : ¬ digits width n <+: digits width' m) (apart' : ¬ digits width' m <+: digits width n)
    (tail tail' : List Char) :
    digits width n ++ tail < digits width' m ++ tail' ↔ fraction width n < fraction width' m := by
  induction width generalizing width' n m with
  | zero => exact absurd (List.nil_prefix) apart
  | succ width ih =>
    cases width' with
    | zero => exact absurd (List.nil_prefix) apart'
    | succ width' =>
      have positive : ∀ k, 0 < 10 ^ k := fun k => Nat.pow_pos (by decide)
      have qn := first_digit_lt hn
      have qm := first_digit_lt hm
      have rn := Nat.mod_lt n (positive width)
      have rm := Nat.mod_lt m (positive width')
      have below := fraction_lt_one rn
      have below' := fraction_lt_one rm
      have above := fraction_nonneg width (n % 10 ^ width)
      have above' := fraction_nonneg width' (m % 10 ^ width')
      rw [fraction_succ, fraction_succ, digits, digits, List.cons_append, List.cons_append, List.cons_lt_cons_iff,
        digitChar_lt qn qm, digitChar_inj qn qm]
      rw [digits, digits, List.cons_prefix_cons, digitChar_inj qn qm] at apart
      rw [digits, digits, List.cons_prefix_cons, digitChar_inj qm qn] at apart'
      rcases Nat.lt_trichotomy (n / 10 ^ width) (m / 10 ^ width') with less | same | more
      · have step : ((n / 10 ^ width : Nat) : ℚ) + 1 ≤ (m / 10 ^ width' : Nat) := by exact_mod_cast less
        have smaller : ((n / 10 ^ width : Nat) + fraction width (n % 10 ^ width)) / 10 <
            ((m / 10 ^ width' : Nat) + fraction width' (m % 10 ^ width')) / 10 := by linarith
        simp only [less, true_or, smaller]
      · have order := ih rn rm (fun continued => apart ⟨same, continued⟩)
          (fun continued => apart' ⟨same.symm, continued⟩)
        have shift : ((n / 10 ^ width : Nat) + fraction width (n % 10 ^ width)) / 10 <
            ((m / 10 ^ width' : Nat) + fraction width' (m % 10 ^ width')) / 10 ↔
              fraction width (n % 10 ^ width) < fraction width' (m % 10 ^ width') := by
          rw [same]
          constructor
          · intro less
            linarith
          · intro less
            linarith
        rw [shift, ← order]
        simp [same]
      · have step : ((m / 10 ^ width' : Nat) : ℚ) + 1 ≤ (n / 10 ^ width : Nat) := by exact_mod_cast more
        have greater : ¬ ((n / 10 ^ width : Nat) + fraction width (n % 10 ^ width)) / 10 <
            ((m / 10 ^ width' : Nat) + fraction width' (m % 10 ^ width')) / 10 := by linarith
        have not_less : ¬ n / 10 ^ width < m / 10 ^ width' := Nat.not_lt.mpr more.le
        have not_same : n / 10 ^ width ≠ m / 10 ^ width' := by omega
        simp only [not_less, not_same, false_and, or_self, greater]

theorem fraction_le_of_prefix {width width' n m : Nat} (hn : n < 10 ^ width) (hm : m < 10 ^ width')
    (continued : digits width n <+: digits width' m) : fraction width n ≤ fraction width' m := by
  induction width generalizing width' n m with
  | zero =>
    have zero : n = 0 := by simpa using hn
    rw [zero]
    simpa [fraction] using fraction_nonneg width' m
  | succ width ih =>
    cases width' with
    | zero => simp [digits] at continued
    | succ width' =>
      have positive : ∀ k, 0 < 10 ^ k := fun k => Nat.pow_pos (by decide)
      rw [digits, digits, List.cons_prefix_cons, digitChar_inj (first_digit_lt hn) (first_digit_lt hm)] at continued
      have rest := ih (Nat.mod_lt n (positive width)) (Nat.mod_lt m (positive width')) continued.2
      rw [fraction_succ, fraction_succ, continued.1]
      linarith

end Columns
