import Fala.Json.Schema

namespace Fala.Json

/-- `path.split(".")` -/
def segments (path : String) : List String := (path.toList.splitOn '.').map String.ofList

/-- The value that a chain of object keys leads to. -/
def valueAt : List String → Json → Option Json
  | [], value => some value
  | key :: rest, value => (value.member key).bind (valueAt rest)

theorem valueAt_cons {key : String} {rest : List String} {value found : Json} :
    valueAt (key :: rest) value = some found ↔
      ∃ child, value.member key = some child ∧ valueAt rest child = some found := by
  rw [valueAt, Option.bind_eq_some_iff]

theorem segments_ne_nil (path : String) : segments path ≠ [] := by
  have split : path.toList.splitOn '.' ≠ [] := List.splitOn_ne_nil '.' path.toList
  intro none
  exact split (List.map_eq_nil_iff.mp none)

def isScalar : Json → Bool
  | .arr _ | .obj _ => false
  | _ => true

mutual

/-- What the printer tells apart: it writes an integer in one way, whichever type holds it. -/
def printed : Json → Json
  | .uint n => .int n
  | .arr items => .arr (printedItems items)
  | .obj members => .obj (printedMembers members)
  | value => value

def printedItems : List Json → List Json
  | [] => []
  | item :: rest => printed item :: printedItems rest

def printedMembers : List (String × Json) → List (String × Json)
  | [] => []
  | (name, value) :: rest => (name, printed value) :: printedMembers rest

end

/-- The two values have the same canonical text. -/
def spelledAlike (left right : Json) : Bool := decide (left.canonical.printed = right.canonical.printed)

theorem valuesEqual_of_spelledAlike {value expected : Json} (scalar : expected.isScalar = true)
    (alike : spelledAlike value expected = true) : valuesEqual value expected = true := by
  have same : value.canonical.printed = expected.canonical.printed := of_decide_eq_true alike
  cases expected with
  | arr items => cases scalar
  | obj members => cases scalar
  | int n =>
    cases value with
    | int m =>
      have equal : m = n := int.inj same
      subst equal
      simp [valuesEqual, isNumber, exactNumber]
    | uint m =>
      have equal : (m : Int) = n := int.inj same
      subst equal
      exact decide_eq_true (show ((m : Nat) : Rat) = ((m : Int) : Rat) from rfl)
    | null | bool _ | float _ | str _ | arr _ | obj _ => simp [canonical, printed] at same
  | uint n =>
    cases value with
    | int m =>
      have equal : m = (n : Int) := int.inj same
      subst equal
      exact decide_eq_true (show ((n : Int) : Rat) = ((n : Nat) : Rat) from rfl)
    | uint m =>
      have equal : m = n := Int.ofNat.inj (int.inj same)
      subst equal
      simp [valuesEqual, isNumber, exactNumber]
    | null | bool _ | float _ | str _ | arr _ | obj _ => simp [canonical, printed] at same
  | null | bool _ | float _ | str _ =>
    cases value <;> simp_all [canonical, printed, valuesEqual, isNumber, exactNumber]

theorem isScalar_of_spelledAlike {value expected : Json} (scalar : expected.isScalar = true)
    (alike : spelledAlike value expected = true) : value.isScalar = true := by
  have same : value.canonical.printed = expected.canonical.printed := of_decide_eq_true alike
  cases expected with
  | arr items => cases scalar
  | obj members => cases scalar
  | null | bool _ | int _ | uint _ | float _ | str _ =>
    cases value <;> simp_all [canonical, printed, isScalar]

example : spelledAlike (.uint 1) (.int 1) = true ∧ spelledAlike (.float 1) (.int 1) = false ∧
    valuesEqual (.float 1) (.int 1) = true := by decide +kernel

end Fala.Json
