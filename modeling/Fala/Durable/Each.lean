import Mathlib.Data.List.Forall2
import Mathlib.Data.List.Basic

namespace Durable

/-! What a map gives that may fail, entry by entry. -/

variable {ε α β : Type}

theorem mapM_ok {f : α → Except ε β} {entries : List α} {results : List β} (h : entries.mapM f = .ok results) :
    List.Forall₂ (fun entry result => f entry = .ok result) entries results := by
  induction entries generalizing results with
  | nil =>
    cases h
    exact .nil
  | cons head rest ih =>
    rw [List.mapM_cons] at h
    cases first : f head with
    | error message =>
      rw [first] at h
      cases h
    | ok result =>
      rw [first] at h
      cases later : rest.mapM f with
      | error message =>
        simp only [later, bind, Except.bind] at h
        cases h
      | ok others =>
        simp only [later, bind, Except.bind] at h
        cases h
        exact .cons first (ih later)

theorem mem_of_mapM {f : α → Except ε β} {entries : List α} {results : List β} (h : entries.mapM f = .ok results)
    {result : β} : result ∈ results ↔ ∃ entry ∈ entries, f entry = .ok result := by
  have each := mapM_ok h
  clear h
  induction each with
  | nil => simp
  | @cons head first rest others given later ih =>
    simp only [List.mem_cons, ih, exists_eq_or_imp]
    constructor
    · rintro (rfl | found)
      · exact .inl given
      · exact .inr found
    · rintro (same | found)
      · exact .inl (Except.ok.inj (same.symm.trans given))
      · exact .inr found

theorem forall₂_left {r : α → β → Prop} {entries : List α} {results : List β} (each : List.Forall₂ r entries results)
    {entry : α} (listed : entry ∈ entries) : ∃ result ∈ results, r entry result := by
  induction each with
  | nil => cases listed
  | @cons head first rest others given later ih =>
    rcases List.mem_cons.mp listed with rfl | listed
    · exact ⟨first, List.mem_cons_self, given⟩
    · have ⟨result, member, holds⟩ := ih listed
      exact ⟨result, List.mem_cons_of_mem _ member, holds⟩

theorem forall₂_right {r : α → β → Prop} {entries : List α} {results : List β} (each : List.Forall₂ r entries results)
    {result : β} (listed : result ∈ results) : ∃ entry ∈ entries, r entry result :=
  forall₂_left (r := flip r) each.flip listed

theorem forall₂_map {γ : Type} {r : α → β → Prop} {f : α → γ} {g : β → γ} {entries : List α} {results : List β}
    (each : List.Forall₂ r entries results) (same : ∀ entry result, r entry result → g result = f entry) :
    results.map g = entries.map f := by
  induction each with
  | nil => rfl
  | cons first _ ih => rw [List.map_cons, List.map_cons, same _ _ first, ih]

/-! Entries that are related where they are there. -/

section Rel

variable {γ δ : Type} {r r' : γ → δ → Prop} {a : Option γ} {b : Option δ}

theorem rel_left (related : Option.Rel r a b) {x : γ} (found : a = some x) : ∃ y, b = some y ∧ r x y := by
  cases related with
  | some held =>
    cases found
    exact ⟨_, rfl, held⟩
  | none => cases found

theorem rel_right (related : Option.Rel r a b) {y : δ} (found : b = some y) : ∃ x, a = some x ∧ r x y := by
  cases related with
  | some held =>
    cases found
    exact ⟨_, rfl, held⟩
  | none => cases found

theorem rel_refl {r : γ → γ → Prop} (reflexive : ∀ x, r x x) (a : Option γ) : Option.Rel r a a := by
  cases a with
  | none => exact .none
  | some x => exact .some (reflexive x)

theorem rel_imp (related : Option.Rel r a b) (weaker : ∀ x y, r x y → r' x y) : Option.Rel r' a b := by
  cases related with
  | some held => exact .some (weaker _ _ held)
  | none => exact .none

theorem rel_trans {ε : Type} {s : δ → ε → Prop} {t : γ → ε → Prop} {c : Option ε} (first : Option.Rel r a b)
    (later : Option.Rel s b c) (joined : ∀ x y z, r x y → s y z → t x z) : Option.Rel t a c := by
  cases first with
  | some held =>
    cases later with
    | some held' => exact .some (joined _ _ _ held held')
  | none =>
    cases later
    exact .none

end Rel

end Durable

/-! Texts joined by a character that may also stand in them. -/

namespace Joined

/-- The pieces of a text between the separators. -/
def parts (separator : Char) (text : String) : List (List Char) := text.toList.splitOn separator

def join (separator : Char) : List String → String
  | [] => ""
  | [text] => text
  | text :: rest => text ++ separator.toString ++ join separator rest

variable {separator : Char}

theorem parts_injective {left right : String} (same : parts separator left = parts separator right) :
    left = right := by
  have letters := congrArg ([separator].intercalate ·) same
  simp only [parts, List.intercalate_splitOn] at letters
  exact String.toList_injective letters

theorem parts_append (left right : String) :
    parts separator (left ++ separator.toString ++ right) = parts separator left ++ parts separator right := by
  have letters : (left ++ separator.toString ++ right).toList = left.toList ++ separator :: right.toList := by
    simp [String.toList_append, Char.toString]
  rw [parts, letters, List.splitOn_append_cons_self]
  rfl

theorem parts_absent {text : String} (absent : separator ∉ text.toList) : parts separator text = [text.toList] :=
  List.splitOn_eq_singleton absent

theorem parts_join {texts : List String} (nonempty : texts ≠ []) :
    parts separator (join separator texts) = texts.flatMap (parts separator) := by
  induction texts with
  | nil => exact absurd rfl nonempty
  | cons text rest ih =>
    cases rest with
    | nil => rw [join, List.flatMap_singleton]
    | cons next more =>
      have tail := ih (List.cons_ne_nil next more)
      rw [join, parts_append, tail, ← List.flatMap_cons]
      exact List.cons_ne_nil next more

theorem join_eq_iff {left right : List String} (nonempty : left ≠ []) (nonempty' : right ≠ []) :
    join separator left = join separator right ↔
      left.flatMap (parts separator) = right.flatMap (parts separator) := by
  rw [← parts_join nonempty, ← parts_join nonempty']
  exact ⟨congrArg _, parts_injective⟩

end Joined
