import Mathlib.Algebra.GroupWithZero.Nat
import Mathlib.Algebra.Order.BigOperators.Group.Finset
import Fala.Durable.Rows

namespace Durable

variable {κ ρ : Type} [DecidableEq κ]

/-- The rows of a table under its primary key. -/
structure Table (key : ρ → κ) where
  rows : List ρ
  distinct : (rows.map key).Nodup
  deriving DecidableEq

namespace Table

variable {key : ρ → κ}

def empty : Table key := ⟨[], .nil⟩

def find? (t : Table key) (k : κ) : Option ρ := t.rows.find? fun r => key r = k

theorem find?_some {t : Table key} {k : κ} {r : ρ} :
    t.find? k = some r ↔ r ∈ t.rows ∧ key r = k :=
  find?_key_some key t.distinct

theorem find?_key {t : Table key} {k : κ} {r : ρ} (found : t.find? k = some r) : key r = k :=
  (find?_some.mp found).2

theorem find?_none {t : Table key} {k : κ} : t.find? k = none ↔ k ∉ t.rows.map key := by
  simp [find?]

theorem filter_key {t : Table key} {k : κ} {r : ρ} (found : t.find? k = some r) :
    t.rows.filter (fun held => key held = k) = [r] := by
  obtain ⟨member, here⟩ := find?_some.mp found
  have alone : ∀ held ∈ t.rows.filter (fun held => key held = k), held = r := by
    intro held listed
    obtain ⟨listed, same⟩ := List.mem_filter.mp listed
    have also := find?_some.mpr ⟨listed, of_decide_eq_true same⟩
    exact Option.some.inj (also.symm.trans found)
  have distinct : ((t.rows.filter fun held => key held = k).map key).Nodup :=
    t.distinct.sublist (List.filter_sublist.map key)
  have listed : r ∈ t.rows.filter fun held => key held = k :=
    List.mem_filter.mpr ⟨member, decide_eq_true here⟩
  cases rows : t.rows.filter fun held => key held = k with
  | nil =>
    rw [rows] at listed
    cases listed
  | cons first rest =>
    rw [rows] at alone distinct
    cases rest with
    | nil => rw [alone first (List.mem_singleton_self _)]
    | cons second rest =>
      have one := alone first (by simp)
      have two := alone second (by simp)
      simp [one, two] at distinct

theorem find?_of_filter {t : Table key} {k : κ} {r : ρ}
    (rows : t.rows.filter (fun held => key held = k) = [r]) : t.find? k = some r := by
  have listed : r ∈ t.rows.filter fun held => key held = k := rows ▸ List.mem_singleton_self r
  obtain ⟨member, here⟩ := List.mem_filter.mp listed
  exact find?_some.mpr ⟨member, of_decide_eq_true here⟩

omit [DecidableEq κ] in
theorem ext_rows {left right : Table key} (same : left.rows = right.rows) : left = right := by
  cases left; cases right; cases same; rfl

/-- `INSERT`, refused when the key is taken. -/
def insert? (t : Table key) (r : ρ) : Option (Table key) :=
  if fresh : key r ∉ t.rows.map key then
    some ⟨t.rows ++ [r], nodup_map_append_one key t.distinct fresh⟩
  else none

theorem insert?_some {t t' : Table key} {r : ρ} :
    t.insert? r = some t' ↔ t.find? (key r) = none ∧ t'.rows = t.rows ++ [r] := by
  unfold insert?
  rw [find?_none]
  split
  · rename_i fresh
    refine ⟨fun same => ?_, fun same => congrArg some (ext_rows same.2.symm)⟩
    cases same
    exact ⟨fresh, rfl⟩
  · rename_i taken
    exact ⟨(nomatch ·), fun same => absurd same.1 taken⟩

theorem find?_insert {t t' : Table key} {r : ρ} (inserted : t.insert? r = some t') (k : κ) :
    t'.find? k = if key r = k then some r else t.find? k := by
  obtain ⟨fresh, rows⟩ := insert?_some.mp inserted
  split
  · rename_i same
    exact find?_some.mpr ⟨by simp [rows], same⟩
  · rename_i other
    simp [find?, rows, List.find?_append, other]

theorem insert?_of_fresh {t : Table key} {r : ρ} (fresh : t.find? (key r) = none) :
    ∃ t', t.insert? r = some t' := by
  unfold insert?
  rw [dif_pos (find?_none.mp fresh)]
  exact ⟨_, rfl⟩

/-- `UPDATE` of the row under `k`; the key columns are not assigned. -/
def modify (t : Table key) (k : κ) (f : ρ → ρ) (keeps : ∀ r, key (f r) = key r) : Table key where
  rows := t.rows.map fun r => if key r = k then f r else r
  distinct := by
    have same : (key ∘ fun r => if key r = k then f r else r) = key := by
      funext r
      by_cases h : key r = k <;> simp [h, keeps]
    rw [List.map_map, same]
    exact t.distinct

theorem find?_modify (t : Table key) (k k' : κ) (f : ρ → ρ) (keeps : ∀ r, key (f r) = key r) :
    (t.modify k f keeps).find? k' = if k' = k then (t.find? k).map f else t.find? k' := by
  have kept (r : ρ) : key (if key r = k then f r else r) = key r := by
    by_cases h : key r = k <;> simp [h, keeps]
  simp only [find?, modify, List.find?_map, Function.comp_def, kept]
  split
  · rename_i same
    subst same
    cases found : t.rows.find? fun r => decide (key r = k') with
    | none => rfl
    | some r => simp [show key r = k' by simpa using List.find?_some found]
  · rename_i other
    cases found : t.rows.find? fun r => decide (key r = k') with
    | none => rfl
    | some r =>
      have here : key r = k' := by simpa using List.find?_some found
      simp [here, other]

theorem find?_modified {t : Table key} {k : κ} {row : ρ} (found : t.find? k = some row)
    (f : ρ → ρ) (keeps : ∀ r, key (f r) = key r) :
    (t.modify k f keeps).find? k = some (f row) := by
  rw [find?_modify, if_pos rfl, found, Option.map_some]

theorem filter_modify {t : Table key} {k : κ} {f : ρ → ρ} {keeps : ∀ r, key (f r) = key r}
    {p : ρ → Bool} (before : ∀ r ∈ t.rows, key r = k → p r = false)
    (after : ∀ r ∈ t.rows, key r = k → p (f r) = false) :
    (t.modify k f keeps).rows.filter p = t.rows.filter p := by
  have same : ∀ rows : List ρ, (∀ r ∈ rows, r ∈ t.rows) →
      (rows.map fun r => if key r = k then f r else r).filter p = rows.filter p := by
    intro rows held
    induction rows with
    | nil => rfl
    | cons r rest ih =>
      obtain ⟨here, later⟩ := List.forall_mem_cons.mp held
      rw [List.map_cons, List.filter_cons, List.filter_cons, ih later]
      by_cases found : key r = k
      · simp [found, before r here found, after r here found]
      · simp [found]
  exact same t.rows fun _ member => member

theorem any_modify {t : Table key} {k : κ} {row : ρ} {p : ρ → Bool}
    (found : t.find? k = some row) (f : ρ → ρ) (keeps : ∀ r, key (f r) = key r)
    (holds : p (f row) = true) : ((t.modify k f keeps).find? k).any p = true := by
  rw [find?_modified found, Option.any_some, holds]

/-- `INSERT … ON CONFLICT DO UPDATE SET` every column that is not a key. -/
def upsert (t : Table key) (row : ρ) : Table key where
  rows :=
    if key row ∈ t.rows.map key then t.rows.map fun old => if key old = key row then row else old
    else t.rows ++ [row]
  distinct := by
    split
    · have same : (key ∘ fun old => if key old = key row then row else old) = key := by
        funext old
        by_cases h : key old = key row <;> simp [h]
      rw [List.map_map, same]
      exact t.distinct
    · rename_i fresh
      exact nodup_map_append_one key t.distinct fresh

theorem mem_upsert {t : Table key} {row r : ρ} :
    r ∈ (t.upsert row).rows ↔ r = row ∨ (r ∈ t.rows ∧ key r ≠ key row) := by
  unfold upsert
  dsimp only
  split
  · rename_i taken
    have ⟨held, listed, here⟩ := List.mem_map.mp taken
    rw [List.mem_map]
    constructor
    · rintro ⟨old, member, rfl⟩
      by_cases same : key old = key row <;> simp [same, member]
    · rintro (rfl | ⟨member, other⟩)
      · exact ⟨held, listed, by simp [here]⟩
      · exact ⟨r, member, by simp [other]⟩
  · rename_i fresh
    have apart (member : r ∈ t.rows) : key r ≠ key row :=
      fun same => fresh (same ▸ List.mem_map_of_mem member)
    rw [List.mem_append, List.mem_singleton, or_comm]
    exact or_congr_right ⟨fun member => ⟨member, apart member⟩, And.left⟩

theorem find?_upsert (t : Table key) (row : ρ) (k : κ) :
    (t.upsert row).find? k = if key row = k then some row else t.find? k := by
  ext r
  rw [find?_some, mem_upsert]
  by_cases here : key row = k
  · subst here
    simp only [if_true, Option.some.injEq]
    constructor
    · rintro ⟨rfl | ⟨-, other⟩, same⟩
      · rfl
      · exact absurd same other
    · rintro rfl
      exact ⟨.inl rfl, rfl⟩
  · rw [if_neg here, find?_some]
    constructor
    · rintro ⟨rfl | ⟨member, -⟩, same⟩
      · exact absurd same here
      · exact ⟨member, same⟩
    · rintro ⟨member, same⟩
      exact ⟨.inr ⟨member, fun other => here (other.symm.trans same)⟩, same⟩

/-- An update of all rows that leaves their keys alone. -/
def mapRows (t : Table key) (f : ρ → ρ) (keeps : ∀ r, key (f r) = key r) : Table key where
  rows := t.rows.map f
  distinct := by
    rw [List.map_map, show key ∘ f = key from funext keeps]
    exact t.distinct

theorem find?_mapRows (t : Table key) (f : ρ → ρ) (keeps : ∀ r, key (f r) = key r) (k : κ) :
    (t.mapRows f keeps).find? k = (t.find? k).map f := by
  unfold find? mapRows
  rw [List.find?_map, show (fun r => decide (key r = k)) ∘ f = fun r => decide (key r = k) from
    funext fun r => by simp [keeps]]

theorem isSome_modify (t : Table key) (k k' : κ) (f : ρ → ρ) (keeps : ∀ r, key (f r) = key r) :
    ((t.modify k f keeps).find? k').isSome = (t.find? k').isSome := by
  rw [find?_modify]
  split
  · rename_i same
    rw [same, Option.isSome_map]
  · rfl

theorem mem_modify {t : Table key} {k : κ} {f : ρ → ρ} {keeps : ∀ r, key (f r) = key r} {r : ρ} :
    r ∈ (t.modify k f keeps).rows ↔
      (∃ old ∈ t.rows, key old = k ∧ f old = r) ∨ (r ∈ t.rows ∧ key r ≠ k) := by
  simp only [modify, List.mem_map]
  constructor
  · rintro ⟨old, member, rfl⟩
    by_cases h : key old = k
    · exact .inl ⟨old, member, h, by simp [h]⟩
    · exact .inr (by simp [h, member])
  · rintro (⟨old, member, here, rfl⟩ | ⟨member, other⟩)
    · exact ⟨old, member, by simp [here]⟩
    · exact ⟨r, member, by simp [other]⟩

theorem find?_filter {t t' : Table key} {p : ρ → Bool} (rows : t'.rows = t.rows.filter p) (k : κ) :
    t'.find? k = (t.find? k).filter p := by
  ext r
  rw [find?_some, rows, List.mem_filter, Option.filter_eq_some_iff, find?_some]
  grind

theorem upsert_filter {t t' : Table key} {p : ρ → Bool} {row : ρ} (rows : t'.rows = t.rows.filter p)
    (kept : p row = true) (old : ∀ held ∈ t.find? (key row), p held = true) :
    (t'.upsert row).rows = (t.upsert row).rows.filter p := by
  have taken : key row ∈ t'.rows.map key ↔ key row ∈ t.rows.map key := by
    rw [rows]
    simp only [List.mem_map, List.mem_filter]
    constructor
    · rintro ⟨held, ⟨member, _⟩, here⟩
      exact ⟨held, member, here⟩
    · rintro ⟨held, member, here⟩
      exact ⟨held, ⟨member, old held (find?_some.mpr ⟨member, here⟩)⟩, here⟩
  unfold upsert
  dsimp only
  by_cases present : key row ∈ t.rows.map key
  · rw [if_pos present, if_pos (taken.mpr present), rows]
    have every : ∀ part : List ρ, (∀ r ∈ part, r ∈ t.rows) →
        (part.filter p).map (fun held => if key held = key row then row else held) =
          (part.map fun held => if key held = key row then row else held).filter p := by
      intro part within
      induction part with
      | nil => rfl
      | cons held rest ih =>
        obtain ⟨member, later⟩ := List.forall_mem_cons.mp within
        rw [List.map_cons, List.filter_cons, List.filter_cons]
        by_cases here : key held = key row
        · have holds := old held (find?_some.mpr ⟨member, here⟩)
          rw [if_pos holds, if_pos here, if_pos kept, List.map_cons, if_pos here, ih later]
        · rw [if_neg here]
          by_cases holds : p held = true
          · rw [if_pos holds, if_pos holds, List.map_cons, if_neg here, ih later]
          · rw [if_neg holds, if_neg holds, ih later]
    exact every t.rows fun _ member => member
  · rw [if_neg present, if_neg (mt taken.mp present), rows, List.filter_append]
    simp [kept]

theorem filter_upsert {t : Table key} {p : ρ → Bool} {row : ρ} (out : p row = false)
    (old : ∀ held ∈ t.find? (key row), p held = false) : (t.upsert row).rows.filter p = t.rows.filter p := by
  unfold upsert
  dsimp only
  split
  · have every : ∀ part : List ρ, (∀ r ∈ part, r ∈ t.rows) →
        (part.map fun held => if key held = key row then row else held).filter p = part.filter p := by
      intro part within
      induction part with
      | nil => rfl
      | cons held rest ih =>
        obtain ⟨member, later⟩ := List.forall_mem_cons.mp within
        rw [List.map_cons, List.filter_cons, List.filter_cons, ih later]
        by_cases here : key held = key row
        · simp [here, out, old held (find?_some.mpr ⟨member, here⟩)]
        · simp [here]
    exact every t.rows fun _ member => member
  · rw [List.filter_append]
    simp [out]

end Table
end Durable

/-! Sums over the rows of a table. -/

namespace Durable.Table

variable {ρ κ : Type} [DecidableEq κ] {key : ρ → κ}

/-- The weights of all rows together. -/
def total (w : ρ → Nat) (t : Table key) : Nat := (t.rows.map w).sum

theorem total_eq (w : ρ → Nat) (t : Table key) :
    t.total w = ∑ k ∈ (t.rows.map key).toFinset, (t.find? k).elim 0 w := by
  rw [List.sum_toFinset _ t.distinct, List.map_map]
  refine congrArg List.sum (List.map_congr_left fun row member => ?_)
  have found : t.find? (key row) = some row := find?_some.mpr ⟨member, rfl⟩
  simp [found]

/-- Both tables hold a row under the same keys. -/
def SameKeys (t t' : Table key) : Prop := ∀ k, (t'.find? k).isSome = (t.find? k).isSome

theorem SameKeys.keys {t t' : Table key} (same : SameKeys t t') :
    (t'.rows.map key).toFinset = (t.rows.map key).toFinset := by
  ext k
  have held (s : Table key) : k ∈ s.rows.map key ↔ (s.find? k).isSome = true := by
    rw [← not_iff_not, ← find?_none]
    simp
  rw [List.mem_toFinset, List.mem_toFinset, held, held, same]

theorem total_le {w : ρ → Nat} {t t' : Table key} (same : SameKeys t t')
    (less : ∀ k, (t'.find? k).elim 0 w ≤ (t.find? k).elim 0 w) : t'.total w ≤ t.total w := by
  rw [total_eq, total_eq, same.keys]
  exact Finset.sum_le_sum fun k _ => less k

theorem total_lt {w : ρ → Nat} {t t' : Table key} (same : SameKeys t t')
    (less : ∀ k, (t'.find? k).elim 0 w ≤ (t.find? k).elim 0 w) {k : κ} {row : ρ}
    (found : t.find? k = some row) (strict : (t'.find? k).elim 0 w < w row) :
    t'.total w < t.total w := by
  rw [total_eq, total_eq, same.keys]
  refine Finset.sum_lt_sum (fun k _ => less k) ⟨k, ?_, by simpa [found] using strict⟩
  obtain ⟨member, here⟩ := find?_some.mp found
  exact List.mem_toFinset.mpr (here ▸ List.mem_map_of_mem member)

end Durable.Table
