import Fala.Durable.Rows
import Fala.Durable.Table

namespace Durable

variable {κ ι ρ : Type}

/-- The rows of a table that are only ever appended, under its two unique keys. -/
structure Ledger (primary : ρ → κ) (unique : ρ → ι) where
  rows : List ρ
  primaryDistinct : (rows.map primary).Nodup
  uniqueDistinct : (rows.map unique).Nodup

namespace Ledger

variable {primary : ρ → κ} {unique : ρ → ι}

def empty : Ledger primary unique := ⟨[], List.nodup_nil, List.nodup_nil⟩

theorem ext_rows {left right : Ledger primary unique} (same : left.rows = right.rows) :
    left = right := by
  cases left; cases right; cases same; rfl

instance [DecidableEq ρ] : DecidableEq (Ledger primary unique) :=
  fun left right => decidable_of_iff (left.rows = right.rows) ⟨ext_rows, congrArg rows⟩

section
variable [DecidableEq κ] [DecidableEq ι]

/-- `INSERT`, refused when one of the keys is taken. -/
def append? (l : Ledger primary unique) (r : ρ) : Option (Ledger primary unique) :=
  if fresh : primary r ∉ l.rows.map primary ∧ unique r ∉ l.rows.map unique then
    some ⟨l.rows ++ [r], nodup_map_append_one primary l.primaryDistinct fresh.1,
      nodup_map_append_one unique l.uniqueDistinct fresh.2⟩
  else none

theorem append?_some {l l' : Ledger primary unique} {r : ρ} :
    l.append? r = some l' ↔
      (primary r ∉ l.rows.map primary ∧ unique r ∉ l.rows.map unique) ∧
        l'.rows = l.rows ++ [r] := by
  unfold append?
  split
  · rename_i fresh
    refine ⟨fun same => ?_, fun same => congrArg some (ext_rows same.2.symm)⟩
    cases same
    exact ⟨fresh, rfl⟩
  · rename_i taken
    exact ⟨(nomatch ·), fun same => absurd same.1 taken⟩

theorem append?_of_fresh {l : Ledger primary unique} {r : ρ}
    (fresh : primary r ∉ l.rows.map primary) (fresh' : unique r ∉ l.rows.map unique) :
    ∃ l', l.append? r = some l' ∧ l'.rows = l.rows ++ [r] := by
  unfold append?
  rw [dif_pos ⟨fresh, fresh'⟩]
  exact ⟨_, rfl, rfl⟩

end

variable [DecidableEq ι]

/-- The row under a unique key. -/
def find? (l : Ledger primary unique) (k : ι) : Option ρ := l.rows.find? fun r => unique r = k

theorem find?_some {l : Ledger primary unique} {k : ι} {r : ρ} :
    l.find? k = some r ↔ r ∈ l.rows ∧ unique r = k :=
  find?_key_some unique l.uniqueDistinct

theorem find?_none {l : Ledger primary unique} {k : ι} :
    l.find? k = none ↔ k ∉ l.rows.map unique := by
  simp [find?]

omit [DecidableEq ι] in
theorem filter_length_le {l : Ledger primary unique} {k : ι} {p : ρ → Bool}
    (under : ∀ r ∈ l.rows, p r = true → unique r = k) : (l.rows.filter p).length ≤ 1 := by
  have same : (l.rows.filter p).map unique = List.replicate (l.rows.filter p).length k := by
    rw [← @List.length_map _ _ (l.rows.filter p) unique]
    apply List.eq_replicate_of_mem
    intro i member
    obtain ⟨r, here, rfl⟩ := List.mem_map.mp member
    exact under r (List.mem_filter.mp here).1 (List.mem_filter.mp here).2
  have distinct : ((l.rows.filter p).map unique).Nodup :=
    List.Nodup.sublist (List.Sublist.map _ List.filter_sublist) l.uniqueDistinct
  rw [same] at distinct
  exact List.nodup_replicate.mp distinct

theorem find?_append {l l' : Ledger primary unique} {r : ρ} (rows : l'.rows = l.rows ++ [r])
    (k : ι) (found : (l.find? k).isSome ∨ unique r ≠ k) : l'.find? k = l.find? k := by
  simp only [find?, rows, List.find?_append]
  cases here : l.rows.find? fun r => decide (unique r = k) with
  | some stored => rfl
  | none =>
    rcases found with found | other
    · simp [find?, here] at found
    · simp [other]

end Ledger
end Durable

namespace Durable

variable {κ ι ρ : Type}

/-- The rows that are left by a `DELETE`. -/
def Table.filter [DecidableEq κ] {key : ρ → κ} (t : Table key) (p : ρ → Bool) : Table key :=
  ⟨t.rows.filter p, (List.filter_sublist.map key).nodup t.distinct⟩

def Ledger.filter {primary : ρ → κ} {unique : ρ → ι} (l : Ledger primary unique) (p : ρ → Bool) :
    Ledger primary unique :=
  ⟨l.rows.filter p, (List.filter_sublist.map primary).nodup l.primaryDistinct,
    (List.filter_sublist.map unique).nodup l.uniqueDistinct⟩

@[simp] theorem Table.filter_rows [DecidableEq κ] {key : ρ → κ} (t : Table key) (p : ρ → Bool) :
    (t.filter p).rows = t.rows.filter p := rfl

@[simp] theorem Ledger.filter_rows {primary : ρ → κ} {unique : ρ → ι} (l : Ledger primary unique) (p : ρ → Bool) :
    (l.filter p).rows = l.rows.filter p := rfl

end Durable
