import Mathlib.Data.List.Nodup
import Fala.Durable.Table

namespace Durable

variable {κ ν : Type} [DecidableEq κ]

/-- A dictionary, which lists its keys in the order they were first set. -/
abbrev Dict (κ ν : Type) := Table (Prod.fst : κ × ν → κ)

namespace Dict

def get (d : Dict κ ν) (k : κ) : Option ν := (d.find? k).map Prod.snd

def set (d : Dict κ ν) (k : κ) (v : ν) : Dict κ ν := d.upsert (k, v)

@[simp] theorem get_empty (k : κ) : get (Table.empty : Dict κ ν) k = none := rfl

theorem get_set (d : Dict κ ν) (k k' : κ) (v : ν) :
    (d.set k v).get k' = if k = k' then some v else d.get k' := by
  unfold get set
  rw [Table.find?_upsert]
  by_cases same : k = k' <;> simp [same]

def erase (d : Dict κ ν) (k : κ) : Dict κ ν where
  rows := d.rows.filter fun entry => entry.1 ≠ k
  distinct := d.distinct.sublist (List.filter_sublist.map Prod.fst)

theorem get_erase (d : Dict κ ν) (k k' : κ) : (d.erase k).get k' = if k = k' then none else d.get k' := by
  unfold get
  rw [Table.find?_filter (t := d) rfl k']
  cases found : d.find? k' with
  | none => simp
  | some entry =>
    have here : entry.1 = k' := Table.find?_key found
    by_cases same : k = k'
    · simp [Option.filter, here, same]
    · have apart : k' ≠ k := fun back => same back.symm
      simp [Option.filter, here, same, apart]

theorem get_some {d : Dict κ ν} {k : κ} {v : ν} : d.get k = some v ↔ (k, v) ∈ d.rows := by
  unfold get
  rw [Option.map_eq_some_iff]
  constructor
  · rintro ⟨entry, found, rfl⟩
    have ⟨member, here⟩ := Table.find?_some.mp found
    exact here ▸ member
  · intro member
    exact ⟨(k, v), Table.find?_some.mpr ⟨member, rfl⟩, rfl⟩

theorem map_set {β : Type} {d : Dict κ ν} {k : κ} {old v : ν} (held : d.get k = some old) (f : κ × ν → β)
    (same : f (k, v) = f (k, old)) : (d.set k v).rows.map f = d.rows.map f := by
  have taken : k ∈ d.rows.map Prod.fst := List.mem_map_of_mem (get_some.mp held)
  have rows : (d.set k v).rows = d.rows.map fun entry => if entry.1 = k then (k, v) else entry := if_pos taken
  rw [rows, List.map_map]
  refine List.map_congr_left fun entry member => ?_
  by_cases here : entry.1 = k
  · have value : d.get k = some entry.2 := get_some.mpr (here ▸ member)
    rw [held] at value
    cases value
    simp only [Function.comp, here, if_true, same]
    exact congrArg f (Prod.ext here.symm rfl)
  · simp [here]

theorem set_same {d : Dict κ ν} {k : κ} {v : ν} (held : d.get k = some v) : d.set k v = d := by
  apply Table.ext_rows
  have rows := map_set held id (v := v) rfl
  simpa using rows

theorem mem_set {d : Dict κ ν} {k : κ} {v : ν} {entry : κ × ν} (member : entry ∈ (d.set k v).rows) :
    entry = (k, v) ∨ (entry ∈ d.rows ∧ entry.1 ≠ k) := Table.mem_upsert.mp member

/-- Entries set one after another. -/
def setEach (d : Dict κ ν) : List (κ × ν) → Dict κ ν
  | [] => d
  | entry :: rest => setEach (d.set entry.1 entry.2) rest

theorem get_setEach {entries : List (κ × ν)} (distinct : (entries.map Prod.fst).Nodup) (d : Dict κ ν) (k : κ) :
    (d.setEach entries).get k = ((entries.find? fun entry => entry.1 = k).map Prod.snd).or (d.get k) := by
  induction entries generalizing d with
  | nil => rfl
  | cons entry rest ih =>
    obtain ⟨apart, later⟩ := List.nodup_cons.mp distinct
    rw [setEach, ih later, get_set]
    by_cases here : entry.1 = k
    · have gone : rest.find? (fun other => other.1 = k) = none := by
        rw [List.find?_eq_none]
        intro other member same
        have same : other.1 = k := of_decide_eq_true same
        exact apart (List.mem_map.mpr ⟨other, member, same.trans here.symm⟩)
      simp [here, gone]
    · simp [here]

/-- The entries of another dictionary, each value seen through `f`. -/
theorem get_setEach_map {μ : Type} (d : Dict κ μ) (e : Dict κ ν) (f : ν → μ) (k : κ) :
    (d.setEach (e.rows.map fun entry => (entry.1, f entry.2))).get k = ((e.get k).map f).or (d.get k) := by
  have keys : (e.rows.map fun entry => (entry.1, f entry.2)).map Prod.fst = e.rows.map Prod.fst := by
    rw [List.map_map]
    rfl
  rw [get_setEach (keys ▸ e.distinct), List.find?_map]
  unfold get Table.find?
  rw [Option.map_map, Option.map_map]
  rfl

theorem get_setEach_perm {entries others : List (κ × ν)} (same : entries.Perm others)
    (distinct : (others.map Prod.fst).Nodup) (d : Dict κ ν) (k : κ) :
    (d.setEach entries).get k = (d.setEach others).get k := by
  have distinct' : (entries.map Prod.fst).Nodup := (same.map Prod.fst).nodup_iff.mpr distinct
  have found : entries.find? (fun entry => entry.1 = k) = others.find? fun entry => entry.1 = k := by
    ext entry
    rw [find?_key_some Prod.fst distinct', find?_key_some Prod.fst distinct, same.mem_iff]
  rw [get_setEach distinct', get_setEach distinct, found]

theorem rows_perm {d e : Dict κ ν} (same : ∀ k, d.get k = e.get k) : d.rows.Perm e.rows := by
  refine (List.perm_ext_iff_of_nodup (.of_map Prod.fst d.distinct) (.of_map Prod.fst e.distinct)).mpr ?_
  intro entry
  have here := same entry.1
  constructor
  · intro member
    exact get_some.mp (here.symm.trans (get_some.mpr member))
  · intro member
    exact get_some.mp (here.trans (get_some.mpr member))

end Dict
end Durable
