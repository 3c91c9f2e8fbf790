namespace Durable.Assoc

variable {κ α β : Type} [DecidableEq κ]

/-! Lists of entries, of which the first under a key counts and a new key comes last. -/

def find (key : κ) : List (κ × α) → Option α
  | [] => none
  | (other, held) :: rest => if other = key then some held else find key rest

def put (key : κ) (value : α) : List (κ × α) → List (κ × α)
  | [] => [(key, value)]
  | (other, held) :: rest =>
    if other = key then (key, value) :: rest else (other, held) :: put key value rest

def mapValues (f : α → β) (entries : List (κ × α)) : List (κ × β) :=
  entries.map fun entry => (entry.1, f entry.2)

@[simp] theorem find_nil (key : κ) : find key ([] : List (κ × α)) = none := rfl

theorem find_mapValues (f : α → β) (key : κ) (entries : List (κ × α)) :
    find key (mapValues f entries) = (find key entries).map f := by
  induction entries with
  | nil => rfl
  | cons head rest ih =>
    by_cases here : head.1 = key
    · simp [find, mapValues, here]
    · simpa [find, mapValues, here] using ih

theorem put_mapValues (f : α → β) (key : κ) (value : α) (entries : List (κ × α)) :
    put key (f value) (mapValues f entries) = mapValues f (put key value entries) := by
  induction entries with
  | nil => rfl
  | cons head rest ih =>
    by_cases here : head.1 = key
    · simp [put, mapValues, here]
    · simpa [put, mapValues, here] using ih

/-! Entries under different keys. -/

theorem put_new {name : κ} {value : α} {entries : List (κ × α)} (new : name ∉ entries.map Prod.fst) :
    put name value entries = entries ++ [(name, value)] := by
  induction entries with
  | nil => rfl
  | cons head rest ih =>
    have apart : head.1 ≠ name := fun same => new (same ▸ List.mem_cons_self)
    have later : name ∉ rest.map Prod.fst := fun listed => new (List.mem_cons_of_mem _ listed)
    rw [put, if_neg apart, ih later]
    rfl

theorem foldl_put_distinct {held entries : List (κ × α)} (distinct : ((held ++ entries).map Prod.fst).Nodup) :
    entries.foldl (fun held entry => put entry.1 entry.2 held) held = held ++ entries := by
  induction entries generalizing held with
  | nil => simp
  | cons head rest ih =>
    rw [List.map_append, List.map_cons] at distinct
    have ⟨_, _, apart⟩ := List.nodup_append.mp distinct
    have new : head.1 ∉ held.map Prod.fst := fun listed => apart _ listed _ List.mem_cons_self rfl
    rw [List.foldl_cons, put_new new, ih]
    · rw [List.append_assoc]
      rfl
    · rw [List.append_assoc, List.singleton_append, List.map_append, List.map_cons]
      exact distinct

theorem find_mem {key : κ} {value : α} {entries : List (κ × α)} (found : find key entries = some value) :
    (key, value) ∈ entries := by
  induction entries with
  | nil => cases found
  | cons head rest ih =>
    by_cases here : head.1 = key
    · simp only [find, here, if_true, Option.some.injEq] at found
      rw [← here, ← found]
      exact List.mem_cons_self
    · rw [find, if_neg here] at found
      exact List.mem_cons_of_mem _ (ih found)

theorem find_of_mem {key : κ} {value : α} {entries : List (κ × α)} (distinct : (entries.map Prod.fst).Nodup)
    (listed : (key, value) ∈ entries) : find key entries = some value := by
  induction entries with
  | nil => cases listed
  | cons head rest ih =>
    have ⟨new, later⟩ := List.nodup_cons.mp distinct
    rcases List.mem_cons.mp listed with same | listed
    · rw [find, if_pos (congrArg Prod.fst same).symm, ← same]
    · have apart : head.1 ≠ key := by
        intro same
        rw [same] at new
        exact new (List.mem_map.mpr ⟨(key, value), listed, rfl⟩)
      rw [find, if_neg apart, ih later listed]

theorem find_isSome {key : κ} {entries : List (κ × α)} : (find key entries).isSome = true ↔ key ∈ entries.map Prod.fst := by
  induction entries with
  | nil => simp
  | cons head rest ih =>
    by_cases here : head.1 = key
    · simp [find, here]
    · have apart : key ≠ head.1 := fun same => here same.symm
      simp only [find, here, if_false, ih, List.map_cons, List.mem_cons, apart, false_or]

end Durable.Assoc
