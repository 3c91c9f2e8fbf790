

namespace Durable

variable {κ ρ : Type}

theorem nodup_map_append_one (key : ρ → κ) {rows : List ρ} {r : ρ}
    (distinct : (rows.map key).Nodup) (fresh : key r ∉ rows.map key) :
    ((rows ++ [r]).map key).Nodup := by
  rw [List.map_append, List.nodup_append]
  refine ⟨distinct, by simp, ?_⟩
  rintro k member _ last rfl
  simp only [List.map_cons, List.map_nil, List.mem_singleton] at last
  exact fresh (last ▸ member)

theorem find?_of_nodup [DecidableEq κ] (key : ρ → κ) {rows : List ρ} {r : ρ}
    (distinct : (rows.map key).Nodup) (member : r ∈ rows) :
    rows.find? (fun other => key other = key r) = some r := by
  induction rows with
  | nil => cases member
  | cons head tail ih =>
    obtain ⟨apart, distinct⟩ := List.nodup_cons.mp distinct
    rcases List.mem_cons.mp member with rfl | member
    · simp
    · have other : key head ≠ key r := fun same => apart (same ▸ List.mem_map_of_mem member)
      simp only [List.find?_cons, other, decide_false]
      exact ih distinct member

theorem find?_key_some [DecidableEq κ] (key : ρ → κ) {rows : List ρ} {k : κ} {r : ρ}
    (distinct : (rows.map key).Nodup) :
    rows.find? (fun other => key other = k) = some r ↔ r ∈ rows ∧ key r = k := by
  refine ⟨fun found => ⟨List.mem_of_find?_eq_some found, by simpa using List.find?_some found⟩, ?_⟩
  rintro ⟨member, rfl⟩
  exact find?_of_nodup key distinct member

end Durable

namespace Durable

variable {κ ρ : Type} [DecidableEq κ]

section
variable (stream : ρ → κ) (sequence : ρ → Nat)

/-- The rows of one stream in the order they were appended. -/
def streamRows (rows : List ρ) (k : κ) : List ρ := rows.filter fun r => stream r = k

/-- `COALESCE(MAX(sequence),0)+1` over one stream. -/
def nextSequence (rows : List ρ) (k : κ) : Nat :=
  ((streamRows stream rows k).map sequence).foldl max 0 + 1

/-- Every stream is numbered 1, 2, 3, … in the order its rows were appended. -/
def Numbered (rows : List ρ) : Prop :=
  ∀ k, (streamRows stream rows k).map sequence =
    List.range' 1 (streamRows stream rows k).length

end

variable {stream : ρ → κ} {sequence : ρ → Nat}

theorem streamRows_append (rows : List ρ) (r : ρ) (k : κ) :
    streamRows stream (rows ++ [r]) k =
      if stream r = k then streamRows stream rows k ++ [r] else streamRows stream rows k := by
  by_cases here : stream r = k <;> simp [streamRows, List.filter_append, here]

theorem foldl_max_range' (n : Nat) : (List.range' 1 n).foldl max 0 = n := by
  induction n with
  | zero => rfl
  | succ n ih => rw [List.range'_1_concat, List.foldl_append, ih]; simp; omega

theorem Numbered.nextSequence {rows : List ρ} (numbered : Numbered stream sequence rows) (k : κ) :
    nextSequence stream sequence rows k = (streamRows stream rows k).length + 1 := by
  rw [Durable.nextSequence, numbered k, foldl_max_range']

theorem Numbered.nil : Numbered stream sequence [] := fun _ => rfl

theorem Numbered.append {rows : List ρ} {r : ρ} (numbered : Numbered stream sequence rows)
    (next : sequence r = Durable.nextSequence stream sequence rows (stream r)) :
    Numbered stream sequence (rows ++ [r]) := by
  intro k
  rw [streamRows_append]
  split
  · rename_i here
    subst here
    rw [List.map_append, List.length_append, numbered (stream r), List.length_singleton,
      List.range'_1_concat, List.map_singleton, next, numbered.nextSequence, Nat.add_comm 1]
  · exact numbered k

theorem nextSequence_fresh (rows : List ρ) (k : κ) {r : ρ} (member : r ∈ rows)
    (here : stream r = k) : sequence r < Durable.nextSequence stream sequence rows k := by
  have bound : ∀ (numbers : List Nat) (start n : Nat), n = start ∨ n ∈ numbers →
      n ≤ numbers.foldl max start := by
    intro numbers
    induction numbers with
    | nil => intro start n held; simpa using held.elim Nat.le_of_eq (by simp)
    | cons head tail ih =>
      intro start n held
      rcases held with rfl | held
      · exact Nat.le_trans (Nat.le_max_left n head) (ih _ _ (.inl rfl))
      · rcases List.mem_cons.mp held with rfl | held
        · exact Nat.le_trans (Nat.le_max_right start n) (ih _ _ (.inl rfl))
        · exact ih _ _ (.inr held)
  have listed : sequence r ∈ (streamRows stream rows k).map sequence :=
    List.mem_map_of_mem (by simp [streamRows, member, here])
  have := bound _ 0 _ (.inr listed)
  unfold Durable.nextSequence
  omega

end Durable
