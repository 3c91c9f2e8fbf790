import Mathlib.Data.List.Basic

/-! The first of the eligible elements of a list, in a strict order. -/

namespace Queue

variable {α : Type}

/-- A strict order that a program computes. -/
structure Strict (before : α → α → Bool) : Prop where
  irrefl : ∀ a, before a a = false
  trans : ∀ {a b c}, before a b = true → before b c = true → before a c = true

/-- An eligible element that no other eligible one comes before. -/
structure Least (before : α → α → Bool) (eligible : α → Bool) (rows : List α) (row : α) : Prop where
  member : row ∈ rows
  counted : eligible row = true
  first : ∀ other ∈ rows, eligible other = true → before other row = false

/-- The selection is a first eligible element, or there is none. -/
def Picks (before : α → α → Bool) (eligible : α → Bool) (rows : List α) : Option α → Prop
  | none => ∀ row ∈ rows, eligible row = false
  | some row => Least before eligible rows row

/-- No two elements of the list are left unordered. -/
def Connex (before : α → α → Bool) (rows : List α) : Prop :=
  ∀ a ∈ rows, ∀ b ∈ rows, before a b = false → before b a = false → a = b

variable {before : α → α → Bool} {eligible : α → Bool} {rows seen : List α} {row first : α} {held : Option α}

theorem Strict.asymm (strict : Strict before) {a b : α} (earlier : before a b = true) : before b a = false := by
  apply Bool.eq_false_iff.mpr
  intro later
  have around := strict.trans earlier later
  rw [strict.irrefl] at around
  cases around

namespace Picks

theorem start : Picks before eligible [] none := nofun

theorem skip (picks : Picks before eligible seen held) (ineligible : eligible row = false) :
    Picks before eligible (seen ++ [row]) held := by
  cases held with
  | none =>
    intro other member
    rcases List.mem_append.mp member with member | member
    · exact picks other member
    · rw [List.mem_singleton.mp member]
      exact ineligible
  | some first =>
    refine ⟨List.mem_append_left _ picks.member, picks.counted, ?_⟩
    intro other member counted
    rcases List.mem_append.mp member with member | member
    · exact picks.first other member counted
    · rw [List.mem_singleton.mp member, ineligible] at counted
      cases counted

theorem begin (strict : Strict before) (picks : Picks before eligible seen none) (counted : eligible row = true) :
    Picks before eligible (seen ++ [row]) (some row) := by
  refine ⟨List.mem_append_right _ (List.mem_singleton_self row), counted, ?_⟩
  intro other member eligible
  rcases List.mem_append.mp member with member | member
  · rw [picks other member] at eligible
    cases eligible
  · rw [List.mem_singleton.mp member]
    exact strict.irrefl row

theorem step (strict : Strict before) (picks : Picks before eligible seen (some first)) (counted : eligible row = true) :
    Picks before eligible (seen ++ [row]) (some (if before row first then row else first)) := by
  by_cases earlier : before row first = true
  · rw [if_pos earlier]
    refine ⟨List.mem_append_right _ (List.mem_singleton_self row), counted, ?_⟩
    intro other member eligible
    rcases List.mem_append.mp member with member | member
    · apply Bool.eq_false_iff.mpr
      intro before
      have around := strict.trans before earlier
      rw [picks.first other member eligible] at around
      cases around
    · rw [List.mem_singleton.mp member]
      exact strict.irrefl row
  · rw [if_neg earlier]
    refine ⟨List.mem_append_left _ picks.member, picks.counted, ?_⟩
    intro other member eligible
    rcases List.mem_append.mp member with member | member
    · exact picks.first other member eligible
    · rw [List.mem_singleton.mp member]
      exact Bool.eq_false_iff.mpr earlier

theorem congr {eligible' : α → Bool} {rows' : List α} (picks : Picks before eligible rows held)
    (members : ∀ row, row ∈ rows' ↔ row ∈ rows) (same : ∀ row ∈ rows, eligible' row = eligible row) :
    Picks before eligible' rows' held := by
  cases held with
  | none =>
    intro row member
    have member := (members row).mp member
    rw [same row member]
    exact picks row member
  | some first =>
    refine ⟨(members first).mpr picks.member, (same first picks.member).trans picks.counted, ?_⟩
    intro other member counted
    have member := (members other).mp member
    rw [same other member] at counted
    exact picks.first other member counted

theorem among {rows' : List α} (picks : Picks before eligible rows held)
    (same : ∀ row, eligible row = true → (row ∈ rows' ↔ row ∈ rows)) : Picks before eligible rows' held := by
  cases held with
  | none =>
    intro row member
    apply Bool.eq_false_iff.mpr
    intro counted
    have none := picks row ((same row counted).mp member)
    rw [counted] at none
    cases none
  | some first =>
    refine ⟨(same first picks.counted).mpr picks.member, picks.counted, ?_⟩
    intro other member counted
    exact picks.first other ((same other counted).mp member) counted

theorem filtered (picks : Picks before (fun _ => true) (rows.filter eligible) held) : Picks before eligible rows held := by
  have within : Picks before eligible (rows.filter eligible) held := by
    apply picks.congr fun row => Iff.rfl
    intro row member
    exact List.of_mem_filter member
  apply within.among
  intro row counted
  exact ⟨fun member => List.mem_filter.mpr ⟨member, counted⟩, List.mem_of_mem_filter⟩

theorem unique {held held' : Option α} (connex : Connex before rows) (picks : Picks before eligible rows held)
    (picks' : Picks before eligible rows held') : held = held' := by
  cases held with
  | none =>
    cases held' with
    | none => rfl
    | some row =>
      have counted := picks'.counted
      rw [picks row picks'.member] at counted
      cases counted
  | some row =>
    cases held' with
    | none =>
      have counted := picks.counted
      rw [picks' row picks.member] at counted
      cases counted
    | some row' =>
      apply congrArg some
      apply connex row picks.member row' picks'.member
      · exact picks'.first row picks.member picks.counted
      · exact picks.first row' picks'.member picks'.counted

end Picks

theorem exists_picks (strict : Strict before) (eligible : α → Bool) (rows : List α) :
    ∃ held, Picks before eligible rows held := by
  have scans : ∀ (rows seen : List α), (∃ held, Picks before eligible seen held) →
      ∃ held, Picks before eligible (seen ++ rows) held := by
    intro rows
    induction rows with
    | nil =>
      intro seen picked
      rw [List.append_nil]
      exact picked
    | cons row rest ih =>
      intro seen ⟨held, picks⟩
      rw [← List.singleton_append, ← List.append_assoc]
      apply ih
      by_cases counted : eligible row = true
      · cases held with
        | none => exact ⟨_, picks.begin strict counted⟩
        | some first => exact ⟨_, picks.step strict counted⟩
      · exact ⟨held, picks.skip (Bool.eq_false_iff.mpr counted)⟩
  exact scans rows [] ⟨none, Picks.start⟩

/-- Selections by different notions of eligibility are one if and only if the first element that any of them takes for
    eligible is eligible for all. -/
theorem picked_eq_iff {ι : Type} {counts : ι → α → Bool} {picked : ι → Option α} {any : α → Bool} (strict : Strict before)
    (connex : Connex before rows) (picks : ∀ i, Picks before (counts i) rows (picked i))
    (union : ∀ row ∈ rows, any row = true ↔ ∃ i, counts i row = true) :
    (∀ i j, picked i = picked j) ↔ ∀ row, Least before any rows row → ∀ i, counts i row = true := by
  have selected : ∀ row i, Least before any rows row → counts i row = true → picked i = some row := by
    intro row i least counted
    apply (picks i).unique connex
    refine ⟨least.member, counted, ?_⟩
    intro other member eligible
    exact least.first other member ((union other member).mpr ⟨i, eligible⟩)
  constructor
  · intro same row least j
    obtain ⟨i, counted⟩ := (union row least.member).mp least.counted
    have here : picked j = some row := (same j i).trans (selected row i least counted)
    have picks := picks j
    rw [here] at picks
    exact picks.counted
  · intro all i j
    obtain ⟨held, first⟩ := exists_picks strict any rows
    cases held with
    | none =>
      have nothing : ∀ i, picked i = none := by
        intro i
        apply (picks i).unique connex
        intro row member
        apply Bool.eq_false_iff.mpr
        intro counted
        have none := first row member
        rw [(union row member).mpr ⟨i, counted⟩] at none
        cases none
      rw [nothing i, nothing j]
    | some row => rw [selected row i first (all row first i), selected row j first (all row first j)]

end Queue
