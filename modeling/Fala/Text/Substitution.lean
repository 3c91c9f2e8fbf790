import Mathlib.Data.List.Find
import Mathlib.Data.List.Nodup
import Fala.Text.Replacing

/-! Replacing the words of a table in a text, all in one pass or one word after another. -/

namespace Substitution
open Replacing

variable {α : Type}

/-! Words that begin with the same two letters, have the first of them nowhere else, and do not begin one another. -/

structure Proper (d o : α) (table : List (List α × List α)) : Prop where
  apart : o ≠ d
  opens : ∀ e ∈ table, ∃ body, e.1 = d :: o :: body ∧ d ∉ body
  free : ∀ e ∈ table, ∀ e' ∈ table, e.1 <+: e'.1 → e.1 = e'.1

section
variable {d o : α} {table rest : List (List α × List α)} {e : List α × List α} {text : List α}

theorem Proper.tail (proper : Proper d o (e :: rest)) : Proper d o rest where
  apart := proper.apart
  opens e listed := proper.opens e (List.mem_cons_of_mem _ listed)
  free e listed e' listed' := proper.free e (List.mem_cons_of_mem _ listed) e' (List.mem_cons_of_mem _ listed')

theorem Proper.nonempty (proper : Proper d o table) (listed : e ∈ table) : e.1 ≠ [] := by
  have ⟨body, is, _⟩ := proper.opens e listed
  rw [is]
  exact List.cons_ne_nil _ _

theorem Proper.same {e' : List α × List α} (proper : Proper d o table) (listed : e ∈ table) (listed' : e' ∈ table)
    (begins : e.1 <+: text) (begins' : e'.1 <+: text) : e.1 = e'.1 := by
  rcases List.prefix_or_prefix_of_prefix begins begins' with shorter | longer
  · exact proper.free e listed e' listed' shorter
  · exact (proper.free e' listed' e listed longer).symm

end

variable [DecidableEq α]

/-- The first entry whose word begins the text. -/
def entryAt (table : List (List α × List α)) (text : List α) : Option (List α × List α) :=
  table.find? fun e => decide (e.1 ≠ [] ∧ e.1 <+: text)

/-- Every word of the table is replaced where it stands in the text, in one pass from the left. -/
def substitute (table : List (List α × List α)) (text : List α) : List α :=
  match text with
  | [] => []
  | c :: rest =>
    match _found : entryAt table (c :: rest) with
    | some e => e.2 ++ substitute table ((c :: rest).drop e.1.length)
    | none => c :: substitute table rest
termination_by text.length
decreasing_by
  · have fits := List.find?_some _found
    have positive := List.length_pos_iff.mpr (of_decide_eq_true fits).1
    simp only [List.length_drop, List.length_cons]
    omega
  · simp

/-- The words are replaced one after another, each in what the earlier ones left. -/
def inTurn (table : List (List α × List α)) (text : List α) : List α :=
  table.foldl (fun text e => replaceAll e.1 e.2 text) text

section
variable {table : List (List α × List α)} {e : List α × List α} {text : List α}

theorem entryAt_some (found : entryAt table text = some e) : e ∈ table ∧ e.1 ≠ [] ∧ e.1 <+: text := by
  have fits := List.find?_some found
  exact ⟨List.mem_of_find?_eq_some found, of_decide_eq_true fits⟩

theorem entryAt_none : entryAt table text = none ↔ ∀ e ∈ table, ¬ (e.1 ≠ [] ∧ e.1 <+: text) := by
  simp only [entryAt, List.find?_eq_none, decide_eq_true_eq]

theorem substitute_nil : substitute table [] = [] := by rw [substitute]

theorem substitute_found (found : entryAt table text = some e) :
    substitute table text = e.2 ++ substitute table (text.drop e.1.length) := by
  cases text with
  | nil =>
    have ⟨_, nonempty, begins⟩ := entryAt_some found
    exact absurd (List.prefix_nil.mp begins) nonempty
  | cons c rest =>
    rw [substitute]
    split
    · rename_i other also
      cases also.symm.trans found
      rfl
    · rename_i missing
      cases missing.symm.trans found

theorem substitute_other {c : α} {rest : List α} (missing : entryAt table (c :: rest) = none) :
    substitute table (c :: rest) = c :: substitute table rest := by
  rw [substitute]
  split
  · rename_i found
    cases missing.symm.trans found
  · rfl

theorem substitute_single {word value : List α} (text : List α) :
    substitute [(word, value)] text = replaceAll word value text := by
  fun_induction substitute [(word, value)] text with
  | case1 => exact replaceAll_nil.symm
  | case2 c rest e found ih =>
    have ⟨listed, nonempty, begins⟩ := entryAt_some found
    have same := List.mem_singleton.mp listed
    subst same
    rw [replaceAll_found nonempty begins, ih]
  | case3 c rest missing ih =>
    have other := entryAt_none.mp missing _ List.mem_cons_self
    rw [replaceAll_other other, ih]

theorem inTurn_nil : inTurn [] text = text := rfl

theorem inTurn_cons (e : List α × List α) (rest : List (List α × List α)) (text : List α) :
    inTurn (e :: rest) text = inTurn rest (replaceAll e.1 e.2 text) := rfl

end

section
variable {d o : α} {table rest : List (List α × List α)} {e : List α × List α} {text : List α}

theorem entryAt_elsewhere (proper : Proper d o table) (elsewhere : ¬ [d, o] <+: text) : entryAt table text = none := by
  rw [entryAt_none]
  intro e listed begins
  have ⟨body, is, _⟩ := proper.opens e listed
  apply elsewhere
  rw [is] at begins
  exact (List.prefix_append [d, o] body).trans begins.2

theorem entryAt_word (proper : Proper d o table) (listed : e ∈ table) (text : List α) :
    entryAt table (e.1 ++ text) = table.find? fun e' => decide (e'.1 = e.1) := by
  apply List.find?_congr
  intro e' listed'
  rw [decide_eq_decide]
  constructor
  · rintro ⟨_, begins⟩
    exact proper.same listed' listed begins (List.prefix_append _ _)
  · intro same
    exact ⟨proper.nonempty listed', same ▸ List.prefix_append _ _⟩

theorem substitute_plain (proper : Proper d o table) {before : List α} (plain : d ∉ before) :
    substitute table (before ++ text) = before ++ substitute table text := by
  induction before with
  | nil => rfl
  | cons c before ih =>
    rw [List.mem_cons, not_or] at plain
    have elsewhere : ¬ [d, o] <+: c :: (before ++ text) := by
      rw [List.cons_prefix_cons]
      exact fun begins => plain.1 begins.1
    rw [List.cons_append, substitute_other (entryAt_elsewhere proper elsewhere), ih plain.2, List.cons_append]

theorem substitute_passed (proper : Proper d o table) {value : List α}
    (clear : ¬ [d, o] <:+: value ++ substitute table text) :
    substitute table (value ++ text) = value ++ substitute table text := by
  induction value with
  | nil => rfl
  | cons c value ih =>
    have later : ¬ [d, o] <:+: value ++ substitute table text := fun inside => clear (inside.trans (List.suffix_cons _ _).isInfix)
    have elsewhere : ¬ [d, o] <+: c :: (value ++ text) := by
      intro begins
      rw [List.cons_prefix_cons] at begins
      have ⟨first, next⟩ := begins
      apply clear
      cases value with
      | cons second value =>
        rw [List.cons_append, List.cons_prefix_cons] at next
        rw [← first, ← next.1]
        exact (List.prefix_append [d, o] _).isInfix
      | nil =>
        cases text with
        | nil => exact absurd (List.prefix_nil.mp next) (List.cons_ne_nil _ _)
        | cons second text =>
          rw [List.nil_append, List.cons_prefix_cons] at next
          have unopened : entryAt table (second :: text) = none := by
            apply entryAt_elsewhere proper
            rw [← next.1, List.cons_prefix_cons]
            exact fun begins => proper.apart begins.1.symm
          rw [substitute_other unopened, ← first, ← next.1]
          exact (List.prefix_append [d, o] _).isInfix
    rw [List.cons_append, substitute_other (entryAt_elsewhere proper elsewhere), ih later, List.cons_append]

theorem replaceAll_word {value : List α} {e' : List α × List α} (proper : Proper d o table) (listed : e ∈ table)
    (listed' : e' ∈ table) (other : e.1 ≠ e'.1) :
    replaceAll e.1 value (e'.1 ++ text) = e'.1 ++ replaceAll e.1 value text := by
  apply replaceAll_left
  intro tail more among begins
  have ⟨body, is, _⟩ := proper.opens e listed
  have ⟨body', is', once⟩ := proper.opens e' listed'
  rcases List.suffix_cons_iff.mp (is' ▸ among) with whole | inner
  · rw [whole, ← is'] at begins
    exact other (proper.same listed listed' begins (List.prefix_append _ _))
  · cases tail with
    | nil => exact more rfl
    | cons c tail =>
      rw [is, List.cons_append, List.cons_prefix_cons] at begins
      have held : c ∈ o :: body' := inner.subset List.mem_cons_self
      rw [← begins.1, List.mem_cons] at held
      rcases held with same | inside
      · exact proper.apart same.symm
      · exact once inside

theorem substitute_first (proper : Proper d o (e :: rest)) (clear : ¬ [d, o] <:+: substitute (e :: rest) text) :
    substitute rest (replaceAll e.1 e.2 text) = substitute (e :: rest) text := by
  have nonempty := proper.nonempty List.mem_cons_self
  fun_induction substitute (e :: rest) text with
  | case1 => rw [replaceAll_nil, substitute_nil]
  | case2 c others e' found ih =>
    have ⟨listed, _, begins⟩ := entryAt_some found
    have later := ih fun inside => clear (inside.trans (List.suffix_append _ _).isInfix)
    by_cases same : e.1 = e'.1
    · -- The entry found is the first one that has its word.
      have is : e' = e := by
        have first : entryAt (e :: rest) (c :: others) = some e := by
          rw [entryAt, List.find?_cons_of_pos]
          exact decide_eq_true ⟨nonempty, same ▸ begins⟩
        exact Option.some.inj (found.symm.trans first)
      subst is
      rw [replaceAll_found nonempty begins, ← later]
      apply substitute_passed proper.tail
      rwa [later]
    · have among : e' ∈ rest := (List.mem_cons.mp listed).resolve_left fun here => same (congrArg Prod.fst here.symm)
      obtain ⟨text, whole⟩ := begins
      rw [← whole, List.drop_left] at later
      have next : entryAt rest (e'.1 ++ replaceAll e.1 e.2 text) = some e' := by
        rw [entryAt_word proper.tail among, ← entryAt_word proper.tail among text, ← found, ← whole, entryAt, entryAt,
          List.find?_cons_of_neg]
        simp only [decide_eq_true_eq]
        exact fun begins => same (proper.same List.mem_cons_self listed begins.2 (List.prefix_append _ _))
      rw [← whole, replaceAll_word proper List.mem_cons_self listed same, substitute_found next, List.drop_left,
        List.drop_left, later]
  | case3 c others missing ih =>
    have later := ih fun inside => clear (inside.trans (List.suffix_cons _ _).isInfix)
    have other := entryAt_none.mp missing e List.mem_cons_self
    have passed := @substitute_passed _ _ d o rest (replaceAll e.1 e.2 others) proper.tail [c]
    rw [later] at passed
    rw [replaceAll_other other]
    exact passed clear

theorem inTurn_eq (proper : Proper d o table) (clear : ¬ [d, o] <:+: substitute table text) :
    inTurn table text = substitute table text := by
  induction table generalizing text with
  | nil =>
    rw [inTurn_nil]
    induction text with
    | nil => exact substitute_nil.symm
    | cons c text ih =>
      have missing : entryAt ([] : List (List α × List α)) (c :: text) = none := rfl
      rw [substitute_other missing] at clear ⊢
      rw [← ih fun inside => clear (inside.trans (List.suffix_cons _ _).isInfix)]
  | cons e rest ih =>
    have first := substitute_first proper clear
    rw [inTurn_cons, ← first]
    exact ih proper.tail (first ▸ clear)

theorem substitute_perm {table' : List (List α × List α)} (proper : Proper d o table) (distinct : (table.map Prod.fst).Nodup)
    (same : table.Perm table') (text : List α) : substitute table' text = substitute table text := by
  have entries (text : List α) : entryAt table' text = entryAt table text := by
    refine (List.find?_eq_find?_of_perm same ?_).symm
    intro e ⟨listed, fits⟩ e' ⟨listed', fits'⟩
    have begins := of_decide_eq_true fits
    have begins' := of_decide_eq_true fits'
    exact List.inj_on_of_nodup_map distinct listed listed' (proper.same listed listed' begins.2 begins'.2)
  fun_induction substitute table text with
  | case1 => exact substitute_nil
  | case2 c rest e found ih => rw [substitute_found ((entries _).trans found), ih]
  | case3 c rest missing ih => rw [substitute_other ((entries _).trans missing), ih]

end

end Substitution
