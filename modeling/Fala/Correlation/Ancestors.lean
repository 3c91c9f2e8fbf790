import Mathlib.Logic.Function.Iterate
import Fala.Correlation.Identity
import Fala.Graph.Postorder

/-! The effectors that an effector depends on, in the order in which their reactions are accumulated. -/

namespace Fala.Correlation
open Relation
open Fala.Graph (OnCycle Descent)

section
variable (processes : List (CorrelationProcessPlan Text)) (effectorId : String)

/-- An effector names another one as an upstream, in its process that a look at the plan finds. -/
def DependsOn (effector upstream : String) : Prop :=
  ∃ p, processOf processes effector = some p ∧ upstream ∈ p.conduction

def Planned (effector : String) : Prop := (processOf processes effector).isSome = true

/-- A round of the loop of `_ancestor_effectors`; without a cursor there is none. -/
def searchRound : List (String × Bool) × List String × List String → List (String × Bool) × List String × List String
  | ([], seen, order) => ([], seen, order)
  | ((current, true) :: rest, seen, order) => (rest, seen, if current ≠ effectorId then order ++ [current] else order)
  | ((current, false) :: rest, seen, order) =>
    if current ∈ seen then (rest, seen, order)
    else
      match processOf processes current with
      | none => (rest, seen, order)
      | some p =>
        let next := p.conduction.filter fun upstream => upstream ∉ current :: seen ∧ upstream ≠ effectorId
        (next.map (·, false) ++ (current, true) :: rest, current :: seen, order)

end

variable {processes : List (CorrelationProcessPlan Text)} {effectorId : String} {cursor : List (String × Bool)}
  {seen order : List String}

theorem DependsOn.planned (effector upstream : String) (depends : DependsOn processes effector upstream) :
    Planned processes effector := by
  have ⟨p, found, _⟩ := depends
  rw [Planned, found]
  rfl

theorem dependsOn_of_found {effector upstream : String} {p : CorrelationProcessPlan Text}
    (found : processOf processes effector = some p) : DependsOn processes effector upstream ↔ upstream ∈ p.conduction := by
  constructor
  · rintro ⟨other, same, listed⟩
    cases found.symm.trans same
    exact listed
  · intro listed
    exact ⟨p, found, listed⟩

theorem ancestorSearch_descends
    (searched : Descent (DependsOn processes) (Planned processes) effectorId cursor seen order) :
    ∃ entered, Descent (DependsOn processes) (Planned processes) effectorId [] entered
      (ancestorSearch processes effectorId cursor seen order) := by
  fun_induction ancestorSearch processes effectorId cursor seen order with
  | case1 seen order => exact ⟨seen, searched⟩
  | case2 seen order current rest ih =>
    apply ih
    by_cases same : current = effectorId
    · subst same
      rw [dif_neg (not_not.mpr rfl)]
      exact searched.leave_root
    · rw [dif_pos same]
      exact searched.leave same
  | case3 seen order current rest old ih => exact ih (searched.skip fun _ => old)
  | case4 seen order current rest new missing ih =>
    apply ih (searched.skip _)
    intro isPlanned
    rw [Planned, missing] at isPlanned
    cases isPlanned
  | case5 seen order current rest new p found next ih =>
    apply ih
    apply searched.enter new (by rw [Planned, found]; rfl)
    · intro upstream pushed
      exact (dependsOn_of_found found).mpr (List.mem_of_mem_filter pushed)
    · intro upstream depends _ apart
      by_cases old : upstream ∈ current :: seen
      · exact .inl old
      · have listed := (dependsOn_of_found found).mp depends
        exact .inr (List.mem_filter.mpr ⟨listed, decide_eq_true ⟨old, apart⟩⟩)

theorem ancestorSearch_rounds (cursor : List (String × Bool)) (seen order : List String) :
    ∃ rounds ≤ cursor.length + workLeft seen processes, ∃ entered,
      (searchRound processes effectorId)^[rounds] (cursor, seen, order) =
        ([], entered, ancestorSearch processes effectorId cursor seen order) := by
  fun_induction ancestorSearch processes effectorId cursor seen order with
  | case1 seen order => exact ⟨0, Nat.zero_le _, seen, rfl⟩
  | case2 seen order current rest ih =>
    have ⟨rounds, few, entered, ends⟩ := ih
    exact ⟨rounds + 1, by simp only [List.length_cons]; omega, entered, ends⟩
  | case3 seen order current rest old ih =>
    have ⟨rounds, few, entered, ends⟩ := ih
    refine ⟨rounds + 1, by simp only [List.length_cons]; omega, entered, ?_⟩
    rw [Function.iterate_succ_apply, searchRound, if_pos old]
    exact ends
  | case4 seen order current rest new missing ih =>
    have ⟨rounds, few, entered, ends⟩ := ih
    refine ⟨rounds + 1, by simp only [List.length_cons]; omega, entered, ?_⟩
    rw [Function.iterate_succ_apply, searchRound, if_neg new, missing]
    exact ends
  | case5 seen order current rest new p found next ih =>
    have ⟨rounds, few, entered, ends⟩ := ih
    have work := workLeft_entered found new
    have fewer : next.length ≤ p.conduction.length := List.length_filter_le _ _
    refine ⟨rounds + 1, ?_, entered, ?_⟩
    · simp only [List.length_append, List.length_map, List.length_cons] at few ⊢
      omega
    · rw [Function.iterate_succ_apply, searchRound, if_neg new, found]
      exact ends

/-- `_ancestor_effectors` lists what the effector depends on, each effector once, after all it depends on itself when
    no effector depends on itself. -/
theorem ancestor_effectors_exact (processes : List (CorrelationProcessPlan Text)) (effectorId : String) :
    (∀ upstream, upstream ∈ ancestorEffectors processes effectorId ↔
      upstream ≠ effectorId ∧ Planned processes upstream ∧ TransGen (DependsOn processes) effectorId upstream) ∧
    (ancestorEffectors processes effectorId).Nodup ∧
    ((∀ effector, ¬ OnCycle (DependsOn processes) effector) → ∀ before effector after,
      ancestorEffectors processes effectorId = before ++ effector :: after →
        ∀ upstream, TransGen (DependsOn processes) effector upstream → Planned processes upstream → upstream ∈ before) ∧
    ∃ rounds ≤ 1 + workLeft [] processes, ∃ entered,
      (searchRound processes effectorId)^[rounds] ([(effectorId, false)], [], []) =
        ([], entered, ancestorEffectors processes effectorId) := by
  have start : Descent (DependsOn processes) (Planned processes) effectorId [(effectorId, false)] [] [] := Descent.start
  have ⟨entered, searched⟩ := ancestorSearch_descends start
  refine ⟨searched.finished DependsOn.planned, searched.nodup, ?_, ancestorSearch_rounds [(effectorId, false)] [] []⟩
  intro acyclic before effector after split upstream depends isPlanned
  exact searched.before_of_leads DependsOn.planned acyclic split depends isPlanned

end Fala.Correlation
