import Mathlib.Logic.Relation
import Mathlib.Data.List.Chain
import Mathlib.Data.List.Nodup

/-! Searches that keep a worklist and a list of the nodes that they are done with. -/

namespace Fala.Graph
open Relation

variable {α : Type*}

/-- A node lies on a directed cycle. -/
def OnCycle (step : α → α → Prop) (node : α) : Prop := TransGen step node node

theorem OnCycle.mono {step step' : α → α → Prop} {node : α} (cycle : OnCycle step node)
    (finer : ∀ a b, step a b → step' a b) : OnCycle step' node := TransGen.mono finer _ _ cycle

theorem OnCycle.entered {step : α → α → Prop} {node : α} (cycle : OnCycle step node) : ∃ previous, step previous node := by
  have ⟨previous, _, last⟩ := TransGen.tail'_iff.mp cycle
  exact ⟨previous, last⟩

theorem OnCycle.left {step : α → α → Prop} {node : α} (cycle : OnCycle step node) : ∃ next, step node next := by
  have ⟨next, first, _⟩ := TransGen.head'_iff.mp cycle
  exact ⟨next, first⟩

theorem OnCycle.onward {step : α → α → Prop} {node : α} (cycle : OnCycle step node) :
    OnCycle (fun a b => step a b ∧ ∃ c, step b c) node := by
  have chain : ∀ {a b : α}, TransGen step a b → (∃ c, step b c) →
      TransGen (fun a b => step a b ∧ ∃ c, step b c) a b := by
    intro a b path
    induction path with
    | single taken => exact fun next => .single ⟨taken, next⟩
    | tail _ taken ih => exact fun next => (ih ⟨_, taken⟩).tail ⟨taken, next⟩
  exact chain cycle cycle.left

/-- The nodes that the roots lead to. -/
def Reached (step : α → α → Prop) (roots : α → Prop) (node : α) : Prop :=
  ∃ root, roots root ∧ ReflTransGen step root node

/-- What is in hand is reached, and so are, in hand, the roots and the successors of what is done with. -/
structure Sweep (step : α → α → Prop) (roots : α → Prop) (pending seen : List α) : Prop where
  rooted : ∀ node, roots node → node ∈ pending ∨ node ∈ seen
  reached : ∀ node, node ∈ pending ∨ node ∈ seen → Reached step roots node
  closed : ∀ node ∈ seen, ∀ next, step node next → next ∈ pending ∨ next ∈ seen

namespace Sweep

variable {step : α → α → Prop} {roots : α → Prop} {pending rest seen : List α} {current : α}

theorem start (listed : ∀ node, node ∈ pending ↔ roots node) : Sweep step roots pending [] where
  rooted := fun node root => .inl ((listed node).mpr root)
  reached := by
    intro node held
    have root : roots node := (listed node).mp (held.resolve_right List.not_mem_nil)
    exact ⟨node, root, .refl⟩
  closed := fun _ held => absurd held List.not_mem_nil

theorem skip (swept : Sweep step roots (current :: rest) seen) (old : current ∈ seen) : Sweep step roots rest seen := by
  have keeps : ∀ node, node ∈ current :: rest ∨ node ∈ seen → node ∈ rest ∨ node ∈ seen := by
    intro node held
    rcases held with listed | done
    · rcases List.mem_cons.mp listed with rfl | later
      · exact .inr old
      · exact .inl later
    · exact .inr done
  exact
    { rooted := fun node root => keeps node (swept.rooted node root)
      reached := fun node held => swept.reached node (held.imp_left (List.mem_cons_of_mem _))
      closed := fun node done next taken => keeps next (swept.closed node done next taken) }

theorem expand (swept : Sweep step roots (current :: rest) seen) (kept : ∀ node ∈ rest, node ∈ pending)
    (added : ∀ node ∈ pending, node ∈ rest ∨ step current node)
    (whole : ∀ node, step current node → node ∈ pending ∨ node ∈ current :: seen) :
    Sweep step roots pending (current :: seen) := by
  have keeps : ∀ node, node ∈ current :: rest ∨ node ∈ seen → node ∈ pending ∨ node ∈ current :: seen := by
    intro node held
    rcases held with listed | done
    · rcases List.mem_cons.mp listed with rfl | later
      · exact .inr List.mem_cons_self
      · exact .inl (kept node later)
    · exact .inr (List.mem_cons_of_mem _ done)
  have here : Reached step roots current := swept.reached current (.inl List.mem_cons_self)
  refine { rooted := fun node root => keeps node (swept.rooted node root), reached := ?_, closed := ?_ }
  · intro node held
    rcases held with listed | done
    · rcases added node listed with later | taken
      · exact swept.reached node (.inl (List.mem_cons_of_mem _ later))
      · have ⟨root, isRoot, path⟩ := here
        exact ⟨root, isRoot, path.tail taken⟩
    · rcases List.mem_cons.mp done with rfl | older
      · exact here
      · exact swept.reached node (.inr older)
  · intro node done next taken
    rcases List.mem_cons.mp done with rfl | older
    · exact whole next taken
    · exact keeps next (swept.closed node older next taken)

theorem finished (swept : Sweep step roots [] seen) (node : α) : node ∈ seen ↔ Reached step roots node := by
  have settled : ∀ node, node ∈ ([] : List α) ∨ node ∈ seen → node ∈ seen := by
    intro node held
    exact held.resolve_left List.not_mem_nil
  constructor
  · intro done
    exact swept.reached node (.inr done)
  · rintro ⟨root, isRoot, path⟩
    induction path with
    | refl => exact settled root (swept.rooted root isRoot)
    | tail _ taken ih => exact settled _ (swept.closed _ ih _ taken)

end Sweep

/-! How long a search is: a node is done with once, and its successors enter the worklist then. -/

section Outstanding

variable [DecidableEq α] (out : α → List α)

/-- The successors that the nodes of a list still bring in. -/
def outstanding (seen : List α) : List α → Nat
  | [] => 0
  | node :: rest => (if node ∈ seen then 0 else (out node).length) + outstanding seen rest

theorem outstanding_seen (current : α) (seen nodes : List α) :
    outstanding out (current :: seen) nodes ≤ outstanding out seen nodes := by
  induction nodes with
  | nil => exact Nat.le_refl _
  | cons node rest ih =>
    simp only [outstanding, List.mem_cons]
    by_cases done : node ∈ seen
    · simpa only [done, or_true, if_true, Nat.zero_add] using ih
    · simp only [done, or_false, if_false]
      by_cases here : node = current
      · simp only [here, if_true]
        omega
      · simp only [here, if_false]
        omega

theorem outstanding_expanded {current : α} {seen nodes : List α} (listed : current ∈ nodes) (new : current ∉ seen) :
    outstanding out (current :: seen) nodes + (out current).length ≤ outstanding out seen nodes := by
  induction nodes with
  | nil => exact absurd listed List.not_mem_nil
  | cons node rest ih =>
    simp only [outstanding, List.mem_cons]
    by_cases here : node = current
    · have kept := outstanding_seen out current seen rest
      subst here
      simp only [true_or, if_true, new, if_false]
      omega
    · have later : current ∈ rest := (List.mem_cons.mp listed).resolve_left (fun same => here same.symm)
      have := ih later
      simp only [here, false_or]
      omega

end Outstanding
end Fala.Graph

/-! Cycles written out as lists of their nodes, and graphs without any. -/

namespace Fala.Graph
open Relation

variable {α : Type*} {step : α → α → Prop}

/-- A list of distinct nodes each of which steps to the next, the last one to the first. -/
structure Round (step : α → α → Prop) (nodes : List α) : Prop where
  distinct : nodes.Nodup
  steps : ∃ first rest, nodes = first :: rest ∧ List.IsChain step (first :: (rest ++ [first]))

theorem chain_leads {first last : α} {between : List α} (chain : List.IsChain step (first :: (between ++ [last]))) :
    TransGen step first last := by
  induction between generalizing first with
  | nil =>
    have taken : step first last := (List.isChain_cons_cons.mp chain).1
    exact .single taken
  | cons next between ih =>
    have ⟨taken, later⟩ := List.isChain_cons_cons.mp chain
    exact .head taken (ih later)

theorem Round.mono {step' : α → α → Prop} {nodes : List α} (round : Round step nodes)
    (finer : ∀ a b, step a b → step' a b) : Round step' nodes := by
  have ⟨first, rest, shape, chain⟩ := round.steps
  exact ⟨round.distinct, first, rest, shape, chain.imp finer⟩

theorem Round.onCycle {nodes : List α} (round : Round step nodes) : ∃ node ∈ nodes, OnCycle step node := by
  have ⟨first, rest, shape, chain⟩ := round.steps
  exact ⟨first, by rw [shape]; exact List.mem_cons_self, chain_leads chain⟩

theorem round_of_return [DecidableEq α] {path : List α} {node : α} (distinct : path.Nodup)
    (chain : List.IsChain step (path ++ [node])) (met : node ∈ path) : Round step (path.drop (path.idxOf node)) := by
  have ⟨before, after, shape, new⟩ := List.eq_append_cons_of_mem met
  have index : path.idxOf node = before.length := by
    rw [shape, List.idxOf_append_of_notMem new, List.idxOf_cons_self]
    rfl
  have slice : path.drop (path.idxOf node) = node :: after := by
    rw [index, shape, List.drop_left]
  rw [slice]
  refine ⟨?_, node, after, rfl, ?_⟩
  · rw [shape] at distinct
    exact (List.nodup_append.mp distinct).2.1
  · rw [shape, List.append_assoc] at chain
    exact chain.right_of_append

theorem Acc.not_onCycle {node : α} (ends : Acc (fun next node => step node next) node) : ¬ OnCycle step node := by
  induction ends with
  | intro node _ ih =>
    intro cycle
    have ⟨next, taken, back⟩ := TransGen.head'_iff.mp cycle
    exact ih next taken (TransGen.tail' back taken)

/-- Two lists have the same members. -/
def SameMembers (nodes others : List α) : Prop := ∀ node, node ∈ nodes ↔ node ∈ others

theorem SameMembers.length {nodes others : List α} (same : SameMembers nodes others) (distinct : nodes.Nodup)
    (distinct' : others.Nodup) : nodes.length = others.length :=
  ((List.perm_ext_iff_of_nodup distinct distinct').mpr same).length_eq

end Fala.Graph
