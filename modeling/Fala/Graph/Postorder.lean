import Fala.Graph.Sweep

/-! Depth-first searches that list a node when all that it leads to is listed. -/

namespace Fala.Graph
open Relation

variable {α : Type*}

section
variable (step : α → α → Prop) (known : α → Prop) (root : α)

/-- What a node leads to is entered or lies above it. The marked entries of a stack, which has its top first, are the
    nodes that are entered and not left yet. -/
def Awaited (seen : List α) : List (α × Bool) → List α → Prop
  | [], _ => True
  | (node, false) :: rest, above => Awaited seen rest (node :: above)
  | (node, true) :: rest, above =>
    (∀ next, step node next → known next → next ≠ root → next ∈ seen ∨ next ∈ above) ∧ Awaited seen rest above

/-- A search from the root over the known nodes: the stack, the nodes entered, and the list of those left again. -/
structure Descent (stack : List (α × Bool)) (seen order : List α) : Prop where
  reached : ∀ entry ∈ stack, ReflTransGen step root entry.1
  beneath : stack.Pairwise fun upper lower => lower.2 = true → TransGen step lower.1 upper.1
  awaited : Awaited step known root seen stack []
  once : ((stack.filter Prod.snd).map Prod.fst ++ order).Nodup
  started : known root → root ∈ seen ∨ (root, false) ∈ stack
  entered : ∀ node, (node, true) ∈ stack → node ∈ seen
  listed : ∀ node ∈ order, node ∈ seen ∧ node ≠ root
  valid : ∀ node ∈ seen, known node ∧ ReflTransGen step root node
  placed : ∀ node ∈ seen, node = root ∨ node ∈ order ∨ (node, true) ∈ stack
  closed : ∀ node ∈ seen, (node, true) ∉ stack → ∀ next, step node next → known next → next ≠ root → next ∈ seen
  ordered : (∀ node, ¬ OnCycle step node) → ∀ before node after, order = before ++ node :: after →
    ∀ next, step node next → known next → next ∈ before

end

variable {step : α → α → Prop} {known : α → Prop} {root current : α} {stack rest : List (α × Bool)}
  {seen seen' order above above' next : List α}

theorem Awaited.mono (held : Awaited step known root seen stack above)
    (kept : ∀ node, known node → node ∈ seen ∨ node ∈ above → node ∈ seen' ∨ node ∈ above') :
    Awaited step known root seen' stack above' := by
  induction stack generalizing above above' with
  | nil => trivial
  | cons entry rest ih =>
    obtain ⟨node, marked⟩ := entry
    cases marked with
    | true =>
      refine ⟨?_, ih held.2 kept⟩
      intro next taken isKnown apart
      exact kept next isKnown (held.1 next taken isKnown apart)
    | false =>
      apply ih held
      intro other isKnown here
      simp only [List.mem_cons] at here ⊢
      rcases here with before | same | lies
      · exact (kept other isKnown (.inl before)).imp_right .inr
      · exact .inr (.inl same)
      · exact (kept other isKnown (.inr lies)).imp_right .inr

theorem awaited_append {pushed : List α} :
    Awaited step known root seen (pushed.map (·, false) ++ stack) above ↔
      Awaited step known root seen stack (pushed.reverse ++ above) := by
  induction pushed generalizing above with
  | nil => exact Iff.rfl
  | cons node pushed ih =>
    simp only [List.map_cons, List.cons_append, Awaited, ih, List.reverse_cons, List.append_assoc, List.nil_append]

namespace Descent

theorem start : Descent step known root [(root, false)] [] [] where
  reached := by
    intro entry held
    rw [List.mem_singleton.mp held]
  beneath := List.pairwise_singleton _ _
  awaited := trivial
  once := List.nodup_nil
  started := fun _ => .inr List.mem_cons_self
  entered := by
    intro node held
    simp at held
  listed := by simp
  valid := by simp
  placed := by simp
  closed := by simp
  ordered := by simp

theorem skip (searched : Descent step known root ((current, false) :: rest) seen order)
    (old : known current → current ∈ seen) : Descent step known root rest seen order where
  reached := fun entry held => searched.reached entry (List.mem_cons_of_mem _ held)
  beneath := (List.pairwise_cons.mp searched.beneath).2
  awaited := by
    have held : Awaited step known root seen rest [current] := searched.awaited
    apply held.mono
    intro node isKnown here
    rcases here with before | lies
    · exact .inl before
    · rw [List.mem_singleton.mp lies] at isKnown ⊢
      exact .inl (old isKnown)
  once := searched.once
  started := by
    intro isKnown
    rcases searched.started isKnown with before | waiting
    · exact .inl before
    · rcases List.mem_cons.mp waiting with top | later
      · cases top
        exact .inl (old isKnown)
      · exact .inr later
  entered := fun node held => searched.entered node (List.mem_cons_of_mem _ held)
  listed := searched.listed
  valid := searched.valid
  placed := by
    intro node held
    refine (searched.placed node held).imp_right (Or.imp_right ?_)
    intro marked
    simpa using marked
  closed := by
    intro node held unmarked
    apply searched.closed node held
    simpa using unmarked
  ordered := searched.ordered

theorem enter (searched : Descent step known root ((current, false) :: rest) seen order) (new : current ∉ seen)
    (isKnown : known current) (taken : ∀ node ∈ next, step current node)
    (whole : ∀ node, step current node → known node → node ≠ root → node ∈ current :: seen ∨ node ∈ next) :
    Descent step known root (next.map (·, false) ++ (current, true) :: rest) (current :: seen) order := by
  have here : ReflTransGen step root current := searched.reached _ List.mem_cons_self
  have ⟨under, others⟩ := List.pairwise_cons.mp searched.beneath
  have unmarked : (current, true) ∉ rest := fun held => new (searched.entered current (List.mem_cons_of_mem _ held))
  have pushed : ∀ node, (node, true) ∉ next.map (·, false) := by
    intro node held
    have ⟨_, _, same⟩ := List.mem_map.mp held
    cases same
  have marked : ∀ node, (node, true) ∈ next.map (·, false) ++ (current, true) :: rest ↔
      node = current ∨ (node, true) ∈ rest := by
    intro node
    simp only [List.mem_append, pushed node, false_or, List.mem_cons, Prod.mk.injEq, and_true]
  have top : (current, true) ∈ next.map (·, false) ++ (current, true) :: rest := (marked current).mpr (.inl rfl)
  exact
    { reached := by
        intro entry held
        rcases List.mem_append.mp held with lifted | below
        · have ⟨node, listed, same⟩ := List.mem_map.mp lifted
          rw [← same]
          exact here.tail (taken node listed)
        · rcases List.mem_cons.mp below with rfl | later
          · exact here
          · exact searched.reached entry (List.mem_cons_of_mem _ later)
      beneath := by
        refine List.pairwise_append.mpr ⟨?_, List.pairwise_cons.mpr ⟨under, others⟩, ?_⟩
        · rw [List.pairwise_map]
          exact List.pairwise_of_forall fun _ _ never => nomatch never
        · intro upper lifted lower below opened
          have ⟨node, listed, same⟩ := List.mem_map.mp lifted
          rw [← same]
          rcases List.mem_cons.mp below with rfl | later
          · exact .single (taken node listed)
          · exact (under lower later opened).tail (taken node listed)
      awaited := by
        rw [awaited_append]
        refine ⟨?_, ?_⟩
        · intro node leads isKnown apart
          simpa using whole node leads isKnown apart
        · have held : Awaited step known root seen rest [current] := searched.awaited
          apply held.mono
          intro node _ before
          rcases before with older | lies
          · exact .inl (List.mem_cons_of_mem _ older)
          · rw [List.mem_singleton.mp lies]
            exact .inl List.mem_cons_self
      once := by
        have none : (next.map (·, false)).filter Prod.snd = ([] : List (α × Bool)) := by
          rw [List.filter_map]
          simp
        have fresh : current ∉ (rest.filter Prod.snd).map Prod.fst ++ order := by
          intro held
          rcases List.mem_append.mp held with opened | left
          · have ⟨entry, kept, same⟩ := List.mem_map.mp opened
            have ⟨listed, isMarked⟩ := List.mem_filter.mp kept
            obtain ⟨node, flag⟩ := entry
            cases same
            cases isMarked
            exact unmarked listed
          · exact new (searched.listed current left).1
        rw [List.filter_append, none, List.nil_append, List.filter_cons_of_pos rfl, List.map_cons, List.cons_append]
        exact List.nodup_cons.mpr ⟨fresh, searched.once⟩
      started := by
        intro rootKnown
        rcases searched.started rootKnown with before | waiting
        · exact .inl (List.mem_cons_of_mem _ before)
        · rcases List.mem_cons.mp waiting with same | later
          · cases same
            exact .inl List.mem_cons_self
          · exact .inr (List.mem_append_right _ (List.mem_cons_of_mem _ later))
      entered := by
        intro node held
        rcases (marked node).mp held with rfl | later
        · exact List.mem_cons_self
        · exact List.mem_cons_of_mem _ (searched.entered node (List.mem_cons_of_mem _ later))
      listed := fun node held => ⟨List.mem_cons_of_mem _ (searched.listed node held).1, (searched.listed node held).2⟩
      valid := by
        intro node held
        rcases List.mem_cons.mp held with rfl | older
        · exact ⟨isKnown, here⟩
        · exact searched.valid node older
      placed := by
        intro node held
        rcases List.mem_cons.mp held with rfl | older
        · exact .inr (.inr top)
        · refine (searched.placed node older).imp_right (Or.imp_right ?_)
          intro opened
          rcases List.mem_cons.mp opened with same | later
          · cases same
          · exact (marked node).mpr (.inr later)
      closed := by
        intro node held unmarkedNode other leads otherKnown apart
        rcases List.mem_cons.mp held with rfl | older
        · exact absurd top unmarkedNode
        · apply List.mem_cons_of_mem
          apply searched.closed node older _ other leads otherKnown apart
          intro opened
          rcases List.mem_cons.mp opened with same | later
          · cases same
          · exact unmarkedNode ((marked node).mpr (.inr later))
      ordered := searched.ordered }

theorem awaits (searched : Descent step known root ((current, true) :: rest) seen order) {node : α}
    (leads : step current node) (isKnown : known node) (apart : node ≠ root) : node ∈ seen :=
  (searched.awaited.1 node leads isKnown apart).resolve_right List.not_mem_nil

theorem settled (searched : Descent step known root ((current, true) :: rest) seen order)
    (acyclic : ∀ node, ¬ OnCycle step node) {node : α} (leads : step current node) (isKnown : known node) :
    node ∈ order := by
  have here : ReflTransGen step root current := searched.reached _ List.mem_cons_self
  have apart : node ≠ root := by
    rintro rfl
    exact acyclic node (TransGen.tail' here leads)
  rcases searched.placed node (searched.awaits leads isKnown apart) with same | done | opened
  · exact absurd same apart
  · exact done
  · rcases List.mem_cons.mp opened with same | later
    · cases same
      exact absurd (.single leads) (acyclic current)
    · have back : TransGen step node current := (List.pairwise_cons.mp searched.beneath).1 _ later rfl
      exact absurd (back.tail leads) (acyclic node)

theorem leave_closed (searched : Descent step known root ((current, true) :: rest) seen order) {node : α}
    (held : node ∈ seen) (unmarked : (node, true) ∉ rest) {other : α} (leads : step node other)
    (isKnown : known other) (apart : other ≠ root) : other ∈ seen := by
  by_cases same : node = current
  · subst same
    exact searched.awaits leads isKnown apart
  · apply searched.closed node held _ other leads isKnown apart
    intro opened
    rcases List.mem_cons.mp opened with top | later
    · cases top
      exact same rfl
    · exact unmarked later

theorem leave_placed (searched : Descent step known root ((current, true) :: rest) seen order) {node : α}
    (held : node ∈ seen) : node = root ∨ node ∈ order ∨ node = current ∨ (node, true) ∈ rest := by
  refine (searched.placed node held).imp_right (Or.imp_right ?_)
  intro opened
  rcases List.mem_cons.mp opened with top | later
  · cases top
    exact .inl rfl
  · exact .inr later

theorem leave_root (searched : Descent step known root ((root, true) :: rest) seen order) :
    Descent step known root rest seen order where
  reached := fun entry held => searched.reached entry (List.mem_cons_of_mem _ held)
  beneath := (List.pairwise_cons.mp searched.beneath).2
  awaited := searched.awaited.2
  once := (List.nodup_cons.mp searched.once).2
  started := fun _ => .inl (searched.entered root List.mem_cons_self)
  entered := fun node held => searched.entered node (List.mem_cons_of_mem _ held)
  listed := searched.listed
  valid := searched.valid
  placed := by
    intro node held
    rcases searched.leave_placed held with same | done | same | opened
    · exact .inl same
    · exact .inr (.inl done)
    · exact .inl same
    · exact .inr (.inr opened)
  closed := fun _ held unmarked _ leads isKnown apart => searched.leave_closed held unmarked leads isKnown apart
  ordered := searched.ordered

theorem leave (searched : Descent step known root ((current, true) :: rest) seen order) (other : current ≠ root) :
    Descent step known root rest seen (order ++ [current]) where
  reached := fun entry held => searched.reached entry (List.mem_cons_of_mem _ held)
  beneath := (List.pairwise_cons.mp searched.beneath).2
  awaited := searched.awaited.2
  once := by
    have moved := searched.once
    rw [List.filter_cons_of_pos rfl, List.map_cons, List.cons_append] at moved
    rw [← List.append_assoc]
    exact (List.perm_append_singleton _ _).nodup_iff.mpr moved
  started := by
    intro isKnown
    refine (searched.started isKnown).imp_right ?_
    intro waiting
    simpa using waiting
  entered := fun node held => searched.entered node (List.mem_cons_of_mem _ held)
  listed := by
    intro node held
    rcases List.mem_append.mp held with before | last
    · exact searched.listed node before
    · rw [List.mem_singleton.mp last]
      exact ⟨searched.entered current List.mem_cons_self, other⟩
  valid := searched.valid
  placed := by
    intro node held
    rcases searched.leave_placed held with same | done | same | opened
    · exact .inl same
    · exact .inr (.inl (List.mem_append_left _ done))
    · exact .inr (.inl (List.mem_append_right _ (List.mem_singleton.mpr same)))
    · exact .inr (.inr opened)
  closed := fun _ held unmarked _ leads isKnown apart => searched.leave_closed held unmarked leads isKnown apart
  ordered := by
    intro acyclic before node after split next leads isKnown
    rcases List.eq_nil_or_concat after with rfl | ⟨inner, last, rfl⟩
    · have ⟨same, top⟩ := List.append_inj' split rfl
      cases top
      rw [← same]
      exact searched.settled acyclic leads isKnown
    · have parts : order ++ [current] = (before ++ node :: inner) ++ [last] := by
        rw [split, List.append_assoc, List.cons_append, List.concat_eq_append]
      have ⟨same, _⟩ := List.append_inj' parts rfl
      exact searched.ordered acyclic before node inner same next leads isKnown

theorem finished (searched : Descent step known root [] seen order) (sources : ∀ node next, step node next → known node)
    (node : α) : node ∈ order ↔ node ≠ root ∧ known node ∧ TransGen step root node := by
  constructor
  · intro done
    have ⟨held, apart⟩ := searched.listed node done
    have ⟨isKnown, path⟩ := searched.valid node held
    exact ⟨apart, isKnown, (reflTransGen_iff_eq_or_transGen.mp path).resolve_left apart⟩
  · rintro ⟨apart, isKnown, path⟩
    have ⟨_, first, _⟩ := TransGen.head'_iff.mp path
    have rootSeen : root ∈ seen := (searched.started (sources _ _ first)).resolve_right List.not_mem_nil
    have all : ∀ other, ReflTransGen step root other → known other → other ∈ seen := by
      intro other leads
      induction leads with
      | refl => exact fun _ => rootSeen
      | tail _ taken ih =>
        rename_i earlier later _
        intro laterKnown
        by_cases same : later = root
        · rw [same]
          exact rootSeen
        · exact searched.closed earlier (ih (sources _ _ taken)) List.not_mem_nil later taken laterKnown same
    rcases searched.placed node (all node path.to_reflTransGen isKnown) with same | done | opened
    · exact absurd same apart
    · exact done
    · exact absurd opened List.not_mem_nil

theorem nodup (searched : Descent step known root [] seen order) : order.Nodup := searched.once

theorem before_of_leads (searched : Descent step known root [] seen order)
    (sources : ∀ node next, step node next → known node) (acyclic : ∀ node, ¬ OnCycle step node)
    {before after : List α} {node other : α} (split : order = before ++ node :: after) (leads : TransGen step node other)
    (isKnown : known other) : other ∈ before := by
  induction leads with
  | single taken => exact searched.ordered acyclic before node after split _ taken isKnown
  | tail _ taken ih =>
    rename_i between _ _
    have ⟨first, last, earlier⟩ := List.append_of_mem (ih (sources _ _ taken))
    have whole : order = first ++ between :: (last ++ node :: after) := by
      rw [split, earlier, List.append_assoc, List.cons_append]
    rw [earlier]
    exact List.mem_append_left _ (searched.ordered acyclic first between _ whole _ taken isKnown)

end Descent
end Fala.Graph
