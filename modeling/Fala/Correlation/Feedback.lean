import Mathlib.Tactic.ByContra
import Fala.Graph.Sweep
import Fala.Correlation.Advancement

/-! The diagnosis of feedback cycles among the processes of `advance_correlation_states`. -/

namespace Fala.Correlation
open Relation Fala.Graph

variable {T : Type} {states : List (CorrelationExecutionState T)}

/-- An upstream of an effector, as its first state has it. -/
def Conducted (states : List (CorrelationExecutionState T)) (effectorId upstream : String) : Prop :=
  ∃ state, stateOf states effectorId = some state ∧ upstream ∈ state.conduction

/-- An edge that the search follows: to the upstreams in a list of effectors. -/
def Followed (states : List (CorrelationExecutionState T)) (among : List String) (effectorId upstream : String) : Prop :=
  Conducted states effectorId upstream ∧ upstream ∈ among

theorem conducted_of_found {state : CorrelationExecutionState T} {effectorId : String}
    (found : stateOf states effectorId = some state) (upstream : String) :
    Conducted states effectorId upstream ↔ upstream ∈ state.conduction := by
  constructor
  · rintro ⟨other, same, listed⟩
    cases found.symm.trans same
    exact listed
  · intro listed
    exact ⟨state, found, listed⟩

theorem not_conducted_of_missing {effectorId : String} (missing : stateOf states effectorId = none)
    (upstream : String) : ¬ Conducted states effectorId upstream := by
  rintro ⟨state, found, _⟩
  cases missing.symm.trans found

section Search

variable {start : String} {among : List String}

/-- The search finds what it looks for exactly when something that it reaches is conducted from the start. -/
theorem cycleSearch_iff {fuel : Nat} {cursor visited : List String}
    (swept : Sweep (Followed states among) (· = start) cursor visited)
    (clear : ∀ effectorId ∈ visited, ¬ Conducted states effectorId start)
    (enough : cycleBound states cursor visited ≤ fuel) :
    cycleSearch states start among fuel cursor visited = true ↔
      ∃ effectorId, Reached (Followed states among) (· = start) effectorId ∧ Conducted states effectorId start := by
  induction fuel generalizing cursor visited with
  | zero =>
    have ended : cursor = [] := List.length_eq_zero_iff.mp (by unfold cycleBound at enough; omega)
    subst ended
    constructor
    · intro found
      cases found
    · rintro ⟨effectorId, reached, closes⟩
      exact absurd closes (clear effectorId ((swept.finished effectorId).mpr reached))
  | succ fuel ih =>
    cases cursor with
    | nil =>
      constructor
      · intro found
        cases found
      · rintro ⟨effectorId, reached, closes⟩
        exact absurd closes (clear effectorId ((swept.finished effectorId).mpr reached))
    | cons current cursor =>
      have shorter : cycleBound states cursor visited ≤ fuel := by
        simp only [cycleBound, List.length_cons] at enough ⊢
        omega
      unfold cycleSearch
      by_cases seen : current ∈ visited
      · rw [if_pos seen]
        exact ih (swept.skip seen) clear shorter
      · rw [if_neg seen]
        cases found : stateOf states current with
        | none =>
          have dead := not_conducted_of_missing found
          have bounded : cycleBound states cursor (current :: visited) ≤ fuel :=
            Nat.le_trans (Nat.add_le_add_left (openUpstreams_visited ..) _) shorter
          refine ih ?_ ?_ bounded
          · refine swept.expand (fun _ listed => listed) (fun _ listed => .inl listed) ?_
            intro next taken
            exact absurd taken.1 (dead next)
          · intro effectorId done
            rcases List.mem_cons.mp done with rfl | older
            · exact dead start
            · exact clear effectorId older
        | some state =>
          dsimp only
          have edge := conducted_of_found found
          by_cases closes : start ∈ state.conduction
          · rw [if_pos closes]
            have here := swept.reached current (.inl List.mem_cons_self)
            constructor
            · intro _
              exact ⟨current, here, (edge start).mpr closes⟩
            · intro _
              rfl
          · rw [if_neg closes]
            refine ih ?_ ?_ ?_
            · refine swept.expand ?_ ?_ ?_
              · intro node listed
                exact List.mem_append_right _ listed
              · intro node listed
                rcases List.mem_append.mp listed with new | old
                · obtain ⟨upstream, kept⟩ := List.mem_filter.mp (List.mem_reverse.mp new)
                  exact .inr ⟨(edge node).mpr upstream, (of_decide_eq_true kept).1⟩
                · exact .inl old
              · intro node taken
                by_cases done : node ∈ current :: visited
                · exact .inr done
                · have wanted : node ∈ among ∧ node ∉ current :: visited := ⟨taken.2, done⟩
                  refine .inl (List.mem_append_left _ (List.mem_reverse.mpr ?_))
                  exact List.mem_filter.mpr ⟨(edge node).mp taken.1, decide_eq_true wanted⟩
            · intro effectorId done
              rcases List.mem_cons.mp done with rfl | older
              · exact fun edged => closes ((edge start).mp edged)
              · exact clear effectorId older
            · have expanded := openUpstreams_expand found seen
              have some := List.length_filter_le
                (fun upstream => decide (upstream ∈ among ∧ upstream ∉ current :: visited)) state.conduction
              simp only [cycleBound, List.length_append, List.length_reverse] at shorter ⊢
              omega

/-- `_feedback_cycle_member` of an effector of the list: it lies on a cycle of such effectors. -/
theorem feedbackCycleMember_iff (listed : start ∈ among) :
    feedbackCycleMember states start among = true ↔ OnCycle (Followed states among) start := by
  have swept : Sweep (Followed states among) (· = start) [start] [] := Sweep.start fun _ => List.mem_singleton
  have exact := cycleSearch_iff swept (fun _ done => absurd done List.not_mem_nil) (Nat.le_refl _)
  unfold feedbackCycleMember
  rw [exact, OnCycle, TransGen.tail'_iff]
  constructor
  · rintro ⟨last, ⟨root, isRoot, path⟩, closes⟩
    subst isRoot
    exact ⟨last, path, closes, listed⟩
  · rintro ⟨last, path, closes, _⟩
    exact ⟨last, ⟨start, rfl, path⟩, closes⟩

end Search

/-! The processes themselves. -/

variable (states)

/-- Both are pending, and the one waits for the other. -/
def Waits (waiter upstream : CorrelationExecutionState T) : Prop :=
  waiter.status = .pending ∧ upstream.status = .pending ∧ ∃ id ∈ waiter.conduction, stateOf states id = some upstream

/-- A process lies on a cycle of conduction edges whose members are all pending. -/
def PendingCycle (state : CorrelationExecutionState T) : Prop := OnCycle (Waits states) state

/-- The pending states that wait for something. -/
def waitingStates : List (CorrelationExecutionState T) :=
  (pendingStates states).filter fun state => unmet states state ≠ []

def waitingEffectors : List String := (waitingStates states).map (·.effectorId)

/-- The entry of a process that is reported as deadlocked. -/
def deadlockEntry (state : CorrelationExecutionState T) : CorrelationBlocked :=
  { processId := state.processId
    effectorId := state.effectorId
    unmet := unmet states state
    reason := "feedback_cycle_wait" }

/-- The diagnosis is the one that the cycles of pending processes call for. -/
def Diagnosed (text : Literals T) : Prop :=
  (∀ state ∈ states, state.status = .pending →
    (deadlockEntry states state ∈ (advanceCorrelationStates text states).blocked ↔ PendingCycle states state)) ∧
  ((advanceCorrelationStates text states).waitDiagnostic.deadlocked = true ↔
    ∃ state ∈ states, state.status = .pending ∧ PendingCycle states state)

/-- A process that waits is the first state of its effector, if the effector lies on a cycle of effectors of which some
process waits. -/
def Foremost : Prop :=
  ∀ state ∈ waitingStates states,
    OnCycle (Followed states (waitingEffectors states)) state.effectorId → stateOf states state.effectorId = some state

variable {states}

theorem stateOf_some {effectorId : String} {state : CorrelationExecutionState T}
    (found : stateOf states effectorId = some state) : state ∈ states ∧ state.effectorId = effectorId := by
  have named := List.find?_some found
  exact ⟨List.mem_of_find?_eq_some found, of_decide_eq_true named⟩

theorem mem_pendingStates {state : CorrelationExecutionState T} :
    state ∈ pendingStates states ↔ state ∈ states ∧ state.status = .pending := by
  simp [pendingStates]

theorem mem_waitingStates {state : CorrelationExecutionState T} :
    state ∈ waitingStates states ↔ (state ∈ states ∧ state.status = .pending) ∧ unmet states state ≠ [] := by
  simp [waitingStates, mem_pendingStates]

theorem waitingEffector {state : CorrelationExecutionState T} (waits : state ∈ waitingStates states) :
    state.effectorId ∈ waitingEffectors states := List.mem_map_of_mem waits

theorem Waits.unmet_ne {waiter upstream : CorrelationExecutionState T} (waits : Waits states waiter upstream) :
    unmet states waiter ≠ [] := by
  have ⟨_, pending, id, listed, found⟩ := waits
  have met : id ∈ unmet states waiter := by
    simp only [unmet, List.mem_filter, found, Option.any_some, pending]
    exact ⟨listed, rfl⟩
  exact List.ne_nil_of_mem met

theorem Waits.waiting {waiter upstream : CorrelationExecutionState T} (waits : Waits states waiter upstream)
    (known : waiter ∈ states) : waiter ∈ waitingStates states :=
  mem_waitingStates.mpr ⟨⟨known, waits.1⟩, waits.unmet_ne⟩

theorem Waits.first {waiter upstream : CorrelationExecutionState T} (waits : Waits states waiter upstream) :
    stateOf states upstream.effectorId = some upstream := by
  have ⟨_, _, id, _, found⟩ := waits
  rw [(stateOf_some found).2]
  exact found

theorem Waits.conducted {waiter upstream : CorrelationExecutionState T} (waits : Waits states waiter upstream)
    (first : stateOf states waiter.effectorId = some waiter) :
    Conducted states waiter.effectorId upstream.effectorId := by
  have ⟨_, _, id, listed, found⟩ := waits
  rw [(stateOf_some found).2]
  exact ⟨waiter, first, listed⟩

theorem PendingCycle.first {state : CorrelationExecutionState T} (cycle : PendingCycle states state) :
    stateOf states state.effectorId = some state := by
  have ⟨_, entered⟩ := OnCycle.entered cycle
  exact entered.first

theorem PendingCycle.waiting {state : CorrelationExecutionState T} (cycle : PendingCycle states state) :
    state ∈ waitingStates states := by
  have ⟨_, left⟩ := OnCycle.left cycle
  exact left.waiting (stateOf_some cycle.first).1

theorem followed_of_waits {state last : CorrelationExecutionState T}
    (first : stateOf states state.effectorId = some state) (chain : TransGen (Waits states) state last)
    (waits : last ∈ waitingStates states) :
    TransGen (Followed states (waitingEffectors states)) state.effectorId last.effectorId := by
  induction chain with
  | single step => exact .single ⟨step.conducted first, waitingEffector waits⟩
  | @tail middle last chain step ih =>
    have ⟨_, _, entered⟩ := TransGen.tail'_iff.mp chain
    have middleFirst := entered.first
    have middleWaits := step.waiting (stateOf_some middleFirst).1
    exact (ih middleWaits).tail ⟨step.conducted middleFirst, waitingEffector waits⟩

theorem PendingCycle.followed {state : CorrelationExecutionState T} (cycle : PendingCycle states state) :
    OnCycle (Followed states (waitingEffectors states)) state.effectorId :=
  followed_of_waits cycle.first cycle cycle.waiting

theorem Foremost.process {effectorId : String} (foremost : Foremost states)
    (cycle : OnCycle (Followed states (waitingEffectors states)) effectorId) :
    ∃ state, stateOf states effectorId = some state ∧ state.status = .pending := by
  have ⟨_, _, listed⟩ := OnCycle.entered cycle
  have ⟨state, waits, named⟩ := List.mem_map.mp listed
  have first := foremost state waits (by rw [named]; exact cycle)
  rw [named] at first
  exact ⟨state, first, (mem_waitingStates.mp waits).1.2⟩

theorem Foremost.waits {effectorId next : String} {state last : CorrelationExecutionState T} (foremost : Foremost states)
    (found : stateOf states effectorId = some state) (foundLast : stateOf states next = some last)
    (chain : TransGen (Followed states (waitingEffectors states)) effectorId next)
    (back : ReflTransGen (Followed states (waitingEffectors states)) next effectorId) :
    TransGen (Waits states) state last := by
  have pendingOf : ∀ {id : String} {found : CorrelationExecutionState T},
      OnCycle (Followed states (waitingEffectors states)) id → stateOf states id = some found →
      found.status = .pending := by
    intro id found cycle located
    have ⟨other, same, pending⟩ := foremost.process cycle
    cases located.symm.trans same
    exact pending
  have edge : ∀ {a b : String} {s t : CorrelationExecutionState T},
      OnCycle (Followed states (waitingEffectors states)) a → OnCycle (Followed states (waitingEffectors states)) b →
      stateOf states a = some s → stateOf states b = some t → Followed states (waitingEffectors states) a b →
      Waits states s t := by
    intro a b s t cycleA cycleB foundA foundB step
    have listed := (conducted_of_found foundA b).mp step.1
    exact ⟨pendingOf cycleA foundA, pendingOf cycleB foundB, b, listed, foundB⟩
  induction chain generalizing last with
  | single step =>
    have cycle := TransGen.head' step back
    exact .single (edge cycle (TransGen.tail' back step) found foundLast step)
  | @tail middle next chain step ih =>
    have middleBack := back.head step
    have middleCycle : OnCycle (Followed states (waitingEffectors states)) middle :=
      TransGen.trans_right middleBack chain
    have nextCycle : OnCycle (Followed states (waitingEffectors states)) next :=
      (TransGen.trans_right back chain).tail step
    have ⟨between, foundBetween, _⟩ := foremost.process middleCycle
    exact (ih foundBetween middleBack).tail (edge middleCycle nextCycle foundBetween foundLast step)

theorem Foremost.cycle {state : CorrelationExecutionState T} (foremost : Foremost states)
    (waits : state ∈ waitingStates states)
    (cycle : OnCycle (Followed states (waitingEffectors states)) state.effectorId) : PendingCycle states state := by
  have first := foremost state waits cycle
  exact foremost.waits first first cycle .refl

/-! What is reported. -/

theorem deadlockEntry_reported (text : Literals T) {state : CorrelationExecutionState T} (known : state ∈ states)
    (pending : state.status = .pending) :
    deadlockEntry states state ∈ (advanceCorrelationStates text states).blocked ↔
      state ∈ waitingStates states ∧ OnCycle (Followed states (waitingEffectors states)) state.effectorId := by
  show deadlockEntry states state ∈ blockedStates states ↔ _
  simp only [blockedStates, List.mem_map]
  constructor
  · rintro ⟨other, listed, entry⟩
    have waits := listed
    simp only [deadlockEntry, CorrelationBlocked.mk.injEq] at entry
    have ⟨_, sameEffector, sameUnmet, reason⟩ := entry
    have member : feedbackCycleMember states other.effectorId (waitingEffectors states) = true := by
      by_contra no
      rw [waitingEffectors, waitingStates] at no
      rw [if_neg no] at reason
      exact absurd reason (by decide)
    have cycle := (feedbackCycleMember_iff (waitingEffector waits)).mp member
    have blocked := (mem_waitingStates.mp waits).2
    rw [sameUnmet] at blocked
    rw [sameEffector] at cycle
    exact ⟨mem_waitingStates.mpr ⟨⟨known, pending⟩, blocked⟩, cycle⟩
  · rintro ⟨waits, cycle⟩
    have member := (feedbackCycleMember_iff (waitingEffector waits)).mpr cycle
    rw [waitingEffectors, waitingStates] at member
    refine ⟨state, waits, ?_⟩
    rw [if_pos member]
    rfl

theorem deadlocked_reported (text : Literals T) :
    (advanceCorrelationStates text states).waitDiagnostic.deadlocked = true ↔
      ∃ state ∈ waitingStates states, OnCycle (Followed states (waitingEffectors states)) state.effectorId := by
  have effectors : (blockedStates states).map (·.effectorId) = waitingEffectors states := by
    simp [blockedStates, waitingEffectors, waitingStates]
  show decide (((blockedStates states).filter _).map _ ≠ []) = true ↔ _
  rw [decide_eq_true_iff, Ne, List.map_eq_nil_iff, List.filter_eq_nil_iff, effectors]
  constructor
  · intro some
    by_contra none
    refine some ?_
    intro item listed marked
    have ⟨state, waits, same⟩ := List.mem_map.mp listed
    subst same
    have member := (of_decide_eq_true marked).2
    exact none ⟨state, waits, (feedbackCycleMember_iff (waitingEffector waits)).mp member⟩
  · rintro ⟨state, waits, cycle⟩ none
    have ⟨known, pending⟩ := (mem_waitingStates.mp waits).1
    have entry := (deadlockEntry_reported text known pending).mpr ⟨waits, cycle⟩
    have member := (feedbackCycleMember_iff (waitingEffector waits)).mpr cycle
    exact none _ entry (decide_eq_true ⟨rfl, member⟩)

/-- The diagnosis is exact just where waiting processes come first, and the search ends before its fuel does. -/
theorem feedback_diagnosis_exact_iff (text : Literals T) (states : List (CorrelationExecutionState T)) :
    (Diagnosed states text ↔ Foremost states) ∧
    ∀ (start : String) (among : List String) (fuel : Nat), cycleBound states [start] [] ≤ fuel →
      cycleSearch states start among fuel [start] [] = feedbackCycleMember states start among := by
  constructor
  · constructor
    · intro diagnosed state waits cycle
      have ⟨known, pending⟩ := (mem_waitingStates.mp waits).1
      have reported := (deadlockEntry_reported text known pending).mpr ⟨waits, cycle⟩
      exact ((diagnosed.1 state known pending).mp reported).first
    · intro foremost
      constructor
      · intro state known pending
        rw [deadlockEntry_reported text known pending]
        constructor
        · rintro ⟨waits, cycle⟩
          exact foremost.cycle waits cycle
        · intro cycle
          exact ⟨cycle.waiting, cycle.followed⟩
      · rw [deadlocked_reported]
        constructor
        · rintro ⟨state, waits, cycle⟩
          have ⟨known, pending⟩ := (mem_waitingStates.mp waits).1
          exact ⟨state, known, pending, foremost.cycle waits cycle⟩
        · rintro ⟨state, _, _, cycle⟩
          exact ⟨state, cycle.waiting, cycle.followed⟩
  · intro start among fuel enough
    induction enough with
    | refl => rfl
    | step enough ih => rw [← cycleSearch_bound enough, ih]

/-- The states of two paths in one run. The first path is over, the effectors of the second wait for `c`. -/
def twoPaths : List (CorrelationExecutionState String) :=
  [{ processId := "run:one:a", effectorId := "a", status := .cancelled, attempt := 0, maxAttempts := 1,
     outputJson := "{}", inputJson := "{}", reactionsJson := "[]", conduction := ["b"] },
   { processId := "run:one:b", effectorId := "b", status := .succeeded, attempt := 1, maxAttempts := 1,
     outputJson := "{}", inputJson := "{}", reactionsJson := "[]", conduction := ["a"] },
   { processId := "run:two:c", effectorId := "c", status := .pending, attempt := 0, maxAttempts := 1,
     outputJson := "{}", inputJson := "{}", reactionsJson := "[]", conduction := [] },
   { processId := "run:two:a", effectorId := "a", status := .pending, attempt := 0, maxAttempts := 1,
     outputJson := "{}", inputJson := "{}", reactionsJson := "[]", conduction := ["c"] },
   { processId := "run:two:b", effectorId := "b", status := .pending, attempt := 0, maxAttempts := 1,
     outputJson := "{}", inputJson := "{}", reactionsJson := "[]", conduction := ["c"] }]

/-- No pending process is waited for by one that is waited for, yet a deadlock is reported. -/
theorem feedback_diagnosis_reports_finished_path :
    (advanceCorrelationStates ⟨"", "{}", "{}"⟩ twoPaths).waitDiagnostic.deadlocked = true ∧
      ¬ ∃ state ∈ twoPaths, state.status = .pending ∧ PendingCycle twoPaths state := by
  constructor
  · decide +kernel
  · rintro ⟨state, _, _, cycle⟩
    have behind : ∀ state ∈ waitingStates twoPaths, stateOf twoPaths state.effectorId ≠ some state := by decide +kernel
    exact behind state cycle.waiting cycle.first

end Fala.Correlation
