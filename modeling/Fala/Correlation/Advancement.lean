import Fala.Status

namespace Fala.Correlation

/-! The pure part of `correlation`, over the texts that its caller stores. -/

variable {T : Type}

/-- The texts that are written out in the source. -/
structure Literals (T : Type) where
  empty : T
  braces : T
  upstreamNotFound : T

structure CorrelationProcessPlan (T : Type) where
  id : String
  runId : String
  effectorId : String
  declarationSeq : Int
  status : ProcessStatus
  priority : Int
  maxAttempts : Int
  timeoutSeconds : Rat
  inputJson : T
  configJson : T
  outputSchemaJson : T
  conduction : List String
  whenJson : T
  metadataJson : T
  idempotencyKey : String
  deriving DecidableEq

structure CorrelationInstantiationPlan (T : Type) where
  correlationPathId : String
  runId : String
  processes : List (CorrelationProcessPlan T)
  replayed : Bool

structure CorrelationExecutionState (T : Type) where
  processId : String
  effectorId : String
  status : ProcessStatus
  attempt : Int
  maxAttempts : Int
  outputJson : T
  inputJson : T
  reactionsJson : T
  conduction : List String
  deriving DecidableEq

structure CorrelationConductionValue (T : Type) where
  upstreamEffectorId : String
  outputJson : T
  deriving DecidableEq

structure CorrelationBlocked where
  processId : String
  effectorId : String
  unmet : List String
  reason : String
  deriving DecidableEq

structure CorrelationWaitDiagnostic where
  blockedProcessIds : List String
  deadlocked : Bool
  reason : String
  code : String
  deriving DecidableEq

structure CorrelationAdvancePlan (T : Type) where
  readied : List (CorrelationProcessPlan T)
  conduction : List (CorrelationConductionValue T)
  blocked : List CorrelationBlocked
  cancelled : List CorrelationBlocked
  waitDiagnostic : CorrelationWaitDiagnostic
  replayed : Bool
  deriving DecidableEq

/-- The first state of an effector. -/
def stateOf (states : List (CorrelationExecutionState T)) (effectorId : String) :
    Option (CorrelationExecutionState T) :=
  states.find? fun state => state.effectorId = effectorId

section Cycle

variable (states : List (CorrelationExecutionState T)) (start : String) (blockedEffectors : List String)

/-- The loop of `_feedback_cycle_member`; the cursor is a stack, its top first. -/
def cycleSearch : Nat → List String → List String → Bool
  | 0, _, _ | _, [], _ => false
  | fuel + 1, current :: cursor, visited =>
    if current ∈ visited then cycleSearch fuel cursor visited
    else
      match stateOf states current with
      | none => cycleSearch fuel cursor (current :: visited)
      | some state =>
        if start ∈ state.conduction then true
        else
          let next := state.conduction.filter fun upstream =>
            upstream ∈ blockedEffectors ∧ upstream ∉ current :: visited
          cycleSearch fuel (next.reverse ++ cursor) (current :: visited)

/-- The upstreams that the loop has still to go through. -/
def openUpstreams (visited : List String) : List (CorrelationExecutionState T) → Nat
  | [] => 0
  | state :: rest =>
    (if state.effectorId ∈ visited then 0 else state.conduction.length) + openUpstreams visited rest

/-- A bound of the rounds: each takes an entry of the cursor, and a state is expanded once. -/
def cycleBound (cursor visited : List String) : Nat := cursor.length + openUpstreams visited states

def feedbackCycleMember : Bool :=
  cycleSearch states start blockedEffectors (cycleBound states [start] []) [start] []

variable {states start blockedEffectors}

theorem openUpstreams_visited (visited : List String) (current : String)
    (rest : List (CorrelationExecutionState T)) :
    openUpstreams (current :: visited) rest ≤ openUpstreams visited rest := by
  induction rest with
  | nil => exact Nat.le_refl _
  | cons state rest ih =>
    simp only [openUpstreams, List.mem_cons]
    by_cases here : state.effectorId ∈ visited
    · simpa [here] using ih
    · by_cases same : state.effectorId = current
      · simp only [same, true_or, if_true]
        omega
      · simp only [same, false_or]
        omega

theorem openUpstreams_expand {state : CorrelationExecutionState T} {visited : List String}
    {current : String} {rest : List (CorrelationExecutionState T)}
    (found : stateOf rest current = some state) (new : current ∉ visited) :
    openUpstreams (current :: visited) rest + state.conduction.length ≤ openUpstreams visited rest := by
  induction rest with
  | nil => cases found
  | cons head rest ih =>
    simp only [stateOf, List.find?_cons] at found
    simp only [openUpstreams, List.mem_cons]
    by_cases same : head.effectorId = current
    · simp only [same, decide_true] at found
      cases found
      have kept := openUpstreams_visited visited current rest
      simp only [same, true_or, if_true, new, if_false]
      omega
    · simp only [same, decide_false] at found
      have later := ih found
      simp only [same, false_or]
      omega

theorem cycleSearch_bound {fuel : Nat} {cursor visited : List String}
    (enough : cycleBound states cursor visited ≤ fuel) :
    cycleSearch states start blockedEffectors fuel cursor visited =
      cycleSearch states start blockedEffectors (fuel + 1) cursor visited := by
  induction fuel generalizing cursor visited with
  | zero =>
    have none : cursor = [] := List.length_eq_zero_iff.mp (by unfold cycleBound at enough; omega)
    subst none
    rfl
  | succ fuel ih =>
    cases cursor with
    | nil => rfl
    | cons current cursor =>
      have shorter : cycleBound states cursor visited ≤ fuel := by
        simp only [cycleBound, List.length_cons] at enough ⊢
        omega
      unfold cycleSearch
      by_cases seen : current ∈ visited
      · rw [if_pos seen, if_pos seen, ih shorter]
      · rw [if_neg seen, if_neg seen]
        cases found : stateOf states current with
        | none =>
          refine ih (Nat.le_trans ?_ shorter)
          exact Nat.add_le_add_left (openUpstreams_visited ..) _
        | some state =>
          dsimp only
          by_cases closes : start ∈ state.conduction
          · rw [if_pos closes, if_pos closes]
          · rw [if_neg closes, if_neg closes]
            refine ih ?_
            have expanded := openUpstreams_expand found seen
            have some := List.length_filter_le
              (fun upstream => decide (upstream ∈ blockedEffectors ∧ upstream ∉ current :: visited)) state.conduction
            simp only [cycleBound, List.length_append, List.length_reverse] at shorter ⊢
            omega

end Cycle

section Advance

variable (text : Literals T) (states : List (CorrelationExecutionState T))

/-- The upstreams that a state still waits for. -/
def unmet (state : CorrelationExecutionState T) : List String :=
  state.conduction.filter fun id => (stateOf states id).any fun upstream => !upstream.status.isTerminal

/-- What a state is conducted, a missing upstream among it. -/
def conductedValues (state : CorrelationExecutionState T) : List (CorrelationConductionValue T) :=
  state.conduction.filterMap fun id =>
    match stateOf states id with
    | none => some ⟨id, text.upstreamNotFound⟩
    | some upstream => if upstream.status.isTerminal then some ⟨id, upstream.outputJson⟩ else none

def readiedPlan (state : CorrelationExecutionState T) : CorrelationProcessPlan T :=
  { id := state.processId, runId := "", effectorId := state.effectorId, declarationSeq := 0,
    status := .ready, priority := 0, maxAttempts := state.maxAttempts, timeoutSeconds := 0,
    inputJson := state.inputJson, configJson := text.braces, outputSchemaJson := text.braces,
    conduction := state.conduction, whenJson := text.empty, metadataJson := text.braces,
    idempotencyKey := "process.ready:" ++ state.processId }

def pendingStates : List (CorrelationExecutionState T) :=
  states.filter fun state => state.status = .pending

/-- The pending states that wait for nothing. -/
def readyStates : List (CorrelationExecutionState T) :=
  (pendingStates states).filter fun state => unmet states state = []

/-- The pending states that wait, only the members of an actual cycle as deadlocked. -/
def blockedStates : List CorrelationBlocked :=
  let blocked := (pendingStates states).filter fun state => unmet states state ≠ []
  blocked.map fun state =>
    { processId := state.processId
      effectorId := state.effectorId
      unmet := unmet states state
      reason :=
        if feedbackCycleMember states state.effectorId (blocked.map (·.effectorId)) then
          "feedback_cycle_wait"
        else "unmet_dependencies" }

def diagnoseCorrelationWait (blocked : List CorrelationBlocked) : CorrelationWaitDiagnostic :=
  let ids := (blocked.filter fun item => item.reason = "feedback_cycle_wait" ∧
    feedbackCycleMember states item.effectorId (blocked.map (·.effectorId))).map (·.processId)
  { blockedProcessIds := ids
    deadlocked := ids ≠ []
    reason := if ids ≠ [] then "feedback_cycle_wait" else ""
    code := if ids ≠ [] then "feedback_cycle_wait" else "" }

/-- `advance_correlation_states`; the path is not read. -/
def advanceCorrelationStates : CorrelationAdvancePlan T :=
  { readied := (readyStates states).map (readiedPlan text)
    conduction := (readyStates states).flatMap (conductedValues text states)
    blocked := blockedStates states
    cancelled := []
    waitDiagnostic := diagnoseCorrelationWait states (blockedStates states)
    replayed := false }

end Advance

end Fala.Correlation
