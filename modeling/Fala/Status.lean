namespace Fala

/-- `ProcessStatus`, for the statuses that `is_known` accepts. -/
inductive ProcessStatus where
  | pending | ready | running | waiting | retryWait | succeeded | failed | skipped
  | cancelRequested | cancelled | timedOut
  deriving DecidableEq, Repr

namespace ProcessStatus

/-- The column text. -/
def value : ProcessStatus → String
  | .pending => "pending"
  | .ready => "ready"
  | .running => "running"
  | .waiting => "waiting"
  | .retryWait => "retry_wait"
  | .succeeded => "succeeded"
  | .failed => "failed"
  | .skipped => "skipped"
  | .cancelRequested => "cancel_requested"
  | .cancelled => "cancelled"
  | .timedOut => "timed_out"

def isTerminal : ProcessStatus → Bool
  | .succeeded | .failed | .skipped | .cancelled | .timedOut => true
  | _ => false

end ProcessStatus

/-- `RunStatus`; a run may be created under any text. -/
inductive RunStatus where
  | created | active | waiting | completed | failed | cancelRequested | cancelled | timedOut
  | unknown (value : String)
  deriving DecidableEq, Repr

namespace RunStatus

def ofValue (value : String) : RunStatus :=
  if value = "created" then .created
  else if value = "active" then .active
  else if value = "waiting" then .waiting
  else if value = "completed" then .completed
  else if value = "failed" then .failed
  else if value = "cancel_requested" then .cancelRequested
  else if value = "cancelled" then .cancelled
  else if value = "timed_out" then .timedOut
  else .unknown value

def isTerminal : RunStatus → Bool
  | .completed | .failed | .cancelled | .timedOut => true
  | _ => false

def isKnown : RunStatus → Bool
  | .unknown _ => false
  | _ => true

end RunStatus

/-- `can_transition_process` -/
def canTransitionProcess (fromStatus toStatus : ProcessStatus) : Bool :=
  if fromStatus.isTerminal then false
  else
    match toStatus with
    | .cancelled | .timedOut | .skipped => true
    | _ =>
      match fromStatus, toStatus with
      | .pending, .ready | .pending, .cancelRequested => true
      | .ready, .running | .ready, .cancelRequested => true
      | .running, .succeeded | .running, .failed | .running, .waiting
      | .running, .retryWait | .running, .cancelRequested => true
      | .waiting, .succeeded | .waiting, .failed | .waiting, .cancelRequested => true
      | .retryWait, .ready | .retryWait, .cancelRequested => true
      | .cancelRequested, .failed => true
      | _, _ => false

/-- `can_transition_run` -/
def canTransitionRun (fromStatus toStatus : RunStatus) : Bool :=
  if ¬ fromStatus.isKnown ∨ ¬ toStatus.isKnown then false
  else if fromStatus.isTerminal then false
  else if fromStatus = toStatus then false
  else
    match fromStatus, toStatus with
    | .created, .active | .created, .waiting | .created, .completed | .created, .failed
    | .created, .cancelRequested | .created, .cancelled | .created, .timedOut => true
    | .active, .waiting | .active, .completed | .active, .failed | .active, .cancelRequested
    | .active, .cancelled | .active, .timedOut => true
    | .waiting, .active | .waiting, .completed | .waiting, .failed | .waiting, .cancelRequested
    | .waiting, .cancelled | .waiting, .timedOut => true
    | .cancelRequested, .cancelled | .cancelRequested, .failed | .cancelRequested, .timedOut => true
    | _, _ => false

theorem canTransitionProcess_terminal {fromStatus toStatus : ProcessStatus}
    (legal : canTransitionProcess fromStatus toStatus = true) : fromStatus.isTerminal = false := by
  cases h : fromStatus.isTerminal with
  | false => rfl
  | true => simp [canTransitionProcess, h] at legal

section
variable {fromStatus : ProcessStatus}

theorem canTransitionProcess_succeeded :
    canTransitionProcess fromStatus .succeeded = true ↔
      fromStatus = .running ∨ fromStatus = .waiting := by
  cases fromStatus <;> decide

theorem canTransitionProcess_failed :
    canTransitionProcess fromStatus .failed = true ↔
      fromStatus = .running ∨ fromStatus = .waiting ∨ fromStatus = .cancelRequested := by
  cases fromStatus <;> decide

theorem canTransitionProcess_retryWait :
    canTransitionProcess fromStatus .retryWait = true ↔ fromStatus = .running := by
  cases fromStatus <;> decide

theorem canTransitionProcess_waiting :
    canTransitionProcess fromStatus .waiting = true ↔ fromStatus = .running := by
  cases fromStatus <;> decide

theorem canTransitionProcess_ready :
    canTransitionProcess fromStatus .ready = true ↔
      fromStatus = .pending ∨ fromStatus = .retryWait := by
  cases fromStatus <;> decide

end

end Fala
