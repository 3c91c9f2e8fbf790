import Fala.Journal.Commands

/-! Reconciliation of confirmed external effects: an intent is recorded before the act, and an observation with
    evidence before the confirmation. -/

namespace Fala.Journal
open Durable

/-- `EffectIntent`: the desired identity is a canonical object. -/
structure EffectIntent where
  idempotencyKey : String
  desiredIdentity : Json
  capability : String
  keyed : idempotencyKey ≠ "" ∧ capability ≠ ""
  deriving DecidableEq

inductive EffectState where
  | absent | matching | conflicting
  deriving DecidableEq

/-- `EffectObservation`: the identity is a canonical object. -/
structure EffectObservation where
  state : EffectState
  identity : Json := .obj []
  evidenceRef : String := ""
  deriving DecidableEq

structure EffectDecision where
  action : String
  confirmed : Bool
  confirmation : Option Json
  deriving DecidableEq

def EffectIntent.make (idempotencyKey : String) (desiredIdentityJson : Text) (capability : String) :
    Except String EffectIntent :=
  if keyed : idempotencyKey ≠ "" ∧ capability ≠ "" then
    match desiredIdentityJson.parse with
    | some (.obj members) => .ok ⟨idempotencyKey, (Json.obj members).canonical, capability, keyed⟩
    | some _ => .error "effect.intent: desired identity must be an object"
    | none => .error "invalid JSON"
  else .error "effect.intent: idempotency_key and capability are required"

namespace EffectIntent

/-- `to_json` -/
def toJson (intent : EffectIntent) : Json :=
  .obj [("capability", .str intent.capability), ("desired_identity", intent.desiredIdentity),
    ("idempotency_key", .str intent.idempotencyKey)]

def intentKey (intent : EffectIntent) : String := "effect.intent:" ++ intent.idempotencyKey
def confirmKey (intent : EffectIntent) : String := "effect.confirm:" ++ intent.idempotencyKey

/-- The canonical confirmation of an observation. -/
def confirmation (intent : EffectIntent) (observation : EffectObservation) : Json :=
  (Json.obj [("authoritative_identity", observation.identity), ("evidence_ref", .str observation.evidenceRef),
    ("idempotency_key", .str intent.idempotencyKey)]).canonical

end EffectIntent

/-- The command of one type under its key, recorded once: whether it was there. -/
def recordEffect (runId commandType key : String) (payload : Json) (conflict at_ : String) : Sql Bool := do
  match ← commandByKey runId key with
  | some existing =>
    .require (existing.commandType = commandType ∧ existing.payload = .printed payload) conflict
    return true
  | none =>
    let _ ← appendCommand
      { runId, commandId := key, commandType, idempotencyKey := key, payload := .printed payload, createdAt := at_,
        actor := "effect-protocol" }
    return false

/-- `record_effect_intent` -/
def recordEffectIntent (runId : String) (intent : EffectIntent) (at_ : String) : Sql Bool :=
  recordEffect runId "effect.intent" intent.intentKey intent.toJson "effect.intent: idempotency conflict" at_

/-- `reconcile_effect` -/
def reconcileEffect (runId : String) (intent : EffectIntent) (observation : EffectObservation) (at_ : String) :
    Sql EffectDecision := do
  let _ ← recordEffectIntent runId intent at_
  match observation.state with
  | .conflicting => .raise "effect.conflict: desired identity differs from authoritative observation"
  | .absent => return ⟨"act", false, none⟩
  | .matching =>
    .require (observation.identity = intent.desiredIdentity)
      "effect.conflict: matching observation identity differs from desired identity"
    .require (observation.evidenceRef ≠ "") "effect.confirm: evidence_ref is required"
    let _ ← recordEffect runId "effect.confirm" intent.confirmKey (intent.confirmation observation)
      "effect.confirm: idempotency conflict" at_
    return ⟨"confirm", true, some (intent.confirmation observation)⟩

/-! Compensation of a confirmed effect. -/

structure CompensationDecision where
  terminal : String
  action : String
  input : Json
  deriving DecidableEq

/-- What one compensation is called with each time. -/
structure Compensation where
  runId : String
  effectConfirmationJson : Text
  compensationPathId : String
  compensationCapability : String
  idempotencyKey : String
  deriving DecidableEq

namespace Compensation

/-- `compensation_input`, with the receipt read. -/
def input (c : Compensation) : Except String (Json × Json) :=
  match c.effectConfirmationJson.parse with
  | none => .error "invalid JSON"
  | some receipt =>
    match receipt.member "authoritative_identity", receipt.member "evidence_ref" with
    | some identity, some _ =>
      if c.compensationPathId = "" ∨ c.compensationCapability = "" ∨ c.idempotencyKey = "" then
        .error "compensation.not_compensable: declared path, capability, and idempotency key are required"
      else
        .ok (identity, (Json.obj [("capability", .str c.compensationCapability), ("effect_confirmation", receipt),
          ("idempotency_key", .str c.idempotencyKey), ("path_id", .str c.compensationPathId)]).canonical)
    | _, _ => .error "compensation.not_compensable: confirmed effect receipt is required"

end Compensation

/-- `reconcile_compensation` -/
def reconcileCompensation (c : Compensation) (observation : EffectObservation) (at_ : String) :
    Sql CompensationDecision := do
  let (identity, input) ← .ofExcept c.input
  match observation.state with
  | .absent => return ⟨"already_absent", "confirm", input⟩
  | .conflicting => return ⟨"compensation_failed", "fail", input⟩
  | .matching =>
    let intent ← .ofExcept
      (EffectIntent.make ("compensation:" ++ c.idempotencyKey) (.printed identity.canonical) c.compensationCapability)
    let decision ← reconcileEffect c.runId intent observation at_
    if decision.action = "act" then return ⟨"", "act", input⟩
    else return ⟨"compensated", "confirm", input⟩

end Fala.Journal
