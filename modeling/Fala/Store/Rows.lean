import Fala.Json.Text
import Fala.Status

/-! The rows of the journal's tables. A nullable text column is read as the
    empty text when it is `NULL`, and never stored as the empty text. -/

namespace Fala

structure RunIdentity where
  packageId : String := ""
  packageVersion : String := ""
  packageDigest : String := ""
  correlationPathId : String := ""
  correlationPathDigest : String := ""
  runtimeVersion : String := ""
  backendVersion : String := ""
  deriving DecidableEq

structure RunRecord where
  id : String
  status : String
  title : String
  identity : RunIdentity
  schemaVersion : Int
  metadata : String
  createdAt : String
  updatedAt : String
  startedAt : String
  finishedAt : String
  deriving DecidableEq

structure CommandRow where
  runId : String
  id : String
  commandType : String
  idempotencyKey : String
  actor : String
  correlationId : String
  causationId : String
  payload : Text
  createdAt : String
  deriving DecidableEq

structure EventRow where
  runId : String
  sequence : Nat
  id : String
  eventType : String
  payload : Text
  createdAt : String
  impulseId : String
  processId : String
  commandId : String
  schemaVersion : Int
  actor : String
  correlationId : String
  causationId : String
  deriving DecidableEq

structure ProcessRow where
  runId : String
  id : String
  processType : String
  impulseId : String
  status : ProcessStatus
  priority : Int
  attempt : Int
  maxAttempts : Int
  availableAt : String
  leaseOwner : String
  leaseExpiresAt : String
  inputJson : Text
  outputJson : Text
  errorJson : Text
  metadata : Text
  createdAt : String
  updatedAt : String
  startedAt : String
  finishedAt : String
  outputSchemaJson : Text
  deriving DecidableEq

structure Impulse where
  id : String
  runId : String
  impulseType : String
  payload : Text
  metadata : Text
  createdAt : String
  updatedAt : String
  deriving DecidableEq

structure ImpulseType where
  id : String
  runId : String
  title : String
  description : String
  mediaTypes : Text
  valueSchema : Text
  metadata : Text
  createdAt : String
  updatedAt : String
  deriving DecidableEq

structure ImpulseRelation where
  id : String
  runId : String
  relationType : String
  sourceImpulseId : String
  targetImpulseId : String
  metadata : Text
  createdAt : String
  deriving DecidableEq

structure Association where
  id : String
  runId : String
  kind : String
  impulseId : String
  values : Text
  metadata : Text
  createdAt : String
  deriving DecidableEq

structure Reaction where
  id : String
  runId : String
  kind : String
  uri : String
  impulseId : String
  mediaType : String
  sizeBytes : Int
  contentHash : String
  metadata : Text
  createdAt : String
  deriving DecidableEq

structure Homeostat where
  id : String
  runId : String
  kind : String
  impulseId : String
  status : String
  values : Text
  metadata : Text
  attempt : Int
  maxAttempts : Int
  createdAt : String
  updatedAt : String
  deriving DecidableEq

structure Projection where
  id : String
  runId : String
  name : String
  version : Int
  data : Text
  sourceEventSequence : Int
  updatedAt : String
  deriving DecidableEq

structure RuntimeRef where
  id : String
  uri : String
  metadata : Text
  deriving DecidableEq

structure RunRef where
  runtime : RuntimeRef
  runId : String
  deriving DecidableEq

structure EventRef where
  runtime : RuntimeRef
  runId : String
  eventId : String
  sequence : Int
  deriving DecidableEq

/-- Delegation limits; an absent limit is unlimited. -/
structure RuntimeBudget where
  runtimeHops : Option Int
  spawnedRuns : Option Int
  impulseCount : Option Int
  wallTimeSeconds : Option Int
  attempts : Option Int
  reactionBytes : Option Int
  deriving DecidableEq

structure BridgeDelivery where
  id : String
  runId : String
  idempotencyKey : String
  source : RunRef
  target : RunRef
  impulse : Impulse
  eventRef : EventRef
  poolId : String
  budget : RuntimeBudget
  status : String
  attempts : Int
  metadata : Text
  createdAt : String
  updatedAt : String
  deriving DecidableEq

end Fala
