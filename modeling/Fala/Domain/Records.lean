import Fala.Store.Rows

/-! Validity and JSON texts of the domain records. -/

namespace Fala

def optionalJson (value : String) : Text := if value = "" then .printed .null else .quote value
def optionalIntJson (value : Int) : Text := if value < 0 then .printed .null else .number value

def statusHomeostat (value : String) : Bool :=
  value = "open" ∨ value = "completed" ∨ value = "cancelled" ∨ value = "expired"

def statusBridge (value : String) : Bool :=
  value = "pending" ∨ value = "delivered" ∨ value = "imported" ∨ value = "failed"

def bridgeStatusTransitionAllowed (fromStatus toStatus : String) : Bool :=
  if fromStatus = toStatus then statusBridge toStatus
  else if fromStatus ≠ "pending" then false
  else toStatus = "delivered" ∨ toStatus = "imported" ∨ toStatus = "failed"

namespace Impulse

def isValid (i : Impulse) : Bool := i.id ≠ "" ∧ i.runId ≠ "" ∧ i.impulseType ≠ ""

def toJson (i : Impulse) : Text :=
  .template [("id", .quote i.id), ("run_id", .quote i.runId),
    ("impulse_type", .quote i.impulseType), ("payload", i.payload), ("metadata", i.metadata),
    ("created_at", .quote i.createdAt), ("updated_at", .quote i.updatedAt)]

end Impulse

namespace ImpulseType

def isValid (t : ImpulseType) : Bool := t.id ≠ "" ∧ t.runId ≠ ""

def toJson (t : ImpulseType) : Text :=
  .template [("id", .quote t.id), ("run_id", .quote t.runId), ("title", optionalJson t.title),
    ("description", optionalJson t.description), ("media_types", t.mediaTypes),
    ("value_schema", t.valueSchema), ("metadata", t.metadata), ("created_at", .quote t.createdAt),
    ("updated_at", .quote t.updatedAt)]

end ImpulseType

namespace ImpulseRelation

def isValid (r : ImpulseRelation) : Bool :=
  r.id ≠ "" ∧ r.runId ≠ "" ∧ r.relationType ≠ "" ∧ r.sourceImpulseId ≠ "" ∧ r.targetImpulseId ≠ ""

def toJson (r : ImpulseRelation) : Text :=
  .template [("id", .quote r.id), ("run_id", .quote r.runId),
    ("relation_type", .quote r.relationType), ("source_impulse_id", .quote r.sourceImpulseId),
    ("target_impulse_id", .quote r.targetImpulseId), ("metadata", r.metadata),
    ("created_at", .quote r.createdAt)]

end ImpulseRelation

namespace Association

def isValid (a : Association) : Bool := a.id ≠ "" ∧ a.runId ≠ "" ∧ a.kind ≠ ""

def toJson (a : Association) : Text :=
  .template [("id", .quote a.id), ("run_id", .quote a.runId), ("kind", .quote a.kind),
    ("impulse_id", optionalJson a.impulseId), ("values", a.values), ("metadata", a.metadata),
    ("created_at", .quote a.createdAt)]

end Association

/-- The digest of a canonical reaction URI, `none` where the text is not one. -/
def reactionDigest (uri : String) : Option String :=
  let pre := "fala-reaction://sha256/".toList
  let digest := uri.toList.drop pre.length
  if pre.isPrefixOf uri.toList ∧ digest.length = 64 ∧
      digest.all fun c => c.isDigit || ('a' ≤ c && c ≤ 'f') then
    some (String.ofList digest)
  else none

namespace Reaction

def isValid (r : Reaction) : Bool :=
  r.id ≠ "" ∧ r.runId ≠ "" ∧ r.kind ≠ "" ∧ r.uri ≠ "" ∧ -1 ≤ r.sizeBytes

def toJson (r : Reaction) : Text :=
  .template [("id", .quote r.id), ("run_id", .quote r.runId), ("kind", .quote r.kind),
    ("uri", .quote r.uri), ("impulse_id", optionalJson r.impulseId),
    ("media_type", optionalJson r.mediaType), ("size_bytes", optionalIntJson r.sizeBytes),
    ("content_hash", optionalJson r.contentHash), ("metadata", r.metadata),
    ("created_at", .quote r.createdAt)]

/-- `_reaction_journal_payload` -/
def journalPayload (r : Reaction) : Text :=
  .template [("reaction_id", .quote r.id), ("kind", .quote r.kind), ("uri", .quote r.uri),
    ("content_hash", optionalJson r.contentHash)]

/-- `_validate_reaction_cas_identity` -/
def validateCasIdentity (r : Reaction) : Except String Unit :=
  let uriGiven := "fala-reaction://sha256/".toList.isPrefixOf r.uri.toList
  let hashGiven := "sha256:".toList.isPrefixOf r.contentHash.toList
  let uriDigest := reactionDigest r.uri
  let hashDigest := reactionDigest
    ("fala-reaction://sha256/" ++ String.ofList (r.contentHash.toList.drop 7))
  if uriGiven ∧ uriDigest = none then .error "domain store: invalid reaction digest URI"
  else if hashGiven ∧ (r.contentHash.utf8ByteSize ≠ 71 ∨ hashDigest = none) then
    .error "domain store: invalid reaction content hash"
  else if uriGiven ∧ hashGiven ∧ uriDigest ≠ hashDigest then
    .error "domain store: reaction URI/content hash mismatch"
  else .ok ()

/-- `_canonical_reaction_metadata` -/
def canonicalMetadata (value : Text) : Except String Text :=
  match value.parse with
  | some (.obj members) => .ok (.printed (Json.obj members).canonical)
  | _ => .error "domain store: reaction metadata must be a JSON object"

end Reaction

namespace Homeostat

def isValid (h : Homeostat) : Bool :=
  h.id ≠ "" ∧ h.runId ≠ "" ∧ h.kind ≠ "" ∧ statusHomeostat h.status ∧ 0 ≤ h.attempt ∧
    1 ≤ h.maxAttempts ∧ h.attempt ≤ h.maxAttempts

def toJson (h : Homeostat) : Text :=
  .template [("id", .quote h.id), ("run_id", .quote h.runId), ("kind", .quote h.kind),
    ("impulse_id", optionalJson h.impulseId), ("status", .quote h.status), ("values", h.values),
    ("metadata", h.metadata), ("attempt", .number h.attempt),
    ("max_attempts", .number h.maxAttempts), ("created_at", .quote h.createdAt),
    ("updated_at", .quote h.updatedAt)]

end Homeostat

namespace Projection

def isValid (p : Projection) : Bool :=
  p.id ≠ "" ∧ p.runId ≠ "" ∧ p.name ≠ "" ∧ 1 ≤ p.version ∧ 0 ≤ p.sourceEventSequence

/-- The `stale` flag belongs to the record and not to its row. -/
def toJson (p : Projection) (stale : Bool) : Text :=
  .template [("id", .quote p.id), ("run_id", .quote p.runId), ("name", .quote p.name),
    ("version", .number p.version), ("data", p.data),
    ("source_event_sequence", .number p.sourceEventSequence), ("updated_at", .quote p.updatedAt),
    ("stale", .printed (.bool stale))]

end Projection

namespace RuntimeRef

def isValid (r : RuntimeRef) : Bool := r.id ≠ ""

def toJson (r : RuntimeRef) : Text :=
  .template [("id", .quote r.id), ("uri", .quote r.uri), ("metadata", r.metadata)]

end RuntimeRef

namespace RunRef

def isValid (r : RunRef) : Bool := r.runtime.isValid ∧ r.runId ≠ ""

def toJson (r : RunRef) : Text :=
  .template [("runtime", r.runtime.toJson), ("run_id", .quote r.runId)]

end RunRef

namespace EventRef

/-- The reference that stands for an absent one. -/
def isDefault (e : EventRef) : Bool :=
  e.runtime.id = "runtime" ∧ e.runId = "run" ∧ e.eventId = "" ∧ e.sequence = 0

def toJson (e : EventRef) : Text :=
  .template [("runtime", e.runtime.toJson), ("run_id", .quote e.runId),
    ("event_id", .quote e.eventId), ("sequence", .number e.sequence)]

end EventRef

namespace RuntimeBudget

def isValid (b : RuntimeBudget) : Bool :=
  [b.runtimeHops, b.spawnedRuns, b.impulseCount, b.wallTimeSeconds, b.attempts,
    b.reactionBytes].all fun limit => limit.all (0 ≤ ·)

def limitJson (limit : Option Int) : Text :=
  match limit with
  | some value => .number value
  | none => .printed .null

def toJson (b : RuntimeBudget) : Text :=
  .template [("runtime_hops", limitJson b.runtimeHops), ("spawned_runs", limitJson b.spawnedRuns),
    ("impulse_count", limitJson b.impulseCount), ("wall_time_seconds", limitJson b.wallTimeSeconds),
    ("attempts", limitJson b.attempts), ("reaction_bytes", limitJson b.reactionBytes)]

/-- `consume(runtime_hops=1, impulse_count=1)`, the only way deliveries consume a budget. -/
def consumeDelivery (b : RuntimeBudget) : Option RuntimeBudget :=
  if b.runtimeHops.all (1 ≤ ·) ∧ b.spawnedRuns.all (0 ≤ ·) ∧ b.impulseCount.all (1 ≤ ·) ∧
      b.wallTimeSeconds.all (0 ≤ ·) ∧ b.attempts.all (0 ≤ ·) ∧ b.reactionBytes.all (0 ≤ ·) then
    some { b with
      runtimeHops := b.runtimeHops.map (· - 1)
      impulseCount := b.impulseCount.map (· - 1) }
  else none

end RuntimeBudget

namespace BridgeDelivery

def isValid (d : BridgeDelivery) : Bool :=
  d.id ≠ "" ∧ d.runId ≠ "" ∧ d.idempotencyKey ≠ "" ∧ d.source.isValid ∧ d.target.isValid ∧
    d.impulse.isValid ∧ d.budget.isValid ∧ statusBridge d.status ∧ 0 ≤ d.attempts

/-- The `event_ref` column, `NULL` for the default reference. -/
def eventJson (d : BridgeDelivery) : Text :=
  if d.eventRef.isDefault then .empty else d.eventRef.toJson

end BridgeDelivery
end Fala
