import Fala.Memory.Journal
import Fala.Jsonl.Ember

namespace Fala.Jsonl
open Memory

/-! The wire line of a journal batch. -/

variable (e : Ember)

def stringField (obj : Json) (key default : String) : String :=
  match obj.member key with
  | some (.str value) => value
  | some (.int value) => toString value
  | _ => default

def intField (obj : Json) (key : String) (default : Int) : Int :=
  match obj.member key with
  | some (.int value) => value
  | some (.uint value) => value
  | some (.str value) => value.toInt?.getD default
  | _ => default

def encodeCommand (cmd : CommandRecord) : Bytes :=
  objectText
    [("id", e.quote cmd.id),
     ("run_id", e.quote cmd.runId),
     ("command_type", e.quote cmd.commandType),
     ("idempotency_key", e.quote cmd.idempotencyKey),
     ("actor", e.quote cmd.actor),
     ("correlation_id", e.quote cmd.correlationId),
     ("causation_id", e.quote cmd.causationId),
     ("payload_json", e.quote cmd.payloadJson),
     ("created_at", e.quote cmd.createdAt)]

def encodeEvent (event : EventRecord) : Bytes :=
  objectText
    [("id", e.quote event.id),
     ("run_id", e.quote event.runId),
     ("event_type", e.quote event.eventType),
     ("schema_version", utf8 (toString event.schemaVersion)),
     ("impulse_id", e.quote event.impulseId),
     ("process_id", e.quote event.processId),
     ("sequence", utf8 (toString event.sequence)),
     ("command_id", e.quote event.commandId),
     ("actor", e.quote event.actor),
     ("correlation_id", e.quote event.correlationId),
     ("causation_id", e.quote event.causationId),
     ("payload_json", e.quote event.payloadJson),
     ("created_at", e.quote event.createdAt)]

def encodeFact (fact : StateFact) : Bytes :=
  objectText
    [("entity", e.quote fact.entity),
     ("op", e.quote fact.op),
     ("key_id", e.quote fact.keyId),
     ("body_json", e.quote fact.bodyJson)]

def encodeUnit (u : CommandUnit) : Bytes :=
  objectText
    [("command", encodeCommand e u.command),
     ("events", arrayText (u.events.map (encodeEvent e))),
     ("facts", arrayText (u.facts.map (encodeFact e)))]

def encodeBody (batch : JournalBatch) : Bytes :=
  objectText
    [("journal_seq", utf8 (toString batch.journalSeq)),
     ("run_id", e.quote batch.runId),
     ("stream_id", e.quote batch.streamId),
     ("parent_stream_id", e.quote batch.parentStreamId),
     ("parent_process_id", e.quote batch.parentProcessId),
     ("units", arrayText (batch.units.map (encodeUnit e)))]

/-- The canonical text, or the text as it was put together when that does not parse. -/
def encodeBatchLine (batch : JournalBatch) : Bytes :=
  let text := objectText [("v", utf8 "1"), ("kind", utf8 "\"journal_batch\""), ("batch", encodeBody e batch)]
  match e.canonicalJsonText text with
  | .ok body => body ++ [newline]
  | .error _ => text ++ [newline]

def decodeCommand (value : Json) : CommandRecord where
  id := stringField value "id" ""
  runId := stringField value "run_id" ""
  commandType := stringField value "command_type" ""
  idempotencyKey := stringField value "idempotency_key" ""
  actor := stringField value "actor" ""
  correlationId := stringField value "correlation_id" ""
  causationId := stringField value "causation_id" ""
  payloadJson := stringField value "payload_json" "\x7b\x7d"
  createdAt := stringField value "created_at" ""

def decodeEvent (value : Json) : EventRecord where
  id := stringField value "id" ""
  runId := stringField value "run_id" ""
  eventType := stringField value "event_type" ""
  schemaVersion := intField value "schema_version" 1
  impulseId := stringField value "impulse_id" ""
  processId := stringField value "process_id" ""
  sequence := intField value "sequence" 0
  commandId := stringField value "command_id" ""
  actor := stringField value "actor" ""
  correlationId := stringField value "correlation_id" ""
  causationId := stringField value "causation_id" ""
  payloadJson := stringField value "payload_json" "\x7b\x7d"
  createdAt := stringField value "created_at" ""

def decodeFact (value : Json) : StateFact where
  entity := stringField value "entity" ""
  op := stringField value "op" "upsert"
  keyId := stringField value "key_id" ""
  bodyJson := stringField value "body_json" ""

/-- The items of an array member, if there is one. -/
def arrayField (obj : Json) (key : String) : List Json :=
  match obj.member key with
  | some (.arr items) => items
  | _ => []

def decodeUnit (value : Json) : Except String CommandUnit :=
  match value.member "command" with
  | none => .error "command unit requires command object"
  | some command =>
    .ok { command := decodeCommand command
          events := (arrayField value "events").map decodeEvent
          facts := (arrayField value "facts").map decodeFact }

def decodeUnits : List Json → Except String (List CommandUnit)
  | [] => .ok []
  | item :: rest => do
    let u ← decodeUnit item
    let units ← decodeUnits rest
    return u :: units

def decodeBody (body : Json) : Except String JournalBatch :=
  match body with
  | .obj _ => do
    let units ← decodeUnits (arrayField body "units")
    return { journalSeq := intField body "journal_seq" 0
             runId := stringField body "run_id" ""
             units
             streamId := stringField body "stream_id" ""
             parentStreamId := stringField body "parent_stream_id" ""
             parentProcessId := stringField body "parent_process_id" "" }
  | _ => .error "journal batch body must be an object"

def decodeLine (payload : Json) : Except String JournalBatch :=
  match payload with
  | .obj _ =>
    match payload.member "kind" with
    | some (.str kind) =>
      if kind ≠ "journal_batch" then .error ("Unsupported journal line kind: " ++ kind)
      else decodeBody ((payload.member "batch").getD payload)
    | _ => decodeBody ((payload.member "batch").getD payload)
  | _ => .error "JSONL journal line must be an object"

def decodeJournalLine (line : Bytes) : Except String JournalBatch := do
  let payload ← e.parse line
  decodeLine payload

/-! The values that the texts spell. -/

def commandValue (cmd : CommandRecord) : Json :=
  .obj
    [("id", .str cmd.id), ("run_id", .str cmd.runId), ("command_type", .str cmd.commandType),
     ("idempotency_key", .str cmd.idempotencyKey), ("actor", .str cmd.actor),
     ("correlation_id", .str cmd.correlationId), ("causation_id", .str cmd.causationId),
     ("payload_json", .str cmd.payloadJson), ("created_at", .str cmd.createdAt)]

def eventValue (event : EventRecord) : Json :=
  .obj
    [("id", .str event.id), ("run_id", .str event.runId), ("event_type", .str event.eventType),
     ("schema_version", .int event.schemaVersion), ("impulse_id", .str event.impulseId),
     ("process_id", .str event.processId), ("sequence", .int event.sequence),
     ("command_id", .str event.commandId), ("actor", .str event.actor),
     ("correlation_id", .str event.correlationId), ("causation_id", .str event.causationId),
     ("payload_json", .str event.payloadJson), ("created_at", .str event.createdAt)]

def factValue (fact : StateFact) : Json :=
  .obj [("entity", .str fact.entity), ("op", .str fact.op), ("key_id", .str fact.keyId),
    ("body_json", .str fact.bodyJson)]

def unitValue (u : CommandUnit) : Json :=
  .obj [("command", commandValue u.command), ("events", .arr (u.events.map eventValue)),
    ("facts", .arr (u.facts.map factValue))]

def bodyValue (batch : JournalBatch) : Json :=
  .obj
    [("journal_seq", .int batch.journalSeq), ("run_id", .str batch.runId),
     ("stream_id", .str batch.streamId), ("parent_stream_id", .str batch.parentStreamId),
     ("parent_process_id", .str batch.parentProcessId), ("units", .arr (batch.units.map unitValue))]

def lineValue (batch : JournalBatch) : Json :=
  .obj [("v", .int 1), ("kind", .str "journal_batch"), ("batch", bodyValue batch)]

/-! A batch is read back from its line. -/

theorem stringField_canonical (value : Json) (key default : String) :
    stringField value.canonical key default = stringField value key default := by
  unfold stringField
  rw [Json.member_canonical]
  cases value.member key with
  | none => rfl
  | some found => cases found <;> simp [Json.canonical]

theorem intField_canonical (value : Json) (key : String) (default : Int) :
    intField value.canonical key default = intField value key default := by
  unfold intField
  rw [Json.member_canonical]
  cases value.member key with
  | none => rfl
  | some found => cases found <;> simp [Json.canonical]

theorem canonicalItems_eq_map (items : List Json) : Json.canonicalItems items = items.map Json.canonical := by
  induction items with
  | nil => rfl
  | cons item rest ih => simp [Json.canonicalItems, ih]

theorem arrayField_canonical (value : Json) (key : String) :
    arrayField value.canonical key = (arrayField value key).map Json.canonical := by
  unfold arrayField
  rw [Json.member_canonical]
  cases value.member key with
  | none => rfl
  | some found => cases found <;> simp [Json.canonical, canonicalItems_eq_map]

theorem decodeCommand_canonical (value : Json) : decodeCommand value.canonical = decodeCommand value := by
  simp only [decodeCommand, stringField_canonical]

theorem decodeEvent_canonical (value : Json) : decodeEvent value.canonical = decodeEvent value := by
  simp only [decodeEvent, stringField_canonical, intField_canonical]

theorem decodeFact_canonical (value : Json) : decodeFact value.canonical = decodeFact value := by
  simp only [decodeFact, stringField_canonical]

theorem decodeUnit_canonical (value : Json) : decodeUnit value.canonical = decodeUnit value := by
  unfold decodeUnit
  rw [Json.member_canonical, arrayField_canonical, arrayField_canonical, List.map_map, List.map_map,
    funext (f := decodeEvent ∘ Json.canonical) decodeEvent_canonical,
    funext (f := decodeFact ∘ Json.canonical) decodeFact_canonical]
  cases value.member "command" with
  | none => rfl
  | some command => simp [decodeCommand_canonical]

theorem decodeUnits_canonical (items : List Json) :
    decodeUnits (items.map Json.canonical) = decodeUnits items := by
  induction items with
  | nil => rfl
  | cons item rest ih => simp only [List.map_cons, decodeUnits, decodeUnit_canonical, ih]

theorem decodeBody_canonical (value : Json) : decodeBody value.canonical = decodeBody value := by
  cases value with
  | obj members =>
    have fields := arrayField_canonical (.obj members) "units"
    have isObj : (Json.obj members).canonical = .obj (Json.sortMembers (Json.canonicalMembers members)) := by
      simp [Json.canonical]
    simp only [decodeBody]
    rw [isObj]
    simp only
    rw [← isObj, fields, decodeUnits_canonical]
    simp only [stringField_canonical, intField_canonical]
  | _ => simp [Json.canonical, decodeBody]

theorem decodeLine_canonical (value : Json) : decodeLine value.canonical = decodeLine value := by
  cases value with
  | obj members =>
    have kind := Json.member_canonical "kind" (.obj members)
    have batch := Json.member_canonical "batch" (.obj members)
    have body : decodeBody (((Json.obj members).canonical.member "batch").getD (Json.obj members).canonical) =
        decodeBody (((Json.obj members).member "batch").getD (.obj members)) := by
      rw [batch]
      cases (Json.obj members).member "batch" <;> exact decodeBody_canonical _
    have isObj : (Json.obj members).canonical = .obj (Json.sortMembers (Json.canonicalMembers members)) := by
      simp [Json.canonical]
    rw [isObj] at kind body ⊢
    simp only [decodeLine, kind, body]
    cases (Json.obj members).member "kind" with
    | none => rfl
    | some found => cases found <;> simp [Json.canonical]
  | _ => simp [Json.canonical, decodeLine]

theorem decodeUnit_value (u : CommandUnit) : decodeUnit (unitValue u) = .ok u := by
  have events : (u.events.map eventValue).map decodeEvent = u.events := by
    rw [List.map_map]
    exact List.map_id'' (fun _ => rfl) _
  have facts : (u.facts.map factValue).map decodeFact = u.facts := by
    rw [List.map_map]
    exact List.map_id'' (fun _ => rfl) _
  have command : decodeCommand (commandValue u.command) = u.command := rfl
  simp only [decodeUnit, unitValue, arrayField, Json.member, Json.lookup, String.reduceEq, if_true, if_false,
    events, facts, command]

theorem decodeUnits_value (units : List CommandUnit) : decodeUnits (units.map unitValue) = .ok units := by
  induction units with
  | nil => rfl
  | cons u rest ih =>
    simp only [List.map_cons, decodeUnits, decodeUnit_value, ih]
    rfl

theorem decodeLine_value (batch : JournalBatch) : decodeLine (lineValue batch) = .ok batch := by
  have units : arrayField (bodyValue batch) "units" = batch.units.map unitValue := rfl
  have body : decodeBody (bodyValue batch) = .ok batch := by
    unfold decodeBody bodyValue
    simp only
    rw [← bodyValue, units, decodeUnits_value]
    rfl
  show (if "journal_batch" ≠ "journal_batch" then
    Except.error ("Unsupported journal line kind: " ++ "journal_batch") else decodeBody (bodyValue batch)) = _
  rw [if_neg (by decide), body]

/-! The texts that are put together spell these values. -/

theorem compactItems_map {α : Type} (value : α → Json) (items : List α) :
    e.compactItems (items.map value) = items.map fun item => e.compact (value item) := by
  induction items with
  | nil => rfl
  | cons item rest ih => simp [Ember.compactItems, ih]

theorem encodeUnit_compact (u : CommandUnit) : encodeUnit e u = e.compact (unitValue u) := by
  have events : u.events.map (encodeEvent e) = e.compactItems (u.events.map eventValue) := by
    rw [compactItems_map]
    rfl
  have facts : u.facts.map (encodeFact e) = e.compactItems (u.facts.map factValue) := by
    rw [compactItems_map]
    rfl
  rw [encodeUnit, events, facts]
  rfl

theorem encodeBody_compact (batch : JournalBatch) : encodeBody e batch = e.compact (bodyValue batch) := by
  have units : batch.units.map (encodeUnit e) = e.compactItems (batch.units.map unitValue) := by
    rw [compactItems_map]
    exact List.map_congr_left fun u _ => encodeUnit_compact e u
  rw [encodeBody, units]
  rfl

theorem plainItems_map {α : Type} {value : α → Json} (isPlain : ∀ item, (value item).plain = true)
    (items : List α) : Json.plainItems (items.map value) = true := by
  induction items with
  | nil => rfl
  | cons item rest ih => simp [Json.plainItems, isPlain, ih]

theorem commandValue_plain (cmd : CommandRecord) : (commandValue cmd).plain = true := rfl

theorem eventValue_plain (event : EventRecord) : (eventValue event).plain = true := rfl

theorem factValue_plain (fact : StateFact) : (factValue fact).plain = true := rfl

theorem unitValue_plain (u : CommandUnit) : (unitValue u).plain = true := by
  have events : Json.plainItems (u.events.map eventValue) = true := plainItems_map eventValue_plain _
  have facts : Json.plainItems (u.facts.map factValue) = true := plainItems_map factValue_plain _
  simp only [unitValue, Json.plain, Json.plainMembers, commandValue_plain, events, facts]
  rfl

theorem bodyValue_plain (batch : JournalBatch) : (bodyValue batch).plain = true := by
  have units : Json.plainItems (batch.units.map unitValue) = true := plainItems_map unitValue_plain _
  simp only [bodyValue, Json.plain, Json.plainMembers, units]
  rfl

theorem lineValue_plain (batch : JournalBatch) : (lineValue batch).plain = true := by
  simp only [lineValue, Json.plain, Json.plainMembers, bodyValue_plain]
  rfl

variable {e}

theorem encodeBatchLine_eq (faithful : e.Faithful) (batch : JournalBatch) :
    encodeBatchLine e batch = e.write (lineValue batch).canonical ++ [newline] := by
  have text : objectText [("v", utf8 "1"), ("kind", utf8 "\"journal_batch\""), ("batch", encodeBody e batch)] =
      e.compact (lineValue batch) := by
    have literal : "\"journal_batch\"" = "\"" ++ "journal_batch" ++ "\"" := by decide
    rw [literal, ← faithful.quoted "journal_batch" (by decide), encodeBody_compact]
    rfl
  unfold encodeBatchLine Ember.canonicalJsonText
  simp only [text, faithful.compact _ (lineValue_plain batch), Except.map]

theorem decode_encode (faithful : e.Faithful) (batch : JournalBatch) :
    decodeJournalLine e (encodeBatchLine e batch) = .ok batch := by
  have isPlain := Json.plain_canonical _ (lineValue_plain batch)
  rw [encodeBatchLine_eq faithful, decodeJournalLine, faithful.ended _ isPlain]
  exact (decodeLine_canonical _).trans (decodeLine_value batch)

end Fala.Jsonl
