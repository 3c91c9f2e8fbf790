import Fala.Json.Messages

/-! What both sides build and accept, and what they refuse once it was altered. -/

namespace Fala.Protocol
open Json Schema

/-- An object that names each member once. -/
def Distinct : Json → Prop
  | .obj members => (members.map Prod.fst).Nodup
  | _ => True

def MojoAccepts (digest : Json → String) (message : Json) (expected : String) : Prop :=
  validateMessage digest message expected = .ok ()

def PythonAccepts (digest : Json → String) (message : Json) (expected : String) : Prop :=
  ∃ typed, Python.validatedWire digest message expected = .ok typed

/-- A message that a constructor made of a body: the body, perhaps in another order, and its id. -/
structure Builds (digest : Json → String) (body members : List (String × Json)) : Prop where
  distinct : (members.map Prod.fst).Nodup
  shown : ∀ key, key ≠ "id" → (lookup key members).map canonical = (lookup key body).map canonical
  names : ∀ m ∈ members, m.1 = "id" ∨ m.1 ∈ body.map Prod.fst
  id : lookup "id" members = some (.str (messageId digest (.obj (withoutId members))))

theorem canonical_str {value : Json} {text : String} : value.canonical = .str text ↔ value = .str text := by
  cases value <;> simp [canonical]

theorem canonical_isObject {value : Json} : (∃ held, value.canonical = .obj held) ↔ ∃ held, value = .obj held := by
  cases value <;> simp [canonical]

section
variable {digest : Json → String} {body members : List (String × Json)} {kind expected : String}

theorem withoutId_append (absent : "id" ∉ body.map Prod.fst) (value : Json) :
    withoutId (body ++ [("id", value)]) = body := by
  have kept : body.filter (fun m => m.1 ≠ "id") = body := by
    rw [List.filter_eq_self]
    intro m member
    refine decide_eq_true fun same => absent ?_
    exact same ▸ List.mem_map_of_mem member
  rw [withoutId, List.filter_append, kept]
  simp

theorem builds_plain (distinct : (body.map Prod.fst).Nodup) (absent : "id" ∉ body.map Prod.fst) :
    Builds digest body (body ++ [("id", .str (messageId digest (.obj body)))]) where
  distinct := by
    rw [List.map_append, List.nodup_append]
    refine ⟨distinct, by simp, ?_⟩
    rintro name member _ last rfl
    have same : name = "id" := List.mem_singleton.mp last
    exact absent (same ▸ member)
  shown key other := by
    rw [lookup_append, lookup_singleton, if_neg (Ne.symm other), Option.or_none]
  names m member := by
    rcases List.mem_append.mp member with member | member
    · exact .inr (List.mem_map_of_mem member)
    · exact .inl (congrArg Prod.fst (List.mem_singleton.mp member))
  id := by
    rw [lookup_append, lookup_none_iff.mpr absent, withoutId_append absent]
    rfl

theorem builds_signed (distinct : (body.map Prod.fst).Nodup) (absent : "id" ∉ body.map Prod.fst) :
    ∃ members, signed digest body = .obj members ∧ Builds digest body members := by
  have plain : Builds digest body _ := builds_plain distinct absent
  have perm := sortMembers_perm (canonicalMembers (body ++ [("id", .str (messageId digest (.obj body)))]))
  have names := names_canonicalMembers (body ++ [("id", .str (messageId digest (.obj body)))])
  have found (key : String) : lookup key (sortMembers (canonicalMembers
      (body ++ [("id", .str (messageId digest (.obj body)))]))) =
        (lookup key (body ++ [("id", .str (messageId digest (.obj body)))])).map canonical := by
    rw [lookup_sortMembers, lookup_canonicalMembers]
  refine ⟨_, rfl, ?_, fun key other => ?_, fun m member => ?_, ?_⟩
  · exact (perm.map Prod.fst).nodup_iff.mpr (names ▸ plain.distinct)
  · rw [found, plain.shown key other, Option.map_map]
    exact congrArg (fun f => (lookup key body).map f) (funext canonical_canonical)
  · have listed : m.1 ∈ (canonicalMembers (body ++ [("id", .str (messageId digest (.obj body)))])).map Prod.fst :=
      List.mem_map_of_mem (perm.mem_iff.mp member)
    rw [names] at listed
    obtain ⟨old, held, same⟩ := List.mem_map.mp listed
    exact same ▸ plain.names old held
  · have bodies : (withoutId (sortMembers (canonicalMembers (body ++ [("id", .str (messageId digest (.obj body)))])))).Perm
        (canonicalMembers body) := by
      refine (perm.filter _).trans (.of_eq ?_)
      rw [canonicalMembers_append]
      exact withoutId_append (by rwa [names_canonicalMembers]) _
    have apart : ((withoutId (sortMembers (canonicalMembers
        (body ++ [("id", .str (messageId digest (.obj body)))])))).map Prod.fst).Nodup :=
      (bodies.map Prod.fst).nodup_iff.mpr (names_canonicalMembers body ▸ distinct)
    have same : messageId digest (.obj (canonicalMembers body)) = messageId digest (.obj body) := by
      rw [messageId, messageId, canonical, canonical, canonicalMembers_canonicalMembers]
    rw [found, lookup_append, lookup_none_iff.mpr absent, messageId_perm bodies apart, same]
    rfl

theorem Builds.text (builds : Builds digest body members) {key text : String} (other : key ≠ "id") :
    lookup key members = some (.str text) ↔ lookup key body = some (.str text) := by
  have same := builds.shown key other
  constructor
  · intro found
    rw [found, Option.map_some, eq_comm, Option.map_eq_some_iff] at same
    obtain ⟨value, held, shown⟩ := same
    rw [held, canonical_str.mp shown]
  · intro found
    rw [found, Option.map_some, Option.map_eq_some_iff] at same
    obtain ⟨value, held, shown⟩ := same
    rw [held, canonical_str.mp shown]

theorem Builds.object (builds : Builds digest body members) {key : String} (other : key ≠ "id") :
    (∃ held, lookup key members = some (.obj held)) ↔ ∃ held, lookup key body = some (.obj held) := by
  have same := builds.shown key other
  have shape (value : Option Json) : (∃ held, value = some (.obj held)) ↔
      ∃ held, value.map canonical = some (.obj held) := by
    cases value with
    | none => simp
    | some value =>
      simp only [Option.map_some, Option.some.injEq]
      exact canonical_isObject.symm
  rw [shape, shape (lookup key body), same]

/-- The fields that the body of a message of a kind has to have. -/
structure Fields (kind : String) (body : List (String × Json)) : Prop where
  known : kind = "request" ∨ kind = "result"
  protocol : lookup "protocol" body = some (.str "fala")
  named : lookup "kind" body = some (.str kind)
  texts : ∀ key ∈ ["from", "to", "job", "contract_id", "contract_version"],
    ∃ text, text ≠ "" ∧ lookup key body = some (.str text)
  ref : kind ≠ "request" → ∃ text, text ≠ "" ∧ lookup "ref" body = some (.str text)
  status : kind ≠ "request" → ∃ text, (text = "ok" ∨ text = "error") ∧ lookup "status" body = some (.str text)
  closed : ∀ name ∈ body.map Prod.fst, name ∈ fieldsOf kind

theorem Fields.builds_signed (_fields : Fields kind body) (digest : Json → String)
    (distinct : (body.map Prod.fst).Nodup ∧ "id" ∉ body.map Prod.fst) :
    ∃ members, signed digest body = .obj members ∧ Builds digest body members :=
  Protocol.builds_signed distinct.1 distinct.2

theorem Builds.sound_iff (builds : Builds digest body members) (fields : Fields kind body) :
    Sound digest kind members ↔ (∃ held, lookup "payload" body = some (.obj held)) ∧
      (kind = "request" → ∃ held, lookup "config" body = some (.obj held)) := by
  have payloads := builds.object (show "payload" ≠ "id" by decide)
  have configs := builds.object (show "config" ≠ "id" by decide)
  rw [← payloads, ← configs]
  constructor
  · exact fun sound => ⟨sound.payload, sound.config⟩
  rintro ⟨payload, config⟩
  refine ⟨(builds.text (by decide)).mpr fields.protocol, (builds.text (by decide)).mpr fields.named, fields.known,
    fun key listed => ?_, payload, config, fun other => ?_, fun other => ?_, fun m member => ?_, builds.id⟩
  · obtain ⟨text, given, found⟩ := fields.texts key listed
    have apart : key ≠ "id" := by
      rintro rfl
      exact absurd listed (by decide)
    exact ⟨text, given, (builds.text apart).mpr found⟩
  · obtain ⟨text, given, found⟩ := fields.ref other
    exact ⟨text, given, (builds.text (by decide)).mpr found⟩
  · obtain ⟨text, given, found⟩ := fields.status other
    exact ⟨text, given, (builds.text (by decide)).mpr found⟩
  · rcases builds.names m member with id | listed
    · rw [id]
      rcases fields.known with rfl | rfl <;> decide
    · exact fields.closed _ listed

theorem agree (distinct : Distinct (.obj members)) :
    PythonAccepts digest (.obj members) expected ↔ MojoAccepts digest (.obj members) expected :=
  (validatedWire_ok distinct).trans validateMessage_ok.symm

theorem accepts_iff (named : lookup "kind" members = some (.str kind)) (expects : expected = "" ∨ kind = expected) :
    MojoAccepts digest (.obj members) expected ↔ Sound digest kind members := by
  refine validateMessage_ok.trans ⟨?_, fun sound => ⟨kind, expects, sound⟩⟩
  rintro ⟨other, -, sound⟩
  have same := named.symm.trans sound.named
  cases same
  exact sound

theorem canonicalText_ok {text : Text} {value : Json} :
    canonicalText text = .ok value ↔ text.parse.map canonical = some value := by
  unfold canonicalText
  cases text.parse <;> simp

theorem contractFields_ok {id version : String} {contract : List (String × Json)} :
    contractFields id version = .ok contract ↔
      id ≠ "" ∧ version ≠ "" ∧ [("contract_id", .str id), ("contract_version", .str version)] = contract := by
  simp only [contractFields, bind_ok, ensure_ok, decide_eq_true_eq, exists_const, pure, Except.pure,
    Except.ok.injEq]

/-- A text that spells an object. -/
def SpellsObject (text : Text) : Prop := ∃ held, text.parse = some (.obj held)

theorem spellsObject_iff {text : Text} {value : Json} (read : text.parse.map canonical = some value) :
    SpellsObject text ↔ ∃ held, some value = some (.obj held) := by
  unfold SpellsObject
  rw [← read]
  cases text.parse with
  | none => simp
  | some value =>
    simp only [Option.map_some, Option.some.injEq]
    exact canonical_isObject.symm

theorem requestMessage_sound {sender recipient job id version : String} {payload config : Text} {message : Json}
    (built : requestMessage digest sender recipient job payload config id version = .ok message) :
    ∃ members, message = .obj members ∧ (members.map Prod.fst).Nodup ∧ lookup "kind" members = some (.str "request") ∧
      (Sound digest "request" members ↔ SpellsObject payload ∧ SpellsObject config) := by
  simp only [requestMessage, bind_ok, ensure_ok, decide_eq_true_eq, exists_const, canonicalText_ok, contractFields_ok,
    pure, Except.pure, Except.ok.injEq] at built
  obtain ⟨⟨fromText, toText, jobText⟩, payloadValue, payloadRead, configValue, configRead, _, ⟨idText, versionText, rfl⟩,
    rfl⟩ := built
  have fields : Fields "request" ([("config", configValue), ("from", .str sender), ("job", .str job),
      ("kind", .str "request"), ("payload", payloadValue), ("protocol", .str "fala"), ("to", .str recipient)] ++
        [("contract_id", .str id), ("contract_version", .str version)]) := {
    known := .inl rfl
    protocol := rfl
    named := rfl
    texts := texts_of ⟨sender, fromText, rfl⟩ ⟨recipient, toText, rfl⟩ ⟨job, jobText, rfl⟩ ⟨id, idText, rfl⟩
      ⟨version, versionText, rfl⟩
    ref := fun other => absurd rfl other
    status := fun other => absurd rfl other
    closed := by simp [fieldsOf, requestFields] }
  obtain ⟨members, shown, builds⟩ := fields.builds_signed digest (by simp)
  refine ⟨members, shown, builds.distinct, (builds.text (by decide)).mpr rfl, ?_⟩
  rw [builds.sound_iff fields, spellsObject_iff payloadRead, spellsObject_iff configRead]
  simp [lookup]

theorem resultMessage_sound {sender recipient job requestId status id version : String} {payload : Text}
    {message : Json}
    (built : resultMessage digest sender recipient job requestId payload status id version = .ok message) :
    ∃ members, message = .obj members ∧ (members.map Prod.fst).Nodup ∧ lookup "kind" members = some (.str "result") ∧
      (Sound digest "result" members ↔ SpellsObject payload) := by
  simp only [resultMessage, bind_ok, ensure_ok, decide_eq_true_eq, exists_const, canonicalText_ok, contractFields_ok,
    pure, Except.pure, Except.ok.injEq] at built
  obtain ⟨⟨fromText, toText, jobText, refText, settled⟩, payloadValue, payloadRead, _, ⟨idText, versionText, rfl⟩,
    rfl⟩ := built
  have fields : Fields "result" ([("from", .str sender), ("job", .str job), ("kind", .str "result"),
      ("payload", payloadValue), ("protocol", .str "fala"), ("ref", .str requestId), ("status", .str status),
      ("to", .str recipient)] ++ [("contract_id", .str id), ("contract_version", .str version)]) := {
    known := .inr rfl
    protocol := rfl
    named := rfl
    texts := texts_of ⟨sender, fromText, rfl⟩ ⟨recipient, toText, rfl⟩ ⟨job, jobText, rfl⟩ ⟨id, idText, rfl⟩
      ⟨version, versionText, rfl⟩
    ref := fun _ => ⟨requestId, refText, rfl⟩
    status := fun _ => ⟨status, settled, rfl⟩
    closed := by simp [fieldsOf, resultFields] }
  obtain ⟨members, shown, builds⟩ := fields.builds_signed digest (by simp)
  refine ⟨members, shown, builds.distinct, (builds.text (by decide)).mpr rfl, ?_⟩
  rw [builds.sound_iff fields, spellsObject_iff payloadRead]
  simp [lookup]

theorem builds_accepted (builds : Builds digest body members) (fields : Fields kind body)
    (payload : ∃ held, lookup "payload" body = some (.obj held))
    (config : kind = "request" → ∃ held, lookup "config" body = some (.obj held))
    (expects : expected = "" ∨ kind = expected) :
    MojoAccepts digest (.obj members) expected ∧ PythonAccepts digest (.obj members) expected := by
  have named : lookup "kind" members = some (.str kind) := (builds.text (by decide)).mpr fields.named
  have mojo : MojoAccepts digest (.obj members) expected :=
    (accepts_iff named expects).mpr ((builds.sound_iff fields).mpr ⟨payload, config⟩)
  have distinct : Distinct (.obj members) := builds.distinct
  exact ⟨mojo, (agree distinct).mpr mojo⟩

theorem toMessage_request {sender recipient job id version : String} {payload config : List (String × Json)}
    {request : Python.Request} {message : Json}
    (made : Python.makeRequest digest sender recipient job payload config id version = .ok request)
    (shown : request.toMessage = .ok message) (expects : expected = "" ∨ "request" = expected) :
    MojoAccepts digest message expected ∧ PythonAccepts digest message expected := by
  obtain ⟨⟨fromText, toText, jobText⟩, ⟨idText, versionText⟩, rfl⟩ := makeRequest_ok.mp made
  simp only [Python.Request.toMessage, bind_ok, contractBody_ok, pure, Except.pure, Except.ok.injEq] at shown
  obtain ⟨_, ⟨-, -, rfl⟩, rfl⟩ := shown
  have fields : Fields "request" (Python.requestBody sender recipient job payload config
      [("contract_id", .str id), ("contract_version", .str version)]) := {
    known := .inl rfl
    protocol := rfl
    named := rfl
    texts := texts_of ⟨sender, fromText, rfl⟩ ⟨recipient, toText, rfl⟩ ⟨job, jobText, rfl⟩ ⟨id, idText, rfl⟩
      ⟨version, versionText, rfl⟩
    ref := fun other => absurd rfl other
    status := fun other => absurd rfl other
    closed := by simp [Python.requestBody, fieldsOf, requestFields] }
  exact builds_accepted (builds_plain (by simp [Python.requestBody]) (by simp [Python.requestBody])) fields
    ⟨payload, rfl⟩ (fun _ => ⟨config, rfl⟩) expects

theorem toMessage_result {sender recipient job ref status id version : String} {payload : List (String × Json)}
    {result : Python.Result} {message : Json}
    (made : Python.makeResult digest sender recipient job ref status payload id version = .ok result)
    (shown : result.toMessage = .ok message) (expects : expected = "" ∨ "result" = expected) :
    MojoAccepts digest message expected ∧ PythonAccepts digest message expected := by
  obtain ⟨⟨fromText, toText, jobText, refText⟩, settled, ⟨idText, versionText⟩, rfl⟩ := makeResult_ok.mp made
  simp only [Python.Result.toMessage, bind_ok, contractBody_ok, pure, Except.pure, Except.ok.injEq] at shown
  obtain ⟨_, ⟨-, -, rfl⟩, rfl⟩ := shown
  have fields : Fields "result" (Python.resultBody sender recipient job ref status payload
      [("contract_id", .str id), ("contract_version", .str version)]) := {
    known := .inr rfl
    protocol := rfl
    named := rfl
    texts := texts_of ⟨sender, fromText, rfl⟩ ⟨recipient, toText, rfl⟩ ⟨job, jobText, rfl⟩ ⟨id, idText, rfl⟩
      ⟨version, versionText, rfl⟩
    ref := fun _ => ⟨ref, refText, rfl⟩
    status := fun _ => ⟨status, settled, rfl⟩
    closed := by simp [Python.resultBody, fieldsOf, resultFields] }
  exact builds_accepted (builds_plain (by simp [Python.resultBody]) (by simp [Python.resultBody])) fields
    ⟨payload, rfl⟩ (fun other => absurd other (by decide)) expects

/-- A message with some of its fields changed and the id left as it was, or with another id. -/
def Altered (members others : List (String × Json)) : Prop :=
  (lookup "id" others = lookup "id" members ∧
    ∃ key, (lookup key others).map canonical ≠ (lookup key members).map canonical) ∨
  (lookup "id" others ≠ lookup "id" members ∧ ∀ key, key ≠ "id" → lookup key others = lookup key members)

/-- Two bodies that have one address print the same. -/
def CollisionFree (digest : Json → String) (members others : List (String × Json)) : Prop :=
  digest (Json.obj (withoutId others)).canonical = digest (Json.obj (withoutId members)).canonical →
    (Json.obj (withoutId others)).canonical = (Json.obj (withoutId members)).canonical

theorem messageId_injective {one two : Json} (same : messageId digest one = messageId digest two) :
    digest one.canonical = digest two.canonical :=
  String.append_right_inj _ |>.mp same

theorem lookup_of_canonical {others : List (String × Json)}
    (same : (Json.obj others).canonical = (Json.obj members).canonical) (key : String) :
    (lookup key others).map canonical = (lookup key members).map canonical := by
  rw [canonical, canonical, Json.obj.injEq] at same
  rw [← lookup_canonicalMembers, ← lookup_canonicalMembers, ← lookup_sortMembers, same, lookup_sortMembers]

theorem Sound.altered {other : String} {others : List (String × Json)} (sound : Sound digest kind members)
    (free : CollisionFree digest members others) (distinct : (members.map Prod.fst).Nodup)
    (apart : (others.map Prod.fst).Nodup) (altered : Altered members others) : ¬ Sound digest other others := by
  intro accepted
  rcases altered with ⟨kept, key, changed⟩ | ⟨changed, kept⟩
  · have ids := kept
    rw [accepted.id, sound.id, Option.some.injEq, Json.str.injEq] at ids
    have shown := lookup_of_canonical (free (messageId_injective ids)) key
    rw [withoutId, withoutId, lookup_filter_ne, lookup_filter_ne] at shown
    by_cases id : key = "id"
    · rw [id, kept] at changed
      exact changed rfl
    · rw [if_neg id, if_neg id] at shown
      exact changed shown
  · have same : (withoutId others).Perm (withoutId members) := by
      refine perm_of_lookup (withoutId_distinct apart) (withoutId_distinct distinct) fun key => ?_
      rw [withoutId, withoutId, lookup_filter_ne, lookup_filter_ne]
      by_cases id : key = "id"
      · rw [if_pos id, if_pos id]
      · rw [if_neg id, if_neg id, kept key id]
    rw [accepted.id, sound.id, messageId_perm same (withoutId_distinct apart)] at changed
    exact changed rfl

theorem tampered {others : List (String × Json)} (distinct : Distinct (.obj members)) (apart : Distinct (.obj others))
    (free : CollisionFree digest members others) (altered : Altered members others)
    (accepted : MojoAccepts digest (.obj members) expected) (any : String) :
    ¬ MojoAccepts digest (.obj others) any ∧ ¬ PythonAccepts digest (.obj others) any := by
  obtain ⟨kind, -, sound⟩ := validateMessage_ok.mp accepted
  have refused : ¬ MojoAccepts digest (.obj others) any := by
    intro again
    obtain ⟨other, -, found⟩ := validateMessage_ok.mp again
    exact sound.altered free distinct apart altered found
  exact ⟨refused, fun again => refused ((agree apart).mp again)⟩

theorem agree_all {message : Json} (distinct : Distinct message) :
    PythonAccepts digest message expected ↔ MojoAccepts digest message expected := by
  cases message with
  | obj members => exact agree distinct
  | _ => simp [PythonAccepts, MojoAccepts, Python.validatedWire, validateMessage, bind_ok, ensure_ok, isObject]

end

/-- Both validators accept a message. -/
def BothAccept (digest : Json → String) (message : Json) (expected : String) : Prop :=
  MojoAccepts digest message expected ∧ PythonAccepts digest message expected

/-- Both validators accept the same messages, the ones that the Python constructors made among them, and no altered
one; a Mojo constructor's message is accepted exactly when its texts spell objects. -/
theorem one_meaning (digest : Json → String) :
    (∀ message expected, Distinct message → (MojoAccepts digest message expected ↔ PythonAccepts digest message expected)) ∧
    (∀ sender recipient job payload config id version message expected, expected = "" ∨ "request" = expected →
      requestMessage digest sender recipient job payload config id version = .ok message →
      (BothAccept digest message expected ↔ SpellsObject payload ∧ SpellsObject config)) ∧
    (∀ sender recipient job requestId payload status id version message expected, expected = "" ∨ "result" = expected →
      resultMessage digest sender recipient job requestId payload status id version = .ok message →
      (BothAccept digest message expected ↔ SpellsObject payload)) ∧
    (∀ sender recipient job payload config id version request message expected, expected = "" ∨ "request" = expected →
      Python.makeRequest digest sender recipient job payload config id version = .ok request →
      request.toMessage = .ok message → BothAccept digest message expected) ∧
    (∀ sender recipient job ref status payload id version result message expected, expected = "" ∨ "result" = expected →
      Python.makeResult digest sender recipient job ref status payload id version = .ok result →
      result.toMessage = .ok message → BothAccept digest message expected) ∧
    ∀ members others expected any, Distinct (.obj members) → Distinct (.obj others) →
      CollisionFree digest members others → BothAccept digest (.obj members) expected → Altered members others →
      ¬ MojoAccepts digest (.obj others) any ∧ ¬ PythonAccepts digest (.obj others) any := by
  refine ⟨fun message expected distinct => (agree_all distinct).symm, ?_, ?_, ?_, ?_, ?_⟩
  · intro sender recipient job payload config id version message expected expects built
    obtain ⟨members, rfl, distinct, named, sound⟩ := requestMessage_sound built
    rw [BothAccept, agree distinct, and_self, accepts_iff named expects, sound]
  · intro sender recipient job requestId payload status id version message expected expects built
    obtain ⟨members, rfl, distinct, named, sound⟩ := resultMessage_sound built
    rw [BothAccept, agree distinct, and_self, accepts_iff named expects, sound]
  · intro sender recipient job payload config id version request message expected expects made shown
    exact toMessage_request made shown expects
  · intro sender recipient job ref status payload id version result message expected expects made shown
    exact toMessage_result made shown expects
  · intro members others expected any distinct apart free accepted altered
    exact tampered distinct apart free altered accepted.1 any

/-- An address that tells the job of a message. -/
def jobDigest (body : Json) : String :=
  match body.member "job" with
  | some (.str job) => job
  | _ => ""

def jobMessage (job : String) (payload : Json) : List (String × Json) :=
  [("config", .obj []), ("contract_id", .str "schema"), ("contract_version", .str "1"), ("from", .str "parent"),
    ("id", .str "msg:sha256:build"), ("job", .str job), ("kind", .str "request"), ("payload", payload),
    ("protocol", .str "fala"), ("to", .str "worker")]

theorem one_meaning_build :
    requestMessage jobDigest "parent" "worker" "build" (.printed (.obj [])) (.printed (.obj [])) "schema" "1" =
      .ok (.obj (jobMessage "build" (.obj []))) ∧
    BothAccept jobDigest (.obj (jobMessage "build" (.obj []))) "request" ∧
    ¬ PythonAccepts jobDigest (.obj (jobMessage "deploy" (.obj []))) "request" := by
  have spells : SpellsObject (.printed (.obj [])) := ⟨[], rfl⟩
  obtain ⟨-, requests, -, -, -, altered⟩ := one_meaning jobDigest
  have accepted := (requests "parent" "worker" "build" (.printed (.obj [])) (.printed (.obj [])) "schema" "1"
    (.obj (jobMessage "build" (.obj []))) "request" (.inr rfl) rfl).mpr ⟨spells, spells⟩
  have distinct (job : String) : Distinct (.obj (jobMessage job (.obj []))) := by
    show ((jobMessage job (.obj [])).map Prod.fst).Nodup
    simp [jobMessage]
  have free : CollisionFree jobDigest (jobMessage "build" (.obj [])) (jobMessage "deploy" (.obj [])) :=
    fun same => absurd same (by decide +kernel)
  have changed := altered _ _ "request" "request" (distinct "build") (distinct "deploy") free accepted
    (.inl ⟨rfl, "job", by decide +kernel⟩)
  exact ⟨rfl, accepted, changed.2⟩

/-- A payload that is a list goes out in a request, and neither side accepts it. -/
theorem list_payload_sent :
    requestMessage jobDigest "parent" "worker" "build" (.printed (.arr [])) (.printed (.obj [])) "schema" "1" =
      .ok (.obj (jobMessage "build" (.arr []))) ∧
    ¬ MojoAccepts jobDigest (.obj (jobMessage "build" (.arr []))) "request" ∧
    ¬ PythonAccepts jobDigest (.obj (jobMessage "build" (.arr []))) "request" := by
  refine ⟨rfl, ?_, ?_⟩
  · have raised : validateMessage jobDigest (.obj (jobMessage "build" (.arr []))) "request" ≠ .ok () := by
      decide +kernel
    exact raised
  · rintro ⟨typed, accepted⟩
    have raised : Python.validatedWire jobDigest (.obj (jobMessage "build" (.arr []))) "request" =
        .error "fep.type_invalid at /payload" := by
      decide +kernel
    cases accepted.symm.trans raised

end Fala.Protocol
