import Fala.Json.Schema

namespace Fala.Protocol
open Json Schema

/-- `_required_string` -/
def requiredString (value : Json) (key path : String) : Except String String :=
  match value.member key with
  | some (.str text) =>
    if text = "" then .error ("fep.required at " ++ path ++ "/" ++ key) else .ok text
  | _ => .error ("fep.required at " ++ path ++ "/" ++ key)

def closed (allowed : List String) (path : String) : List (String × Json) → Except String Unit
  | [] => return ()
  | (key, _) :: rest => do
    ensure (allowed.contains key) ("fep.unknown_field at " ++ path ++ "/" ++ key)
    closed allowed path rest

def requestFields : List String :=
  ["protocol", "kind", "id", "from", "to", "job", "payload", "config", "contract_id",
    "contract_version"]

def resultFields : List String :=
  ["protocol", "kind", "id", "from", "to", "job", "ref", "status", "payload", "contract_id",
    "contract_version"]

section

-- The content address that the printer's bytes of a value have.
variable (digest : Json → String)

/-- `validate_message` on a parsed message; an empty expected kind admits both. -/
def validateMessage (message : Json) (expectedKind : String) : Except String Unit := do
  ensure message.isObject "fep.invalid_json: message must be object"
  let protocol ← requiredString message "protocol" ""
  ensure (protocol = "fala") ("fep.unknown_protocol: " ++ protocol)
  let kind ← requiredString message "kind" ""
  ensure (kind = "request" ∨ kind = "result") ("fep.unknown_message_kind: " ++ kind)
  ensure (expectedKind = "" ∨ kind = expectedKind) ("fep.unexpected_message_kind: " ++ kind)
  let _ ← requiredString message "from" ""
  let _ ← requiredString message "to" ""
  let _ ← requiredString message "job" ""
  ensure ((message.member "payload").any isObject) "fep.type_invalid at /payload"
  if kind = "request" then
    ensure ((message.member "config").any isObject) "fep.type_invalid at /config"
  else
    let _ ← requiredString message "ref" ""
    let status ← requiredString message "status" ""
    ensure (status = "ok" ∨ status = "error") "fep.status_invalid at /status"
  match message with
  | .obj members =>
    closed (if kind = "request" then requestFields else resultFields) "" members
    let _ ← requiredString message "contract_id" ""
    let _ ← requiredString message "contract_version" ""
    let supplied ← requiredString message "id" ""
    let body := canonical (.obj (members.filter fun m => m.1 ≠ "id"))
    ensure (supplied = "msg:sha256:" ++ digest body) "fep.digest_mismatch"
  | _ => return ()

/-- `domain_payload`: the payload of a result message, and any other value itself. -/
def domainPayload (text : Text) : Except String Json := do
  match text.parse with
  | none => .error "invalid JSON"
  | some value =>
    match value with
    | .obj members =>
      match lookup "protocol" members, lookup "kind" members, lookup "payload" members with
      | some _, some (.str "result"), some (.obj payload) =>
        validateMessage digest (.obj (members.filter fun m => m.1 ≠ "adapter")) "result"
        return canonical (.obj payload)
      | _, _, _ => return value.canonical
    | _ => return value.canonical

end

end Fala.Protocol

/-! The wire protocol of the other language, and the constructors of both. -/

namespace Fala.Protocol
open Json Schema

section

-- The content address that the printer's bytes of a value have.
variable (digest : Json → String)

/-- `_digest` of a body, and `_message_id`. -/
def messageId (body : Json) : String := "msg:sha256:" ++ digest body.canonical

def withoutId (members : List (String × Json)) : List (String × Json) := members.filter fun m => m.1 ≠ "id"

/-! The constructors of the Mojo side. -/

def canonicalText (text : Text) : Except String Json :=
  match text.parse with
  | some value => .ok value.canonical
  | none => .error "json: invalid JSON"

/-- `_contract_fields_json` -/
def contractFields (contractId contractVersion : String) : Except String (List (String × Json)) := do
  ensure (contractId ≠ "") "fep.required at /contract_id"
  ensure (contractVersion ≠ "") "fep.required at /contract_version"
  return [("contract_id", .str contractId), ("contract_version", .str contractVersion)]

/-- A body with its id, printed. -/
def signed (members : List (String × Json)) : Json :=
  (Json.obj (members ++ [("id", .str (messageId digest (.obj members)))])).canonical

/-- `request_message` -/
def requestMessage (sender recipient job : String) (payloadJson configJson : Text)
    (contractId contractVersion : String) : Except String Json := do
  ensure (sender ≠ "" ∧ recipient ≠ "" ∧ job ≠ "") "fep.request_invalid: required identity is missing"
  let payload ← canonicalText payloadJson
  let config ← canonicalText configJson
  let contract ← contractFields contractId contractVersion
  return signed digest
    ([("config", config), ("from", .str sender), ("job", .str job), ("kind", .str "request"), ("payload", payload),
      ("protocol", .str "fala"), ("to", .str recipient)] ++ contract)

/-- `result_message` -/
def resultMessage (sender recipient job requestId : String) (payloadJson : Text) (status : String)
    (contractId contractVersion : String) : Except String Json := do
  ensure (sender ≠ "" ∧ recipient ≠ "" ∧ job ≠ "" ∧ requestId ≠ "" ∧ (status = "ok" ∨ status = "error"))
    "fep.result_invalid: identity or status missing"
  let payload ← canonicalText payloadJson
  let contract ← contractFields contractId contractVersion
  return signed digest
    ([("from", .str sender), ("job", .str job), ("kind", .str "result"), ("payload", payload),
      ("protocol", .str "fala"), ("ref", .str requestId), ("status", .str status), ("to", .str recipient)] ++ contract)

/-! The Python side. -/

namespace Python

/-- `Request`; its mappings are the members of JSON objects. -/
structure Request where
  sender : String
  recipient : String
  job : String
  payload : List (String × Json)
  config : List (String × Json)
  contractId : String
  contractVersion : String
  id : String
  deriving DecidableEq

/-- `Result` -/
structure Result where
  sender : String
  recipient : String
  job : String
  ref : String
  status : String
  payload : List (String × Json)
  contractId : String
  contractVersion : String
  id : String
  deriving DecidableEq

inductive Message where
  | request (r : Request)
  | result (r : Result)
  deriving DecidableEq

def requestFields : List String :=
  ["protocol", "kind", "id", "from", "to", "job", "payload", "config", "contract_id", "contract_version"]

def resultFields : List String :=
  ["protocol", "kind", "id", "from", "to", "job", "ref", "status", "payload", "contract_id", "contract_version"]

def statuses : List String := ["ok", "error"]

/-- `_contract_body` -/
def contractBody (contractId contractVersion : String) : Except String (List (String × Json)) := do
  ensure (contractId ≠ "") "fep.required at /contract_id"
  ensure (contractVersion ≠ "") "fep.required at /contract_version"
  return [("contract_id", .str contractId), ("contract_version", .str contractVersion)]

def requestBody (sender recipient job : String) (payload config contract : List (String × Json)) :
    List (String × Json) :=
  [("protocol", .str "fala"), ("kind", .str "request"), ("from", .str sender), ("to", .str recipient),
    ("job", .str job), ("payload", .obj payload), ("config", .obj config)] ++ contract

def resultBody (sender recipient job ref status : String) (payload contract : List (String × Json)) :
    List (String × Json) :=
  [("protocol", .str "fala"), ("kind", .str "result"), ("from", .str sender), ("to", .str recipient),
    ("job", .str job), ("ref", .str ref), ("status", .str status), ("payload", .obj payload)] ++ contract

/-- `Request.__post_init__`, and `request_message`. -/
def makeRequest (sender recipient job : String) (payload config : List (String × Json))
    (contractId contractVersion : String) : Except String Request := do
  ensure (sender ≠ "" ∧ recipient ≠ "" ∧ job ≠ "") "fep.required at /from"
  let contract ← contractBody contractId contractVersion
  let id := messageId digest (.obj (requestBody sender recipient job payload config contract))
  return { sender, recipient, job, payload, config, contractId, contractVersion, id }

/-- `Result.__post_init__`, and `result_message`. -/
def makeResult (sender recipient job ref status : String) (payload : List (String × Json))
    (contractId contractVersion : String) : Except String Result := do
  ensure (sender ≠ "" ∧ recipient ≠ "" ∧ job ≠ "" ∧ ref ≠ "") "fep.required at /ref"
  ensure (statuses.contains status) "fep.status_invalid at /status"
  let contract ← contractBody contractId contractVersion
  let id := messageId digest (.obj (resultBody sender recipient job ref status payload contract))
  return { sender, recipient, job, ref, status, payload, contractId, contractVersion, id }

/-- `Request.to_message` -/
def Request.toMessage (r : Request) : Except String Json := do
  let contract ← contractBody r.contractId r.contractVersion
  return .obj (requestBody r.sender r.recipient r.job r.payload r.config contract ++ [("id", .str r.id)])

/-- `Result.to_message` -/
def Result.toMessage (r : Result) : Except String Json := do
  let contract ← contractBody r.contractId r.contractVersion
  return .obj (resultBody r.sender r.recipient r.job r.ref r.status r.payload contract ++ [("id", .str r.id)])

/-- `_require_text` -/
def requireText (members : List (String × Json)) (key : String) : Except String String :=
  match lookup key members with
  | some (.str text) => if text = "" then .error ("fep.required at /" ++ key) else .ok text
  | _ => .error ("fep.required at /" ++ key)

/-- `_require_object` -/
def requireObject (members : List (String × Json)) (key : String) : Except String (List (String × Json)) :=
  match lookup key members with
  | some (.obj held) => .ok held
  | _ => .error ("fep.type_invalid at /" ++ key)

/-- The kind of a message, one of the two that there are. -/
def messageKind (members : List (String × Json)) : Except String String :=
  match lookup "kind" members with
  | some (.str kind) =>
    if kind = "request" ∨ kind = "result" then .ok kind else .error "fep.unknown_message_kind at /kind"
  | _ => .error "fep.unknown_message_kind at /kind"

/-- The first of the unknown fields in order. -/
def checkFields (allowed : List String) (members : List (String × Json)) : Except String Unit :=
  match sortMembers (members.filter fun m => ¬ allowed.contains m.1) with
  | [] => .ok ()
  | (name, _) :: _ => .error ("fep.unknown_field at /" ++ name)

/-- `status not in _STATUSES`; a list or an object cannot be looked up. -/
def requireStatus (members : List (String × Json)) : Except String String :=
  match lookup "status" members with
  | some (.str status) => if statuses.contains status then .ok status else .error "fep.status_invalid at /status"
  | some (.arr _) => .error "unhashable type: 'list'"
  | some (.obj _) => .error "unhashable type: 'dict'"
  | _ => .error "fep.status_invalid at /status"

/-- `_validated_wire` -/
def validatedWire (message : Json) (expectedKind : String) : Except String Message :=
  match message with
  | .obj members => do
    ensure (lookup "protocol" members = some (.str "fala")) "fep.unknown_protocol at /protocol"
    let kind ← messageKind members
    ensure (expectedKind = "" ∨ kind = expectedKind) "fep.unexpected_message_kind at /kind"
    checkFields (if kind = "request" then requestFields else resultFields) members
    let sender ← requireText members "from"
    let recipient ← requireText members "to"
    let job ← requireText members "job"
    let payload ← requireObject members "payload"
    let contractId ← requireText members "contract_id"
    let contractVersion ← requireText members "contract_version"
    let supplied ← requireText members "id"
    if kind = "request" then
      let config ← requireObject members "config"
      ensure (supplied = messageId digest (.obj (withoutId members))) "fep.digest_mismatch at /id"
      let request ← makeRequest digest sender recipient job payload config contractId contractVersion
      ensure (request.id = supplied) "fep.digest_mismatch at /id"
      return .request request
    else
      let ref ← requireText members "ref"
      let status ← requireStatus members
      ensure (supplied = messageId digest (.obj (withoutId members))) "fep.digest_mismatch at /id"
      let result ← makeResult digest sender recipient job ref status payload contractId contractVersion
      ensure (result.id = supplied) "fep.digest_mismatch at /id"
      return .result result
  | _ => .error "fep.invalid_json at /"

end Python

end

end Fala.Protocol
