import Fala.Json.Wire

/-! One meaning of a message for both validators. -/

namespace Fala.Protocol
open Json Schema

section
variable {digest : Json → String} {members : List (String × Json)} {kind : String}

theorem requiredString_ok {key path text : String} :
    requiredString (.obj members) key path = .ok text ↔ text ≠ "" ∧ lookup key members = some (.str text) := by
  cases found : lookup key members with
  | none => simp [requiredString, Json.member, found]
  | some value =>
    cases value with
    | str held =>
      by_cases nothing : held = ""
      · simp only [requiredString, Json.member, found, nothing, if_true, reduceCtorEq, Option.some.injEq,
          Json.str.injEq, false_iff, not_and]
        exact fun given same => given same.symm
      · simp only [requiredString, Json.member, found, nothing, if_false, Except.ok.injEq, Option.some.injEq,
          Json.str.injEq]
        exact ⟨fun same => ⟨same ▸ nothing, same⟩, fun both => both.2⟩
    | _ => simp [requiredString, Json.member, found]

theorem requireText_ok {key text : String} :
    Python.requireText members key = .ok text ↔ text ≠ "" ∧ lookup key members = some (.str text) := by
  unfold Python.requireText
  cases lookup key members with
  | none => simp
  | some value =>
    cases value with
    | str held =>
      by_cases nothing : held = ""
      · simp only [nothing, if_true, reduceCtorEq, Option.some.injEq, Json.str.injEq, false_iff, not_and]
        exact fun given same => given same.symm
      · simp only [nothing, if_false, Except.ok.injEq, Option.some.injEq, Json.str.injEq]
        exact ⟨fun same => ⟨same ▸ nothing, same⟩, fun both => both.2⟩
    | _ => simp

theorem requireObject_ok {key : String} {held : List (String × Json)} :
    Python.requireObject members key = .ok held ↔ lookup key members = some (.obj held) := by
  unfold Python.requireObject
  cases lookup key members with
  | none => simp
  | some value => cases value <;> simp

theorem closed_ok {allowed : List String} {path : String} {u : Unit} :
    closed allowed path members = .ok u ↔ ∀ m ∈ members, m.1 ∈ allowed := by
  induction members with
  | nil => simp [closed, pure, Except.pure]
  | cons head rest ih =>
    rw [closed, bind_ok, List.forall_mem_cons, ← ih]
    simp [ensure_ok]

theorem checkFields_ok {allowed : List String} {u : Unit} :
    Python.checkFields allowed members = .ok u ↔ ∀ m ∈ members, m.1 ∈ allowed := by
  have perm := sortMembers_perm (members.filter fun m => ¬ allowed.contains m.1)
  have known : (members.filter fun m => ¬ allowed.contains m.1) = [] ↔ ∀ m ∈ members, m.1 ∈ allowed := by
    rw [List.filter_eq_nil_iff]
    simp
  unfold Python.checkFields
  rw [← known]
  cases sorted : sortMembers (members.filter fun m => ¬ allowed.contains m.1) with
  | nil =>
    rw [sorted] at perm
    simpa using perm.symm
  | cons head rest =>
    rw [sorted] at perm
    have some_ : (members.filter fun m => ¬ allowed.contains m.1) ≠ [] := by
      intro nothing
      rw [nothing] at perm
      exact absurd perm.length_eq (by simp)
    constructor
    · intro raised
      cases raised
    · exact fun nothing => absurd nothing some_

theorem messageKind_ok {found : String} :
    Python.messageKind members = .ok found ↔
      lookup "kind" members = some (.str found) ∧ (found = "request" ∨ found = "result") := by
  unfold Python.messageKind
  cases lookup "kind" members with
  | none => simp
  | some value =>
    cases value with
    | str held =>
      by_cases known : held = "request" ∨ held = "result"
      · simp only [known, if_true, Except.ok.injEq, Option.some.injEq, Json.str.injEq]
        exact ⟨fun same => ⟨same, same ▸ known⟩, fun both => both.1⟩
      · simp only [known, if_false, reduceCtorEq, Option.some.injEq, Json.str.injEq, false_iff, not_and]
        exact fun same => same ▸ known
    | _ => simp

theorem requireStatus_ok {status : String} :
    Python.requireStatus members = .ok status ↔
      lookup "status" members = some (.str status) ∧ (status = "ok" ∨ status = "error") := by
  unfold Python.requireStatus
  cases lookup "status" members with
  | none => simp
  | some value =>
    cases value with
    | str held =>
      have known : Python.statuses.contains held = true ↔ held = "ok" ∨ held = "error" := by
        simp [Python.statuses]
      by_cases listed : Python.statuses.contains held = true
      · simp only [listed, if_true, Except.ok.injEq, Option.some.injEq, Json.str.injEq]
        exact ⟨fun same => ⟨same, same ▸ known.mp listed⟩, fun both => both.1⟩
      · simp only [listed, Option.some.injEq, Json.str.injEq]
        constructor
        · intro raised
          cases raised
        · rintro ⟨rfl, given⟩
          exact absurd (known.mpr given) listed
    | _ => simp

end

def fieldsOf (kind : String) : List String := if kind = "request" then requestFields else resultFields

/-- A message of a kind whose fields are all in order. -/
structure Sound (digest : Json → String) (kind : String) (members : List (String × Json)) : Prop where
  protocol : lookup "protocol" members = some (.str "fala")
  named : lookup "kind" members = some (.str kind)
  known : kind = "request" ∨ kind = "result"
  texts : ∀ key ∈ ["from", "to", "job", "contract_id", "contract_version"],
    ∃ text, text ≠ "" ∧ lookup key members = some (.str text)
  payload : ∃ held, lookup "payload" members = some (.obj held)
  config : kind = "request" → ∃ held, lookup "config" members = some (.obj held)
  ref : kind ≠ "request" → ∃ text, text ≠ "" ∧ lookup "ref" members = some (.str text)
  status : kind ≠ "request" → ∃ text, (text = "ok" ∨ text = "error") ∧ lookup "status" members = some (.str text)
  closed : ∀ m ∈ members, m.1 ∈ fieldsOf kind
  id : lookup "id" members = some (.str (messageId digest (.obj (withoutId members))))

section
variable {digest : Json → String} {members : List (String × Json)} {kind expected : String}

theorem texts_of (sender : ∃ text, text ≠ "" ∧ lookup "from" members = some (.str text))
    (recipient : ∃ text, text ≠ "" ∧ lookup "to" members = some (.str text))
    (job : ∃ text, text ≠ "" ∧ lookup "job" members = some (.str text))
    (id : ∃ text, text ≠ "" ∧ lookup "contract_id" members = some (.str text))
    (version : ∃ text, text ≠ "" ∧ lookup "contract_version" members = some (.str text)) :
    ∀ key ∈ ["from", "to", "job", "contract_id", "contract_version"],
      ∃ text, text ≠ "" ∧ lookup key members = some (.str text) := by
  simp only [List.forall_mem_cons]
  exact ⟨sender, recipient, job, id, version, fun _ member => nomatch member⟩

theorem Sound.each (sound : Sound digest kind members) :
    (∃ text, text ≠ "" ∧ lookup "from" members = some (.str text)) ∧
      (∃ text, text ≠ "" ∧ lookup "to" members = some (.str text)) ∧
      (∃ text, text ≠ "" ∧ lookup "job" members = some (.str text)) ∧
      (∃ text, text ≠ "" ∧ lookup "contract_id" members = some (.str text)) ∧
      ∃ text, text ≠ "" ∧ lookup "contract_version" members = some (.str text) :=
  ⟨sound.texts _ (by simp), sound.texts _ (by simp), sound.texts _ (by simp), sound.texts _ (by simp),
    sound.texts _ (by simp)⟩

theorem object_iff {key : String} : ((Json.obj members).member key).any isObject = true ↔
    ∃ held, lookup key members = some (.obj held) := by
  cases found : lookup key members with
  | none => simp [Json.member, found]
  | some value => cases value <;> simp [Json.member, found, isObject]

theorem messageId_nonempty (body : Json) : messageId digest body ≠ "" := by
  intro nothing
  have length := congrArg String.length nothing
  simp [messageId] at length

theorem validateMessage_ok :
    validateMessage digest (.obj members) expected = .ok () ↔
      ∃ kind, (expected = "" ∨ kind = expected) ∧ Sound digest kind members := by
  simp only [validateMessage, bind_ok, ensure_ok, requiredString_ok, decide_eq_true_eq, object_iff, exists_const]
  constructor
  · rintro ⟨-, _, ⟨-, protocol⟩, rfl, kind, ⟨-, named⟩, known, expects, sender, fromText, recipient, toText, job,
      jobText, payload, rest⟩
    refine ⟨kind, expects, ?_⟩
    by_cases request : kind = "request"
    · rw [if_pos request, if_pos request] at rest
      simp only [bind_ok, ensure_ok, requiredString_ok, decide_eq_true_eq, object_iff, exists_const, closed_ok] at rest
      obtain ⟨config, shut, id, idText, version, versionText, supplied, ⟨-, found⟩, same⟩ := rest
      exact {
        protocol, named, known, payload
        texts := texts_of ⟨sender, fromText⟩ ⟨recipient, toText⟩ ⟨job, jobText⟩ ⟨id, idText⟩ ⟨version, versionText⟩
        config := fun _ => config
        ref := fun other => absurd request other
        status := fun other => absurd request other
        closed := by rwa [fieldsOf, if_pos request]
        id := by rw [found, same]; rfl }
    · rw [if_neg request, if_neg request] at rest
      simp only [bind_ok, ensure_ok, requiredString_ok, decide_eq_true_eq, exists_const, closed_ok] at rest
      obtain ⟨ref, refText, status, ⟨-, statusText⟩, settled, shut, id, idText, version, versionText, supplied,
        ⟨-, found⟩, same⟩ := rest
      exact {
        protocol, named, known, payload
        texts := texts_of ⟨sender, fromText⟩ ⟨recipient, toText⟩ ⟨job, jobText⟩ ⟨id, idText⟩ ⟨version, versionText⟩
        config := fun is => absurd is request
        ref := fun _ => ⟨ref, refText⟩
        status := fun _ => ⟨status, settled, statusText⟩
        closed := by rwa [fieldsOf, if_neg request]
        id := by rw [found, same]; rfl }
  · rintro ⟨kind, expects, sound⟩
    obtain ⟨⟨sender, fromText⟩, ⟨recipient, toText⟩, ⟨job, jobText⟩, ⟨id, idText⟩, version, versionText⟩ := sound.each
    have kindText : kind ≠ "" := by
      rcases sound.known with rfl | rfl <;> decide
    refine ⟨rfl, "fala", ⟨by decide, sound.protocol⟩, rfl, kind, ⟨kindText, sound.named⟩, sound.known, expects, sender,
      fromText, recipient, toText, job, jobText, sound.payload, ?_⟩
    have shut := sound.closed
    by_cases request : kind = "request"
    · rw [if_pos request, if_pos request]
      rw [fieldsOf, if_pos request] at shut
      simp only [bind_ok, ensure_ok, requiredString_ok, decide_eq_true_eq, object_iff, exists_const, closed_ok]
      exact ⟨sound.config request, shut, id, idText, version, versionText, _, ⟨messageId_nonempty _, sound.id⟩, rfl⟩
    · rw [if_neg request, if_neg request]
      rw [fieldsOf, if_neg request] at shut
      obtain ⟨ref, refText⟩ := sound.ref request
      obtain ⟨status, settled, statusText⟩ := sound.status request
      simp only [bind_ok, ensure_ok, requiredString_ok, decide_eq_true_eq, exists_const, closed_ok]
      refine ⟨ref, refText, status, ⟨?_, statusText⟩, settled, shut, id, idText, version, versionText, _,
        ⟨messageId_nonempty _, sound.id⟩, rfl⟩
      rcases settled with rfl | rfl <;> decide

theorem messageId_perm {others : List (String × Json)} (same : members.Perm others)
    (distinct : (members.map Prod.fst).Nodup) :
    messageId digest (.obj members) = messageId digest (.obj others) := by
  rw [messageId, messageId, canonical_perm same distinct]

theorem withoutId_distinct (distinct : (members.map Prod.fst).Nodup) : ((withoutId members).map Prod.fst).Nodup :=
  distinct.sublist (List.filter_sublist.map Prod.fst)

theorem Sound.absent (sound : Sound digest kind members) {key : String} (other : key ∉ fieldsOf kind) :
    lookup key members = none := by
  rw [lookup_none_iff]
  intro member
  obtain ⟨m, listed, rfl⟩ := List.mem_map.mp member
  exact other (sound.closed m listed)

theorem Sound.body (sound : Sound digest kind members) (distinct : (members.map Prod.fst).Nodup)
    {body : List (String × Json)} (apart : (body.map Prod.fst).Nodup)
    (within : ∀ key ∈ body.map Prod.fst, key ∈ fieldsOf kind)
    (same : ∀ key ∈ fieldsOf kind, lookup key body = if key = "id" then none else lookup key members) :
    (withoutId members).Perm body := by
  refine perm_of_lookup (withoutId_distinct distinct) apart fun key => ?_
  rw [withoutId, lookup_filter_ne]
  by_cases field : key ∈ fieldsOf kind
  · exact (same key field).symm
  · have missing : lookup key body = none := lookup_none_iff.mpr fun member => field (within key member)
    rw [sound.absent field, ite_self, missing]

theorem Sound.request_body (sound : Sound digest "request" members) (distinct : (members.map Prod.fst).Nodup)
    {sender recipient job id version : String} {payload config : List (String × Json)}
    (fromText : lookup "from" members = some (.str sender)) (toText : lookup "to" members = some (.str recipient))
    (jobText : lookup "job" members = some (.str job)) (payloads : lookup "payload" members = some (.obj payload))
    (configs : lookup "config" members = some (.obj config))
    (idText : lookup "contract_id" members = some (.str id))
    (versionText : lookup "contract_version" members = some (.str version)) :
    (withoutId members).Perm (Python.requestBody sender recipient job payload config
      [("contract_id", .str id), ("contract_version", .str version)]) := by
  refine sound.body distinct (by simp [Python.requestBody]) ?_ ?_
  · simp [Python.requestBody, fieldsOf, requestFields]
  · simp [Python.requestBody, fieldsOf, requestFields, lookup, sound.protocol, sound.named, fromText, toText, jobText,
      payloads, configs, idText, versionText]

theorem Sound.result_body (sound : Sound digest "result" members) (distinct : (members.map Prod.fst).Nodup)
    {sender recipient job ref status id version : String} {payload : List (String × Json)}
    (fromText : lookup "from" members = some (.str sender)) (toText : lookup "to" members = some (.str recipient))
    (jobText : lookup "job" members = some (.str job)) (refText : lookup "ref" members = some (.str ref))
    (statusText : lookup "status" members = some (.str status)) (payloads : lookup "payload" members = some (.obj payload))
    (idText : lookup "contract_id" members = some (.str id))
    (versionText : lookup "contract_version" members = some (.str version)) :
    (withoutId members).Perm (Python.resultBody sender recipient job ref status payload
      [("contract_id", .str id), ("contract_version", .str version)]) := by
  refine sound.body distinct (by simp [Python.resultBody]) ?_ ?_
  · simp [Python.resultBody, fieldsOf, resultFields]
  · simp [Python.resultBody, fieldsOf, resultFields, lookup, sound.protocol, sound.named, fromText, toText, jobText,
      refText, statusText, payloads, idText, versionText]

theorem contractBody_ok {id version : String} {contract : List (String × Json)} :
    Python.contractBody id version = .ok contract ↔
      id ≠ "" ∧ version ≠ "" ∧ [("contract_id", .str id), ("contract_version", .str version)] = contract := by
  simp only [Python.contractBody, bind_ok, ensure_ok, decide_eq_true_eq, exists_const, pure, Except.pure,
    Except.ok.injEq]

theorem makeRequest_ok {sender recipient job id version : String} {payload config : List (String × Json)}
    {request : Python.Request} :
    Python.makeRequest digest sender recipient job payload config id version = .ok request ↔
      (sender ≠ "" ∧ recipient ≠ "" ∧ job ≠ "") ∧ (id ≠ "" ∧ version ≠ "") ∧
        request = ⟨sender, recipient, job, payload, config, id, version, messageId digest
          (.obj (Python.requestBody sender recipient job payload config
            [("contract_id", .str id), ("contract_version", .str version)]))⟩ := by
  simp only [Python.makeRequest, bind_ok, ensure_ok, decide_eq_true_eq, exists_const, contractBody_ok, pure,
    Except.pure, Except.ok.injEq]
  constructor
  · rintro ⟨given, _, ⟨named, versioned, rfl⟩, rfl⟩
    exact ⟨given, ⟨named, versioned⟩, rfl⟩
  · rintro ⟨given, ⟨named, versioned⟩, rfl⟩
    exact ⟨given, _, ⟨named, versioned, rfl⟩, rfl⟩

theorem makeResult_ok {sender recipient job ref status id version : String} {payload : List (String × Json)}
    {result : Python.Result} :
    Python.makeResult digest sender recipient job ref status payload id version = .ok result ↔
      (sender ≠ "" ∧ recipient ≠ "" ∧ job ≠ "" ∧ ref ≠ "") ∧ (status = "ok" ∨ status = "error") ∧
        (id ≠ "" ∧ version ≠ "") ∧
        result = ⟨sender, recipient, job, ref, status, payload, id, version, messageId digest
          (.obj (Python.resultBody sender recipient job ref status payload
            [("contract_id", .str id), ("contract_version", .str version)]))⟩ := by
  have known : Python.statuses.contains status = true ↔ status = "ok" ∨ status = "error" := by
    simp [Python.statuses]
  simp only [Python.makeResult, bind_ok, ensure_ok, decide_eq_true_eq, exists_const, contractBody_ok, known, pure,
    Except.pure, Except.ok.injEq]
  constructor
  · rintro ⟨given, settled, _, ⟨named, versioned, rfl⟩, rfl⟩
    exact ⟨given, settled, ⟨named, versioned⟩, rfl⟩
  · rintro ⟨given, settled, ⟨named, versioned⟩, rfl⟩
    exact ⟨given, settled, _, ⟨named, versioned, rfl⟩, rfl⟩

theorem validatedWire_ok (distinct : (members.map Prod.fst).Nodup) :
    (∃ message, Python.validatedWire digest (.obj members) expected = .ok message) ↔
      ∃ kind, (expected = "" ∨ kind = expected) ∧ Sound digest kind members := by
  simp only [Python.validatedWire, bind_ok, ensure_ok, requireText_ok, requireObject_ok, messageKind_ok,
    decide_eq_true_eq, exists_const, checkFields_ok]
  constructor
  · rintro ⟨message, protocol, kind, ⟨named, known⟩, expects, shut, sender, fromText, recipient, toText, job, jobText,
      payload, payloads, id, idText, version, versionText, supplied, ⟨-, found⟩, rest⟩
    refine ⟨kind, expects, ?_⟩
    by_cases request : kind = "request"
    · rw [if_pos request] at rest shut
      simp only [bind_ok, ensure_ok, requireObject_ok, decide_eq_true_eq, exists_const] at rest
      obtain ⟨config, configs, same, -⟩ := rest
      exact {
        protocol, named, known
        texts := texts_of ⟨sender, fromText⟩ ⟨recipient, toText⟩ ⟨job, jobText⟩ ⟨id, idText⟩ ⟨version, versionText⟩
        payload := ⟨payload, payloads⟩
        config := fun _ => ⟨config, configs⟩
        ref := fun other => absurd request other
        status := fun other => absurd request other
        closed := by rwa [fieldsOf, if_pos request]
        id := by rw [found, same] }
    · rw [if_neg request] at rest shut
      simp only [bind_ok, ensure_ok, requireText_ok, requireStatus_ok, decide_eq_true_eq, exists_const] at rest
      obtain ⟨ref, refText, status, ⟨statusText, settled⟩, same, -⟩ := rest
      exact {
        protocol, named, known
        texts := texts_of ⟨sender, fromText⟩ ⟨recipient, toText⟩ ⟨job, jobText⟩ ⟨id, idText⟩ ⟨version, versionText⟩
        payload := ⟨payload, payloads⟩
        config := fun is => absurd is request
        ref := fun _ => ⟨ref, refText⟩
        status := fun _ => ⟨status, settled, statusText⟩
        closed := by rwa [fieldsOf, if_neg request]
        id := by rw [found, same] }
  · rintro ⟨kind, expects, sound⟩
    obtain ⟨⟨sender, fromText⟩, ⟨recipient, toText⟩, ⟨job, jobText⟩, ⟨id, idText⟩, version, versionText⟩ := sound.each
    obtain ⟨payload, payloads⟩ := sound.payload
    have shut := sound.closed
    by_cases request : kind = "request"
    · subst request
      obtain ⟨config, configs⟩ := sound.config rfl
      have body := sound.request_body distinct fromText.2 toText.2 jobText.2 payloads configs idText.2 versionText.2
      have same : messageId digest (.obj (withoutId members)) = _ := messageId_perm body (withoutId_distinct distinct)
      refine ⟨.request ⟨sender, recipient, job, payload, config, id, version, messageId digest
        (.obj (Python.requestBody sender recipient job payload config
          [("contract_id", .str id), ("contract_version", .str version)]))⟩, sound.protocol, "request", ⟨sound.named, .inl rfl⟩, expects, shut, sender, fromText, recipient, toText,
        job, jobText, payload, payloads, id, idText, version, versionText, _, ⟨messageId_nonempty _, sound.id⟩, ?_⟩
      rw [if_pos rfl]
      simp only [bind_ok, ensure_ok, requireObject_ok, decide_eq_true_eq, exists_const]
      exact ⟨config, configs, trivial, _,
        makeRequest_ok.mpr ⟨⟨fromText.1, toText.1, jobText.1⟩, ⟨idText.1, versionText.1⟩, rfl⟩, same.symm, rfl⟩
    · have is := sound.known.resolve_left request
      subst is
      obtain ⟨ref, refText⟩ := sound.ref (by decide)
      obtain ⟨status, settled, statusText⟩ := sound.status (by decide)
      have body := sound.result_body distinct fromText.2 toText.2 jobText.2 refText.2 statusText payloads idText.2
        versionText.2
      have same : messageId digest (.obj (withoutId members)) = _ := messageId_perm body (withoutId_distinct distinct)
      refine ⟨.result ⟨sender, recipient, job, ref, status, payload, id, version, messageId digest
        (.obj (Python.resultBody sender recipient job ref status payload
          [("contract_id", .str id), ("contract_version", .str version)]))⟩, sound.protocol, "result", ⟨sound.named, .inr rfl⟩, expects, shut, sender, fromText, recipient, toText,
        job, jobText, payload, payloads, id, idText, version, versionText, _, ⟨messageId_nonempty _, sound.id⟩, ?_⟩
      rw [if_neg request]
      simp only [bind_ok, ensure_ok, requireText_ok, requireStatus_ok, decide_eq_true_eq, exists_const]
      exact ⟨ref, refText, status, ⟨statusText, settled⟩, trivial, _, makeResult_ok.mpr
        ⟨⟨fromText.1, toText.1, jobText.1, refText.1⟩, settled, ⟨idText.1, versionText.1⟩, rfl⟩, same.symm, rfl⟩

end

end Fala.Protocol
