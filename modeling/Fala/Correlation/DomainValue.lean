import Fala.Correlation.Projection
import Fala.Journal.Complete
import Fala.Journal.Pairs
import Fala.Engine.Actions

namespace Fala.Correlation
open Json Schema Durable Journal

theorem canonical_eq_str {value : Json} {text : String} : value.canonical = .str text ↔ value = .str text := by
  cases value <;> simp [canonical]

theorem messagePayload_eq_some {value : Json} {payload : List (String × Json)} :
    messagePayload value = some payload ↔
      (value.member "protocol").isSome = true ∧ value.member "kind" = some (.str "result") ∧
        value.member "payload" = some (.obj payload) := by
  unfold messagePayload
  split
  · simp_all
  · rename_i other
    constructor
    · intro none
      cases none
    · rintro ⟨protocol, kind, held⟩
      obtain ⟨name, found⟩ := Option.isSome_iff_exists.mp protocol
      exact absurd held (other name payload found kind)

theorem messagePayload_canonical (value : Json) :
    messagePayload value.canonical = (messagePayload value).map fun p => sortMembers (canonicalMembers p) := by
  cases found : messagePayload value with
  | some payload =>
    obtain ⟨protocol, kind, held⟩ := messagePayload_eq_some.mp found
    apply messagePayload_eq_some.mpr
    simp only [member_canonical, kind, held, Option.isSome_map, Option.map_some, canonical]
    exact ⟨protocol, trivial, trivial⟩
  | none =>
    cases found' : messagePayload value.canonical with
    | none => rfl
    | some payload =>
      obtain ⟨protocol, kind, held⟩ := messagePayload_eq_some.mp found'
      simp only [member_canonical, Option.isSome_map, Option.map_eq_some_iff] at protocol kind held
      obtain ⟨kind', kindFound, isResult⟩ := kind
      obtain ⟨payload', payloadFound, isObject⟩ := held
      cases payload' with
      | obj members =>
        have message : messagePayload value = some members :=
          messagePayload_eq_some.mpr ⟨protocol, canonical_eq_str.mp isResult ▸ kindFound, payloadFound⟩
        rw [message] at found
        cases found
      | null | bool _ | int _ | uint _ | float _ | str _ | arr _ => simp [canonical] at isObject

theorem messagePayload_filter (members : List (String × Json)) :
    messagePayload (.obj (members.filter fun m => m.1 ≠ "adapter")) = messagePayload (.obj members) := by
  have kept : ∀ key, key ≠ "adapter" →
      (Json.obj (members.filter fun m => m.1 ≠ "adapter")).member key = (Json.obj members).member key := by
    intro key other
    rw [member, member, lookup_filter_ne, if_neg other]
  rw [messagePayload, messagePayload, kept _ (by decide), kept _ (by decide), kept _ (by decide)]

theorem domainSource_obj (members : List (String × Json)) :
    domainSource (.obj members) =
      .ok ((messagePayload (.obj members)).getD (members.filter fun m => m.1 ≠ "adapter")) := by
  rw [domainSource, messagePayload_filter]

theorem filter_adapter_eq {members : List (String × Json)} :
    members.filter (fun m => m.1 ≠ "adapter") = members ↔ lookup "adapter" members = none := by
  rw [List.filter_eq_self, lookup_none_iff]
  simp only [List.mem_map, not_exists, not_and, decide_eq_true_eq]

theorem domainPayload_message (digest : Json → String) {text : Text} {value : Json} (read : text.parse = some value)
    {payload : List (String × Json)} (message : messagePayload value = some payload) :
    ∃ members, value = .obj members ∧
      Protocol.domainPayload digest text =
        (Protocol.validateMessage digest (.obj (members.filter fun m => m.1 ≠ "adapter")) "result").map
          fun _ => (Json.obj payload).canonical := by
  obtain ⟨protocol, kind, held⟩ := messagePayload_eq_some.mp message
  cases value with
  | obj members =>
    refine ⟨members, rfl, ?_⟩
    obtain ⟨name, found⟩ := Option.isSome_iff_exists.mp protocol
    simp only [member] at found kind held
    simp only [Protocol.domainPayload, read, found, kind, held]
    cases Protocol.validateMessage digest (.obj (members.filter fun m => m.1 ≠ "adapter")) "result" <;> rfl
  | null | bool _ | int _ | uint _ | float _ | str _ | arr _ => cases kind

theorem domainPayload_plain (digest : Json → String) {text : Text} {value : Json} (read : text.parse = some value)
    (plain : messagePayload value = none) : Protocol.domainPayload digest text = .ok value.canonical := by
  cases value with
  | obj members =>
    simp only [messagePayload, member] at plain
    simp only [Protocol.domainPayload, read]
    split
    · rename_i protocol kind payload
      simp [protocol, kind, payload] at plain
    · rfl
  | null | bool _ | int _ | uint _ | float _ | str _ | arr _ => simp only [Protocol.domainPayload, read]; rfl

theorem fixturePayload_output (kind output : Json) :
    fixturePayload (.obj [("kind", kind), ("output", output)]) =
      match messagePayload output with
      | some payload => .obj payload
      | none => output := rfl

theorem terminalValues_message {value : Json} {payload : List (String × Json)}
    (message : messagePayload value = some payload) : terminalValues value = .obj payload := by
  obtain ⟨-, kind, held⟩ := messagePayload_eq_some.mp message
  simp only [terminalValues, kind, held]

/-- It is opened as an envelope by its kind and payload alone. -/
def Opened (value : Json) : Prop :=
  value.member "kind" = some (.str "result") ∧ (value.member "payload").isSome = true

instance (value : Json) : Decidable (Opened value) := by unfold Opened; infer_instance

theorem opened_canonical (value : Json) : Opened value.canonical ↔ Opened value := by
  simp only [Opened, member_canonical, Option.isSome_map, Option.map_eq_some_iff, canonical_eq_str]
  constructor
  · rintro ⟨⟨kind, found, rfl⟩, held⟩
    exact ⟨found, held⟩
  · rintro ⟨found, held⟩
    exact ⟨⟨_, found, rfl⟩, held⟩

theorem terminalValues_closed {value : Json} (closed : ¬ Opened value) : terminalValues value = value := by
  unfold terminalValues
  split
  · rename_i payload kind held
    exact absurd ⟨kind, by simp [held]⟩ closed
  · rfl

theorem terminalValues_ne {value : Json} (opened : Opened value) : terminalValues value ≠ value := by
  obtain ⟨kind, held⟩ := opened
  obtain ⟨payload, found⟩ := Option.isSome_iff_exists.mp held
  have inner : terminalValues value = payload := by simp only [terminalValues, kind, found]
  rw [inner]
  intro same
  cases value with
  | obj members =>
    have inside : ("payload", payload) ∈ members := lookup_mem found
    have smaller := List.sizeOf_lt_of_mem inside
    rw [same] at smaller
    simp only [Prod.mk.sizeOf_spec, obj.sizeOf_spec] at smaller
    omega
  | null | bool _ | int _ | uint _ | float _ | str _ | arr _ => cases kind

/-- The four readings of an output that is completed as a text and stored as a value: what completion validates,
    what is conducted downstream, what a path terminal selects and what a fixture with that output stands for. -/
def OneDomainValue (digest : Json → String) (outputJson : Text) (stored : Json) : Prop :=
  ∃ domain, Protocol.domainPayload digest outputJson = .ok domain ∧
    (domainSource stored).map Json.obj = .ok domain ∧ terminalValues stored = domain ∧
      fixturePayload (.obj [("kind", .str "result"), ("output", stored)]) = domain

/-- A result message that is valid without its telemetry, or an object that carries no telemetry and is not opened
    as an envelope. -/
def Conforming (digest : Json → String) : Json → Prop
  | .obj members =>
    if (messagePayload (.obj members)).isSome then
      Protocol.validateMessage digest (.obj (members.filter fun m => m.1 ≠ "adapter")) "result" = .ok ()
    else lookup "adapter" members = none ∧ ¬ Opened (.obj members)
  | _ => False

theorem one_domain_value_message {digest : Json → String} {outputJson : Text} {value : Json}
    (read : outputJson.parse = some value) {payload : List (String × Json)}
    (message : messagePayload value = some payload) :
    OneDomainValue digest outputJson value.canonical ↔ Conforming digest value := by
  obtain ⟨members, rfl, validated⟩ := domainPayload_message digest read message
  have inner := messagePayload_canonical (.obj members)
  rw [message, Option.map_some] at inner
  have conducted : domainSource (Json.obj members).canonical = .ok (sortMembers (canonicalMembers payload)) := by
    rw [canonical] at inner ⊢
    rw [domainSource_obj, inner, Option.getD_some]
  simp only [OneDomainValue, validated, conducted, terminalValues_message inner, fixturePayload_output, inner,
    Conforming, message, Option.isSome_some, if_true]
  cases Protocol.validateMessage digest (.obj (members.filter fun m => m.1 ≠ "adapter")) "result" with
  | error message => simp [Except.map]
  | ok checked => simp [Except.map, canonical]

theorem one_domain_value_plain {digest : Json → String} {outputJson : Text} {value : Json}
    (read : outputJson.parse = some value) (plain : messagePayload value = none) :
    OneDomainValue digest outputJson value.canonical ↔ Conforming digest value := by
  have inner := messagePayload_canonical value
  rw [plain, Option.map_none] at inner
  have validated := domainPayload_plain digest read plain
  cases value with
  | obj members =>
    have source : (domainSource (Json.obj members).canonical).map Json.obj = .ok (Json.obj members).canonical ↔
        lookup "adapter" members = none := by
      rw [canonical] at inner ⊢
      rw [domainSource_obj, inner, Option.getD_none]
      simp only [Except.map, Except.ok.injEq, obj.injEq]
      rw [filter_adapter_eq, lookup_sortMembers, lookup_canonicalMembers, Option.map_eq_none_iff]
    have selected : terminalValues (Json.obj members).canonical = (Json.obj members).canonical ↔
        ¬ Opened (.obj members) := by
      rw [← opened_canonical]
      exact ⟨fun same opened => terminalValues_ne opened same, terminalValues_closed⟩
    simp only [Conforming, plain, Option.isSome_none, Bool.false_eq_true, if_false, ← source, ← selected]
    constructor
    · rintro ⟨domain, checked, conducted, chosen, -⟩
      rw [validated] at checked
      cases checked
      exact ⟨conducted, chosen⟩
    · rintro ⟨conducted, chosen⟩
      refine ⟨_, validated, conducted, chosen, ?_⟩
      rw [fixturePayload_output, inner]
  | null | bool _ | int _ | uint _ | float _ | str _ | arr _ =>
    simp [OneDomainValue, Conforming, canonical, domainSource, Except.map]

theorem completeProcess_accepts {digest : Json → String} {runId processId workerId completedAt : String}
    {outputJson errorJson : Text} {db db' : Database} {row : ProcessRow}
    (accepted : (completeProcess digest runId processId workerId completedAt outputJson errorJson).eval db =
      (.ok row, db')) :
    ∃ current value, db.processes.find? (runId, processId) = some current ∧
      checkOutput digest current.outputSchemaJson outputJson = .ok () ∧ outputJson.parse = some value := by
  simp only [completeProcess, Program.bind_ok, requireRun_ok, getProcess_ok, Program.ofExcept_ok] at accepted
  obtain ⟨_, _, ⟨-, rfl⟩, current, _, ⟨-, held, rfl⟩, _, _, ⟨checked, rfl⟩, moved⟩ := accepted
  simp only [transitionProcess, Program.bind_ok, Program.require_ok, requireRun_ok, getProcess_ok,
    Program.ofExcept_ok, canonicalJsonField_ok] at moved
  obtain ⟨_, _, ⟨-, rfl⟩, _, _, ⟨-, rfl⟩, _, _, ⟨-, rfl⟩, _, _, ⟨-, -, rfl⟩, _, _, ⟨-, rfl⟩, _, _, ⟨printed, rfl⟩,
    -⟩ := moved
  obtain ⟨value, read, -⟩ := Text.canonical_some printed
  exact ⟨current, value, held, checked, read⟩

/-- An accepted output is one domain value everywhere exactly when it is conforming. -/
theorem one_domain_value (digest : Json → String) (runId processId workerId completedAt : String)
    (outputJson errorJson : Text) {db db' : Database} {row : ProcessRow}
    (accepted : (completeProcess digest runId processId workerId completedAt outputJson errorJson).eval db =
      (.ok row, db')) :
    ∃ value, outputJson.parse = some value ∧
      (OneDomainValue digest outputJson value.canonical ↔ Conforming digest value) := by
  obtain ⟨-, value, -, -, read⟩ := completeProcess_accepts accepted
  refine ⟨value, read, ?_⟩
  cases found : messagePayload value with
  | some payload => exact one_domain_value_message read found
  | none => exact one_domain_value_plain read found

/-- A claimed process, with the schema that its output has to meet. -/
def claimedRow (outputSchemaJson : Text) : Database :=
  afterProcesses (fun _ => "")
    [(.createRun { runId := "run", status := "active", metadata := "\x7b\x7d", createdAt := "t0" }, none),
      (.scheduleProcess
        { runId := "run", processId := "work", processType := "native", createdAt := "t0", outputSchemaJson }, none),
      (.claimProcess "run" "work" ⟨"worker", "t1", "t9", ""⟩, none)]

def completed (outputSchemaJson outputJson : Text) : Except String ProcessRow × Database :=
  (completeProcess (fun _ => "") "run" "work" "worker" "t2" outputJson .braces).eval (claimedRow outputSchemaJson)

theorem completed_ok (outputSchemaJson outputJson : Text)
    (succeeds : Schema.succeeds (completed outputSchemaJson outputJson).1 = true) :
    ∃ row, completed outputSchemaJson outputJson = (.ok row, (completed outputSchemaJson outputJson).2) := by
  cases found : completed outputSchemaJson outputJson with
  | mk result db' =>
    cases result with
    | ok row => exact ⟨row, rfl⟩
    | error message =>
      rw [found] at succeeds
      cases succeeds

/-- An object with one field, under a schema that declares it. -/
theorem one_domain_value_route :
    OneDomainValue (fun _ => "") (.printed (.obj [("route", .str "ready")])) (.obj [("route", .str "ready")]) := by
  obtain ⟨row, accepted⟩ := completed_ok (.printed (.obj [("type", .str "object")]))
    (.printed (.obj [("route", .str "ready")])) (by decide +kernel)
  obtain ⟨value, read, same⟩ := one_domain_value (fun _ => "") "run" "work" "worker" "t2" _ .braces accepted
  cases read
  exact same.mpr (by simp [Conforming, messagePayload, Opened, member, lookup])

/-- The telemetry of a plain object is validated and selected, and not conducted. -/
theorem domain_values_differ :
    ¬ ∀ (digest : Json → String) (runId processId workerId completedAt : String) (outputJson errorJson : Text)
      (db db' : Database) (row : ProcessRow),
      (completeProcess digest runId processId workerId completedAt outputJson errorJson).eval db = (.ok row, db') →
        ∃ value, outputJson.parse = some value ∧ OneDomainValue digest outputJson value.canonical := by
  intro one
  obtain ⟨row, accepted⟩ := completed_ok (.printed (.obj [("type", .str "object")]))
    (.printed (.obj [("adapter", .obj [("returncode", .int 0)]), ("route", .str "ready")])) (by decide +kernel)
  obtain ⟨value, read, same⟩ := one _ _ _ _ _ _ _ _ _ _ accepted
  cases read
  obtain ⟨domain, -, conducted, selected, -⟩ := same
  rw [← selected] at conducted
  revert conducted
  decide +kernel

end Fala.Correlation
