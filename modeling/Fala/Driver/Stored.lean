import Fala.Driver.Bindings
import Fala.Driver.Environment

/-! What the printed form of an adapter keeps of it. -/

namespace Fala.Driver
open Durable

namespace AdapterSpec

/-- Equal up to the order of the environment. -/
structure Same (left right : AdapterSpec) : Prop where
  kind : left.kind = right.kind
  ref : left.ref = right.ref
  command : left.command = right.command
  cwd : left.cwd = right.cwd
  env : ∀ key, left.env.get key = right.env.get key
  inheritEnv : left.inheritEnv = right.inheritEnv
  timeoutSeconds : left.timeoutSeconds = right.timeoutSeconds

namespace Same

variable {a b c : AdapterSpec}

theorem symm (same : a.Same b) : b.Same a :=
  ⟨same.kind.symm, same.ref.symm, same.command.symm, same.cwd.symm, fun key => (same.env key).symm,
    same.inheritEnv.symm, same.timeoutSeconds.symm⟩

theorem trans (left : a.Same b) (right : b.Same c) : a.Same c :=
  ⟨left.kind.trans right.kind, left.ref.trans right.ref, left.command.trans right.command,
    left.cwd.trans right.cwd, fun key => (left.env key).trans (right.env key),
    left.inheritEnv.trans right.inheritEnv, left.timeoutSeconds.trans right.timeoutSeconds⟩

end Same

/-- The adapter with its literal environment values blotted out. -/
def redacted (a : AdapterSpec) : AdapterSpec :=
  { a with env := a.env.mapRows (fun entry => (entry.1, redactedEnvValue entry.2)) fun _ => rfl }

end AdapterSpec

theorem redactedEnvValue_eq (value : String) :
    redactedEnvValue value = if isReference value = true then value else "<redacted>" := by
  unfold redactedEnvValue isReference
  simp

theorem redacted_literal : isReference "<redacted>" = false := by decide +kernel

theorem redactedEnvValue_twice (value : String) : redactedEnvValue (redactedEnvValue value) = redactedEnvValue value := by
  rw [redactedEnvValue_eq value]
  by_cases reference : isReference value = true
  · rw [if_pos reference, redactedEnvValue_eq, if_pos reference]
  · rw [if_neg reference, redactedEnvValue_eq, redacted_literal]
    rfl

namespace AdapterSpec

variable {a b : AdapterSpec}

theorem get_redacted (key : String) : a.redacted.env.get key = (a.env.get key).map redactedEnvValue := by
  unfold redacted Dict.get
  rw [Table.find?_mapRows, Option.map_map, Option.map_map]
  rfl

theorem Same.redacted (same : a.Same b) : a.redacted.Same b.redacted where
  kind := same.kind
  ref := same.ref
  command := same.command
  cwd := same.cwd
  env key := by rw [get_redacted, get_redacted, same.env]
  inheritEnv := same.inheritEnv
  timeoutSeconds := same.timeoutSeconds

theorem redacted_redacted : a.redacted.redacted.Same a.redacted where
  kind := rfl
  ref := rfl
  command := rfl
  cwd := rfl
  env key := by
    rw [get_redacted, get_redacted, Option.map_map]
    exact congrArg (fun f => (a.env.get key).map f) (funext redactedEnvValue_twice)
  inheritEnv := rfl
  timeoutSeconds := rfl

theorem environmentError_none {entries : List (String × String)} :
    environmentError entries = none ↔
      ∀ entry ∈ entries, isEnvironmentName entry.1 = true ∧ hasProcessBoundaryControls entry.2 = false := by
  induction entries with
  | nil => simp [environmentError]
  | cons head rest ih =>
    obtain ⟨name, value⟩ := head
    unfold environmentError
    by_cases named : isEnvironmentName name = true
    · by_cases controlled : hasProcessBoundaryControls value = true
      · simp [named, controlled]
      · simp [named, controlled, ih]
    · simp [named]

theorem redactedEnvValue_controls {value : String} (clean : hasProcessBoundaryControls value = false) :
    hasProcessBoundaryControls (redactedEnvValue value) = false := by
  rw [redactedEnvValue_eq]
  by_cases reference : isReference value = true
  · rw [if_pos reference]
    exact clean
  · rw [if_neg reference]
    decide +kernel

theorem env_rows_nil (same : ∀ key, a.env.get key = (b.env.get key).map redactedEnvValue) :
    a.env.rows = [] ↔ b.env.rows = [] := by
  have nothing (d : Environment) : d.rows = [] ↔ ∀ key, d.get key = none := by
    constructor
    · intro empty key
      rw [Option.eq_none_iff_forall_ne_some]
      intro value held
      have member := Dict.get_some.mp held
      rw [empty] at member
      cases member
    · intro unset
      rw [List.eq_nil_iff_forall_not_mem]
      intro entry member
      have held := Dict.get_some.mpr (show (entry.1, entry.2) ∈ d.rows from member)
      rw [unset] at held
      cases held
  rw [nothing, nothing]
  refine forall_congr' fun key => ?_
  rw [same, Option.map_eq_none_iff]

theorem environmentError_redacted (same : ∀ key, a.env.get key = (b.env.get key).map redactedEnvValue)
    (clean : environmentError b.env.rows = none) : environmentError a.env.rows = none := by
  rw [environmentError_none] at clean ⊢
  intro entry member
  have held : a.env.get entry.1 = some entry.2 := Dict.get_some.mpr member
  rw [same, Option.map_eq_some_iff] at held
  obtain ⟨value, own, shown⟩ := held
  have ⟨named, free⟩ := clean (entry.1, value) (Dict.get_some.mp own)
  rw [← shown]
  exact ⟨named, redactedEnvValue_controls free⟩

theorem invalid_refused (message : String) : (AdapterError.invalid message).isOk = false := by
  simp [AdapterError.invalid, AdapterError.isOk]

theorem environmentError_refused {entries : List (String × String)} {error : AdapterError}
    (found : environmentError entries = some error) : error.isOk = false := by
  induction entries with
  | nil => cases found
  | cons head rest ih =>
    unfold environmentError at found
    split at found
    · cases found
      exact invalid_refused _
    · split at found
      · cases found
        exact invalid_refused _
      · exact ih found

theorem validateSubprocess_ok :
    a.validateSubprocess.isOk = true ↔
      (a.command ≠ [] ∧ a.ref = "" ∧ a.command.head? ≠ some "" ∧ a.command.any hasProcessBoundaryControls = false ∧
        hasProcessBoundaryControls a.cwd = false) ∧ environmentError a.env.rows = none ∧
        (a.inheritEnv.find? fun name => ¬ isEnvironmentName name) = none := by
  unfold validateSubprocess
  by_cases command : a.command = []
  · simp [command, invalid_refused]
  rw [if_neg command]
  by_cases ref : a.ref = ""
  swap
  · simp [ref, invalid_refused]
  rw [if_neg (not_not_intro ref)]
  by_cases first : a.command.head? = some ""
  · simp [first, invalid_refused]
  rw [if_neg first]
  by_cases argument : a.command.any hasProcessBoundaryControls = true
  · simp [argument, invalid_refused]
  rw [if_neg argument]
  by_cases cwd : hasProcessBoundaryControls a.cwd = true
  · simp [cwd, invalid_refused]
  rw [if_neg cwd]
  cases env : environmentError a.env.rows with
  | some error => simp [environmentError_refused env]
  | none =>
    cases inherit : a.inheritEnv.find? fun name => ¬ isEnvironmentName name with
    | some name => simp [invalid_refused]
    | none => simp [AdapterError.isOk, command, ref, first, argument, cwd]

theorem validateTimeout_ok {next : AdapterError} :
    (a.validateTimeout next).isOk = true ↔
      a.timeoutSeconds.isNegative = false ∧ a.timeoutSeconds.isFinite = true ∧ next.isOk = true := by
  unfold validateTimeout
  by_cases negative : a.timeoutSeconds.isNegative = true
  · simp [negative, invalid_refused]
  by_cases finite : a.timeoutSeconds.isFinite = true
  · simp [negative, finite]
  · simp [negative, finite, invalid_refused]

theorem validate_redacted (same : a.Same b.redacted) (valid : b.validate.isOk = true) : a.validate.isOk = true := by
  have envs : ∀ key, a.env.get key = (b.env.get key).map redactedEnvValue := fun key =>
    (same.env key).trans (get_redacted key)
  have nothing := env_rows_nil envs
  have kind : a.kind = b.kind := same.kind
  have ref : a.ref = b.ref := same.ref
  have command : a.command = b.command := same.command
  have cwd : a.cwd = b.cwd := same.cwd
  have inheritEnv : a.inheritEnv = b.inheritEnv := same.inheritEnv
  have timeout : a.timeoutSeconds = b.timeoutSeconds := same.timeoutSeconds
  unfold validate at valid ⊢
  rw [kind]
  cases which : b.kind with
  | subprocess =>
    simp only [which, validateTimeout_ok, validateSubprocess_ok] at valid ⊢
    obtain ⟨early, finite, arguments, clean, allowed⟩ := valid
    rw [timeout, command, ref, cwd, inheritEnv]
    exact ⟨early, finite, arguments, environmentError_redacted envs clean, allowed⟩
  | manualHomeostat =>
    simpa only [which, validateTimeout, validateManualHomeostat, command, ref, cwd, inheritEnv, timeout, nothing,
      ne_eq] using valid
  | nativeFunction =>
    simpa only [which, validateTimeout, validateNativeFunction, command, ref, cwd, inheritEnv, timeout, nothing,
      ne_eq] using valid
  | falaRuntime => simp [which] at valid; exact valid
  | other value => simp [which] at valid; exact valid

theorem members_fields {seconds : Rat} (finite : a.timeoutSeconds = .finite seconds) :
    ∃ members, a.members = some members ∧ (∀ m ∈ members, m.1 ∈ bindingFields) ∧
      Json.lookup "kind" members = some (.str a.kind.value) ∧
      Json.lookup "ref" members = (if a.ref ≠ "" then some (.str a.ref) else none) ∧
      Json.lookup "cwd" members = (if a.cwd ≠ "" then some (.str a.cwd) else none) ∧
      Json.lookup "timeout_seconds" members = (if 0 < seconds then some (.float seconds) else none) ∧
      Json.lookup "command" members = (if a.command ≠ [] then some (strings a.command) else none) ∧
      Json.lookup "inherit_env" members = (if a.inheritEnv ≠ [] then some (strings a.inheritEnv) else none) ∧
      Json.lookup "env" members =
        (if a.env.rows ≠ [] then
          some (.obj (a.env.rows.map fun entry => (entry.1, .str (redactedEnvValue entry.2))))
        else none) := by
  unfold members
  rw [finite]
  refine ⟨_, rfl, ?_, ?_⟩
  · intro m member
    simp only [List.mem_append, List.mem_ite_nil_right, List.mem_singleton] at member
    rcases member with (((((member | ⟨-, member⟩) | ⟨-, member⟩) | ⟨-, member⟩) | ⟨-, member⟩) | ⟨-, member⟩) | ⟨-, member⟩ <;>
      rw [member] <;> simp [bindingFields]
  · have optional (c : Prop) [Decidable c] (key name : String) (value : Json) :
        Json.lookup key (if c then [(name, value)] else []) = if c ∧ name = key then some value else none := by
      by_cases met : c <;> simp [met, Json.lookup]
    simp only [Json.lookup_append, Json.lookup_singleton, optional]
    simp

end AdapterSpec

theorem AdapterKind.ofValue_value {kind : AdapterKind} (known : ∀ value, kind ≠ .other value) :
    AdapterKind.ofValue kind.value = kind := by
  cases kind with
  | other value => exact absurd rfl (known value)
  | _ => rfl

theorem textItems_strings (field : String) (values : List String) :
    textItems field (values.map .str) = .ok values := by
  induction values with
  | nil => rfl
  | cons value rest ih =>
    rw [List.map_cons, textItems, ih]
    rfl

theorem textEntries_strings (entries : List (String × String)) :
    textEntries (entries.map fun entry => (entry.1, .str entry.2)) = .ok entries := by
  induction entries with
  | nil => rfl
  | cons entry rest ih =>
    rw [List.map_cons, textEntries, ih]
    rfl

theorem canonicalItems_strings (values : List String) :
    Json.canonicalItems (values.map .str) = values.map .str := by
  induction values with
  | nil => rfl
  | cons value rest ih => simp [Json.canonicalItems, Json.canonical, ih]

theorem canonicalMembers_strings (entries : List (String × String)) :
    Json.canonicalMembers (entries.map fun entry => (entry.1, .str entry.2)) =
      entries.map fun entry => (entry.1, .str entry.2) := by
  induction entries with
  | nil => rfl
  | cons entry rest ih => simp [Json.canonicalMembers, Json.canonical, ih]

def textOf : Json → String
  | .str text => text
  | _ => ""

theorem sortMembers_strings (entries : List (String × String)) :
    ∃ others : List (String × String), others.Perm entries ∧
      Json.sortMembers (entries.map fun entry => (entry.1, .str entry.2)) =
        others.map fun entry => (entry.1, .str entry.2) := by
  have perm := Json.sortMembers_perm (entries.map fun entry => (entry.1, .str entry.2))
  refine ⟨(Json.sortMembers _).map fun m => (m.1, textOf m.2), (perm.map _).trans ?_, ?_⟩
  · rw [List.map_map]
    exact .of_eq (List.map_id _)
  · rw [List.map_map]
    refine (List.map_id' _).symm.trans (List.map_congr_left fun m member => ?_)
    obtain ⟨entry, -, rfl⟩ := List.mem_map.mp (perm.mem_iff.mp member)
    rfl

theorem textEntries_sorted {entries : List (String × String)} (distinct : (entries.map Prod.fst).Nodup) :
    ∃ env : Environment,
      (textEntries (Json.sortMembers (Json.canonicalMembers (entries.map fun entry => (entry.1, .str entry.2))))).map
          (Dict.setEach .empty) = .ok env ∧
        ∀ key, env.get key = (Dict.setEach .empty entries).get key := by
  obtain ⟨others, perm, sorted⟩ := sortMembers_strings entries
  refine ⟨Dict.setEach .empty others, ?_, Dict.get_setEach_perm perm distinct .empty⟩
  rw [canonicalMembers_strings, sorted, textEntries_strings]
  rfl

namespace AdapterSpec

variable {a b : AdapterSpec}

theorem redacted_rows : a.redacted.env.rows = a.env.rows.map fun entry => (entry.1, redactedEnvValue entry.2) := rfl

theorem setEach_rows (d : Environment) (key : String) : (Dict.setEach .empty d.rows).get key = d.get key := by
  have each := Dict.get_setEach_map .empty d id key
  simpa using each

theorem kind_known (valid : a.validate.isOk = true) (value : String) : a.kind ≠ .other value := by
  intro other
  rw [validate, other] at valid
  exact absurd valid (by simp [invalid_refused])

theorem timeout_finite (valid : a.validate.isOk = true) :
    ∃ seconds, a.timeoutSeconds = .finite seconds ∧ 0 ≤ seconds := by
  have timed : ∀ next, (a.validateTimeout next).isOk = true → ∃ seconds, a.timeoutSeconds = .finite seconds ∧ 0 ≤ seconds := by
    intro next passed
    obtain ⟨positive, finite, -⟩ := validateTimeout_ok.mp passed
    cases timeout : a.timeoutSeconds with
    | finite seconds =>
      rw [timeout] at positive
      exact ⟨seconds, rfl, Rat.not_lt.mp (of_decide_eq_false positive)⟩
    | infinite negative => simp [timeout, Timeout.isFinite] at finite
    | nan => simp [timeout, Timeout.isFinite] at finite
  unfold validate at valid
  cases which : a.kind with
  | falaRuntime => rw [which] at valid; cases valid
  | other value => rw [which] at valid; exact absurd valid (by simp [invalid_refused])
  | _ =>
    rw [which] at valid
    exact timed _ valid

theorem decode_json (valid : a.validate.isOk = true) :
    ∃ encoded restored, a.json = .ok encoded ∧ adapterSpecFromJson encoded = .ok restored ∧
      restored.Same a.redacted := by
  obtain ⟨seconds, finite, positive⟩ := timeout_finite valid
  obtain ⟨members, printed, known, kind, ref, cwd, timeout, command, inherit, env⟩ := members_fields finite
  have found (key : String) : Json.lookup key (Json.sortMembers (Json.canonicalMembers members)) =
      (Json.lookup key members).map Json.canonical := by
    rw [Json.lookup_sortMembers, Json.lookup_canonicalMembers]
  have checked : checkFields (Json.sortMembers (Json.canonicalMembers members)) = .ok () := by
    have fields : (Json.sortMembers (Json.canonicalMembers members)).find? (fun m => m.1 ∉ bindingFields) = none := by
      rw [List.find?_eq_none]
      intro m member
      have named : m.1 ∈ (Json.canonicalMembers members).map Prod.fst :=
        List.mem_map_of_mem ((Json.sortMembers_perm _).mem_iff.mp member)
      rw [Json.names_canonicalMembers] at named
      obtain ⟨old, listed, same⟩ := List.mem_map.mp named
      simp [← same, known old listed]
    rw [checkFields, fields]
  have kinds : kindField (Json.sortMembers (Json.canonicalMembers members)) = .ok a.kind := by
    rw [kindField, found, kind]
    simp [Json.canonical, AdapterKind.ofValue_value (kind_known valid)]
  have texts (key value : String) (here : Json.lookup key members = if value ≠ "" then some (.str value) else none) :
      textField key (Json.sortMembers (Json.canonicalMembers members)) = .ok value := by
    rw [textField, found, here]
    by_cases nothing : value = ""
    · simp [nothing]
    · simp [nothing, Json.canonical]
  have lists (key : String) (values : List String)
      (here : Json.lookup key members = if values ≠ [] then some (strings values) else none) :
      listField key (Json.sortMembers (Json.canonicalMembers members)) = .ok values := by
    rw [listField, found, here]
    by_cases nothing : values = []
    · simp [nothing]
    · simp [nothing, strings, Json.canonical, canonicalItems_strings, textItems_strings]
  have timeouts : timeoutField (Json.sortMembers (Json.canonicalMembers members)) = .ok a.timeoutSeconds := by
    rw [timeoutField, found, timeout, finite]
    by_cases given : 0 < seconds
    · have apart : seconds ≠ 0 := fun zero => Rat.lt_irrefl (zero ▸ given)
      simp [given, Json.canonical, positiveTimeout, apart]
    · have zero : seconds = 0 := Rat.le_antisymm (Rat.not_lt.mp given) positive
      simp [zero]
  have envs : ∃ restored : Environment, envField (Json.sortMembers (Json.canonicalMembers members)) = .ok restored ∧
      ∀ key, restored.get key = a.redacted.env.get key := by
    rw [envField, found, env]
    by_cases nothing : a.env.rows = []
    · refine ⟨.empty, by simp [nothing], fun key => ?_⟩
      have same := setEach_rows a.redacted.env key
      rw [redacted_rows, nothing] at same
      exact same
    · have distinct : ((a.env.rows.map fun entry => (entry.1, redactedEnvValue entry.2)).map Prod.fst).Nodup :=
        a.redacted.env.distinct
      obtain ⟨restored, read, same⟩ := textEntries_sorted distinct
      rw [List.map_map] at read
      refine ⟨restored, ?_, fun key => (same key).trans (setEach_rows a.redacted.env key)⟩
      simpa [nothing, Json.canonical, Function.comp_def] using read
  obtain ⟨restored, entries, same⟩ := envs
  have agree : AdapterSpec.Same
      { kind := a.kind, command := a.command, ref := a.ref, cwd := a.cwd, env := restored,
        inheritEnv := a.inheritEnv, timeoutSeconds := a.timeoutSeconds } a.redacted :=
    ⟨rfl, rfl, rfl, rfl, same, rfl, rfl⟩
  refine ⟨(Json.obj members).canonical, _, by rw [json, printed], ?_, agree⟩
  rw [Json.canonical, adapterSpecFromJson, checked, kinds, texts "ref" a.ref ref, texts "cwd" a.cwd cwd, timeouts,
    lists "command" a.command command, lists "inherit_env" a.inheritEnv inherit, entries]
  exact if_pos (validate_redacted agree valid)

theorem canonical_env (same : ∀ key, a.redacted.env.get key = b.redacted.env.get key) :
    (Json.obj (a.env.rows.map fun entry => (entry.1, .str (redactedEnvValue entry.2)))).canonical =
      (Json.obj (b.env.rows.map fun entry => (entry.1, .str (redactedEnvValue entry.2)))).canonical := by
  have printed (c : AdapterSpec) : c.env.rows.map (fun entry => (entry.1, Json.str (redactedEnvValue entry.2))) =
      c.redacted.env.rows.map fun entry => (entry.1, .str entry.2) := by
    rw [redacted_rows, List.map_map]
    rfl
  have perm := (Dict.rows_perm same).map fun entry => (entry.1, Json.str entry.2)
  rw [printed, printed, Json.canonical, Json.canonical, canonicalMembers_strings, canonicalMembers_strings]
  refine congrArg Json.obj (Json.sortMembers_eq_of_perm perm ?_)
  rw [List.map_map]
  exact a.redacted.env.distinct

theorem json_of_same (same : a.redacted.Same b.redacted) : a.json = b.json := by
  have kind : a.kind = b.kind := same.kind
  have ref : a.ref = b.ref := same.ref
  have command : a.command = b.command := same.command
  have cwd : a.cwd = b.cwd := same.cwd
  have inheritEnv : a.inheritEnv = b.inheritEnv := same.inheritEnv
  have timeout : a.timeoutSeconds = b.timeoutSeconds := same.timeoutSeconds
  have entries : a.env.rows ≠ [] ↔ b.env.rows ≠ [] := by
    have left := env_rows_nil (a := a.redacted) (b := a) get_redacted
    have right := env_rows_nil (a := a.redacted) (b := b) fun key => (same.env key).trans (get_redacted key)
    exact not_congr (left.symm.trans right)
  have optional (c : Prop) [Decidable c] (name : String) (value : Json) :
      Json.canonicalMembers (if c then [(name, value)] else []) = if c then [(name, value.canonical)] else [] := by
    by_cases met : c <;> simp [met, Json.canonicalMembers]
  have env := canonical_env same.env
  simp only [Json.canonical] at env
  have shown (timed : List (String × Json)) :
      (Json.obj ([("kind", .str a.kind.value)] ++ (if a.ref ≠ "" then [("ref", .str a.ref)] else []) ++
        (if a.command ≠ [] then [("command", strings a.command)] else []) ++
        (if a.cwd ≠ "" then [("cwd", .str a.cwd)] else []) ++
        (if a.env.rows ≠ [] then
          [("env", .obj (a.env.rows.map fun entry => (entry.1, .str (redactedEnvValue entry.2))))] else []) ++
        (if a.inheritEnv ≠ [] then [("inherit_env", strings a.inheritEnv)] else []) ++ timed)).canonical =
      (Json.obj ([("kind", .str b.kind.value)] ++ (if b.ref ≠ "" then [("ref", .str b.ref)] else []) ++
        (if b.command ≠ [] then [("command", strings b.command)] else []) ++
        (if b.cwd ≠ "" then [("cwd", .str b.cwd)] else []) ++
        (if b.env.rows ≠ [] then
          [("env", .obj (b.env.rows.map fun entry => (entry.1, .str (redactedEnvValue entry.2))))] else []) ++
        (if b.inheritEnv ≠ [] then [("inherit_env", strings b.inheritEnv)] else []) ++ timed)).canonical := by
    simp only [Json.canonical, Json.canonicalMembers_append, optional, env, entries, kind, ref, command, cwd,
      inheritEnv]
  unfold json members
  rw [timeout]
  cases b.timeoutSeconds with
  | finite seconds => exact congrArg Except.ok (shown _)
  | infinite negative =>
    cases negative with
    | true => exact congrArg Except.ok (shown [])
    | false => rfl
  | nan => exact congrArg Except.ok (shown [])

theorem json_eq_iff (left : a.validate.isOk = true) (right : b.validate.isOk = true) :
    a.json = b.json ↔ a.redacted.Same b.redacted := by
  constructor
  · intro printed
    obtain ⟨encoded, restored, first, read, same⟩ := decode_json left
    obtain ⟨encoded', restored', second, read', same'⟩ := decode_json right
    cases first.symm.trans (printed.trans second)
    cases read.symm.trans read'
    exact same.symm.trans same'
  · exact json_of_same

end AdapterSpec

theorem resolveEnvironment_same {a b : AdapterSpec} (same : a.Same b) (host : Environment) :
    SameEnvironment (resolveEnvironment a host) (resolveEnvironment b host) := by
  by_cases provided : a.Provided host
  · have also : b.Provided host := fun key allowed => provided key (same.inheritEnv ▸ allowed)
    obtain ⟨left, leftReturned, leftFound⟩ := resolveEnvironment_provided provided
    obtain ⟨right, rightReturned, rightFound⟩ := resolveEnvironment_provided also
    rw [leftReturned, rightReturned]
    intro key
    rw [leftFound, rightFound, AdapterSpec.resolved, AdapterSpec.resolved, same.inheritEnv, same.env]
  · have missing : ¬ b.Provided host := fun also => provided fun key allowed => also key (same.inheritEnv ▸ allowed)
    exact .of_raised (inheritAllowed_missing provided _) (inheritAllowed_missing missing _)

end Fala.Driver
