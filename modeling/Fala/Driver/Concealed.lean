import Fala.Driver.Stored

/-! What the printed form of an adapter tells about the host that was written into it. -/

namespace Durable.Dict

variable {κ ν : Type} [DecidableEq κ]

theorem keys_set (d : Dict κ ν) (k : κ) (v : ν) :
    (d.set k v).rows.map Prod.fst =
      if k ∈ d.rows.map Prod.fst then d.rows.map Prod.fst else d.rows.map Prod.fst ++ [k] := by
  by_cases taken : k ∈ d.rows.map Prod.fst
  · have rows : (d.set k v).rows = d.rows.map fun entry => if entry.1 = k then (k, v) else entry := if_pos taken
    rw [rows, if_pos taken, List.map_map]
    apply List.map_congr_left
    intro entry _
    by_cases here : entry.1 = k
    · simp [here]
    · simp [here]
  · have rows : (d.set k v).rows = d.rows ++ [(k, v)] := if_neg taken
    rw [rows, if_neg taken, List.map_append]
    rfl

theorem isSome_get {d : Dict κ ν} {k : κ} : (d.get k).isSome = true ↔ k ∈ d.rows.map Prod.fst := by
  rw [Option.isSome_iff_exists, List.mem_map]
  constructor
  · rintro ⟨v, held⟩
    exact ⟨(k, v), get_some.mp held, rfl⟩
  · rintro ⟨entry, member, rfl⟩
    exact ⟨entry.2, get_some.mpr member⟩

theorem rows_setEach {d : Dict κ ν} {entries : List (κ × ν)} (distinct : (entries.map Prod.fst).Nodup)
    (fresh : ∀ entry ∈ entries, entry.1 ∉ d.rows.map Prod.fst) : (d.setEach entries).rows = d.rows ++ entries := by
  induction entries generalizing d with
  | nil => exact (List.append_nil _).symm
  | cons entry rest ih =>
    obtain ⟨apart, later⟩ := List.nodup_cons.mp distinct
    obtain ⟨new, others⟩ := List.forall_mem_cons.mp fresh
    have rows : (d.set entry.1 entry.2).rows = d.rows ++ [entry] := if_neg new
    have still : ∀ other ∈ rest, other.1 ∉ (d.set entry.1 entry.2).rows.map Prod.fst := by
      intro other member
      rw [rows, List.map_append, List.mem_append, not_or]
      refine ⟨others other member, ?_⟩
      intro same
      have same : other.1 = entry.1 := by simpa using same
      exact apart (same ▸ List.mem_map_of_mem member)
    rw [setEach, ih later still, rows, List.append_assoc]
    rfl

theorem rows_eq {d e : Dict κ ν} (keys : d.rows.map Prod.fst = e.rows.map Prod.fst)
    (same : ∀ k, d.get k = e.get k) : d.rows = e.rows := by
  have listed (c : Dict κ ν) : (c.rows.map Prod.fst).filterMap (fun k => (c.get k).map (k, ·)) = c.rows := by
    rw [List.filterMap_map]
    refine (List.filterMap_congr fun entry member => ?_).trans (List.filterMap_some)
    have held : c.get entry.1 = some entry.2 := get_some.mpr member
    simp [held]
  rw [← listed d, ← listed e, keys]
  exact List.filterMap_congr fun k _ => by rw [same]

end Durable.Dict

namespace Fala.Driver
open Durable

namespace AdapterSpec

/-- An inherited value that is a reference is followed once more. -/
def followed (spec : AdapterSpec) (host : Environment) (value : String) : String :=
  if isReference value then
    ((host.get (referenceName value)).or (spec.env.get (referenceName value))).getD value
  else value

/-- What the adapter takes from the host under a name. -/
def taken (spec : AdapterSpec) (host : Environment) (key : String) : Option String :=
  if key ∈ spec.inheritEnv then (host.get key).map (spec.followed host)
  else
    match spec.env.get key with
    | some value => if isReference value then host.get (referenceName value) else none
    | none => if key ∈ baseEnvironmentKeys then (host.get key).map (spec.followed host) else none

/-- What of it has the form of a reference. -/
def revealed (spec : AdapterSpec) (host : Environment) (key : String) : Option String :=
  (spec.taken host key).filter isReference

/-- The text stored for the process and the metadata of the manifest are the same with either host. -/
structure Indistinct (spec : AdapterSpec) (host other : Environment) : Prop where
  stored : (materializeHostEnvironmentIntoAdapter spec host >>= json) =
    (materializeHostEnvironmentIntoAdapter spec other >>= json)
  manifest : (materializeHostEnvironmentIntoAdapter spec host).map members =
    (materializeHostEnvironmentIntoAdapter spec other).map members

end AdapterSpec

theorem redactedEnvValue_eq_iff {left right : String} :
    redactedEnvValue left = redactedEnvValue right ↔
      (some left).filter isReference = (some right).filter isReference := by
  rw [redactedEnvValue_eq, redactedEnvValue_eq]
  by_cases first : isReference left = true
  · by_cases second : isReference right = true
    · simp [Option.filter, first, second]
    · have apart : left ≠ "<redacted>" := by
        rintro rfl
        rw [redacted_literal] at first
        cases first
      simp [Option.filter, first, second, apart]
  · by_cases second : isReference right = true
    · have apart : "<redacted>" ≠ right := by
        rintro rfl
        rw [redacted_literal] at second
        cases second
      simp [Option.filter, first, second, apart]
    · simp [Option.filter, first, second]

section
variable {spec : AdapterSpec} {host other : Environment}

theorem keys_inheritAbsent (names : ∀ key, hasEnvironment host key = hasEnvironment other key) {keys : List String}
    {env env' : Environment} (same : env.rows.map Prod.fst = env'.rows.map Prod.fst) :
    (inheritAbsent host keys env).rows.map Prod.fst = (inheritAbsent other keys env').rows.map Prod.fst := by
  induction keys generalizing env env' with
  | nil => exact same
  | cons key rest ih =>
    have held : hasEnvironment env key = hasEnvironment env' key := by
      rw [Bool.eq_iff_iff, hasEnvironment, hasEnvironment, Dict.isSome_get, Dict.isSome_get, same]
    rw [inheritAbsent, inheritAbsent, ← names key, ← held]
    by_cases added : hasEnvironment host key = true ∧ ¬ hasEnvironment env key = true
    · rw [if_pos added, if_pos added]
      apply ih
      rw [Dict.keys_set, Dict.keys_set, same]
    · rw [if_neg added, if_neg added]
      exact ih same

theorem keys_inheritAllowed (names : ∀ key, hasEnvironment host key = hasEnvironment other key) {keys : List String}
    {env env' : Environment} (same : env.rows.map Prod.fst = env'.rows.map Prod.fst) :
    (inheritAllowed host keys env).map (fun env => env.rows.map Prod.fst) =
      (inheritAllowed other keys env').map (fun env => env.rows.map Prod.fst) := by
  induction keys generalizing env env' with
  | nil => exact congrArg Except.ok same
  | cons key rest ih =>
    rw [inheritAllowed, inheritAllowed, ← names key]
    by_cases present : hasEnvironment host key = true
    · rw [if_pos present, if_pos present]
      apply ih
      rw [Dict.keys_set, Dict.keys_set, same]
    · rw [if_neg present, if_neg present]

theorem rows_materializeEntries (env : Environment) :
    (materializeEntries host env).rows = env.rows.map fun pair => (pair.1, materializeValue host env pair.2) := by
  have keys : (env.rows.map fun pair => (pair.1, materializeValue host env pair.2)).map Prod.fst =
      env.rows.map Prod.fst := by
    rw [List.map_map]
    rfl
  exact Dict.rows_setEach (keys ▸ env.distinct) fun entry _ => List.not_mem_nil

theorem materialized (subprocess : spec.kind = .subprocess) (provided : spec.Provided host) :
    ∃ env, inheritAllowed host spec.inheritEnv (inheritAbsent host baseEnvironmentKeys spec.env) = .ok env ∧
      (∀ key, env.get key = spec.entered host key) ∧
      materializeHostEnvironmentIntoAdapter spec host =
        .ok { spec with env := materializeEntries host env, inheritEnv := [] } := by
  obtain ⟨env, returned, found⟩ := inheritAllowed_present provided (inheritAbsent host baseEnvironmentKeys spec.env)
  refine ⟨env, returned, fun key => ?_, ?_⟩
  · rw [found, get_inheritAbsent, AdapterSpec.entered]
    by_cases base : key ∈ baseEnvironmentKeys <;> simp [base]
  · rw [materializeHostEnvironmentIntoAdapter, if_neg (not_not_intro subprocess), returned]
    rfl

theorem materializeValue_followed (provided : spec.Provided host) {env : Environment}
    (entered : ∀ key, env.get key = spec.entered host key) (value : String) :
    materializeValue host env value = spec.followed host value := by
  by_cases reference : isReference value = true
  · rw [AdapterSpec.followed, if_pos reference]
    cases known : host.get (referenceName value) with
    | some held => rw [materializeValue_known reference known, Option.some_or, Option.getD_some]
    | none =>
      rw [materializeValue_unknown reference known, entered, AdapterSpec.entered_unknown provided known, Option.none_or]
  · rw [AdapterSpec.followed, if_neg reference, materializeValue_literal (Bool.eq_false_iff.mpr reference)]

theorem known_iff (names : ∀ key, hasEnvironment host key = hasEnvironment other key) (key : String) :
    host.get key = none ↔ other.get key = none := by
  have same := names key
  rw [hasEnvironment, hasEnvironment, Bool.eq_iff_iff] at same
  rw [← Option.not_isSome_iff_eq_none, ← Option.not_isSome_iff_eq_none, same]

theorem passed_iff (names : ∀ key, hasEnvironment host key = hasEnvironment other key) (key : String) :
    ((host.get key).map (spec.followed host)).map redactedEnvValue =
        ((other.get key).map (spec.followed other)).map redactedEnvValue ↔
      ((host.get key).map (spec.followed host)).filter isReference =
        ((other.get key).map (spec.followed other)).filter isReference := by
  cases held : host.get key with
  | none =>
    rw [(known_iff names key).mp held]
    exact iff_of_true rfl rfl
  | some value =>
    cases also : other.get key with
    | none =>
      rw [(known_iff names key).mpr also] at held
      cases held
    | some value' =>
      simp only [Option.map_some, Option.some.injEq]
      exact redactedEnvValue_eq_iff

theorem shown_iff (names : ∀ key, hasEnvironment host key = hasEnvironment other key) (provided : spec.Provided host)
    (provided' : spec.Provided other) {env env' : Environment} (entered : ∀ key, env.get key = spec.entered host key)
    (entered' : ∀ key, env'.get key = spec.entered other key) (key : String) :
    ((env.get key).map (materializeValue host env)).map redactedEnvValue =
        ((env'.get key).map (materializeValue other env')).map redactedEnvValue ↔
      spec.revealed host key = spec.revealed other key := by
  have follows : materializeValue host env = spec.followed host := funext (materializeValue_followed provided entered)
  have follows' : materializeValue other env' = spec.followed other :=
    funext (materializeValue_followed provided' entered')
  rw [entered, entered', AdapterSpec.revealed, AdapterSpec.revealed, AdapterSpec.entered, AdapterSpec.entered,
    AdapterSpec.taken, AdapterSpec.taken]
  by_cases allowed : key ∈ spec.inheritEnv
  · rw [if_pos allowed, if_pos allowed, if_pos allowed, if_pos allowed, follows, follows']
    exact passed_iff names key
  rw [if_neg allowed, if_neg allowed, if_neg allowed, if_neg allowed]
  cases own : spec.env.get key with
  | none =>
    by_cases base : key ∈ baseEnvironmentKeys
    · simp only [base, if_true, Option.none_or, follows, follows']
      exact passed_iff names key
    · simp [base]
  | some value =>
    simp only [Option.some_or, Option.map_some]
    by_cases reference : isReference value = true
    · rw [if_pos reference]
      cases known : host.get (referenceName value) with
      | none =>
        have unknown := (known_iff names _).mp known
        rw [materializeValue_unknown reference known, materializeValue_unknown reference unknown, entered, entered',
          AdapterSpec.entered_unknown provided known, AdapterSpec.entered_unknown provided' unknown, unknown]
        simp
      | some held =>
        cases known' : other.get (referenceName value) with
        | none =>
          rw [(known_iff names _).mpr known'] at known
          cases known
        | some held' =>
          rw [materializeValue_known reference known, materializeValue_known reference known', Option.some.injEq]
          simp only [reference, if_true]
          exact redactedEnvValue_eq_iff
    · rw [if_neg reference, materializeValue_literal (Bool.eq_false_iff.mpr reference),
        materializeValue_literal (Bool.eq_false_iff.mpr reference)]
      simp [reference]

end

namespace AdapterSpec

theorem members_env_iff {a b : AdapterSpec} {seconds : Rat} (finite : a.timeoutSeconds = .finite seconds)
    (rest : b = { a with env := b.env }) (keys : a.env.rows.map Prod.fst = b.env.rows.map Prod.fst) :
    a.members = b.members ↔ ∀ key, (a.env.get key).map redactedEnvValue = (b.env.get key).map redactedEnvValue := by
  have printed : (∀ key, (a.env.get key).map redactedEnvValue = (b.env.get key).map redactedEnvValue) ↔
      a.redacted.env.rows = b.redacted.env.rows := by
    constructor
    · intro same
      apply Dict.rows_eq
      · rw [redacted_rows, redacted_rows, List.map_map, List.map_map]
        exact keys
      · intro key
        rw [get_redacted, get_redacted, same]
    · intro same key
      rw [← get_redacted, ← get_redacted, Table.ext_rows same]
  have finite' : b.timeoutSeconds = .finite seconds := by rw [rest]; exact finite
  rw [printed, redacted_rows, redacted_rows]
  have values (c : AdapterSpec) : c.env.rows.map (fun entry => (entry.1, Json.str (redactedEnvValue entry.2))) =
      (c.env.rows.map fun entry => (entry.1, redactedEnvValue entry.2)).map fun entry => (entry.1, .str entry.2) := by
    rw [List.map_map]
    rfl
  have nothing : a.env.rows = [] ↔ b.env.rows = [] := by
    rw [← List.map_eq_nil_iff (f := Prod.fst), keys, List.map_eq_nil_iff]
  constructor
  · intro same
    obtain ⟨left, first, -, -, -, -, -, -, -, env⟩ := members_fields finite
    obtain ⟨right, second, -, -, -, -, -, -, -, env'⟩ := members_fields finite'
    rw [first, second, Option.some.injEq] at same
    rw [same, env'] at env
    by_cases empty : a.env.rows = []
    · rw [empty, nothing.mp empty]
    · rw [if_pos empty, if_pos (mt nothing.mpr empty)] at env
      have listed := Json.obj.inj (Option.some.inj env)
      have strings : Function.Injective fun entry : String × String => (entry.1, Json.str entry.2) := by
        rintro ⟨name, value⟩ ⟨name', value'⟩ equal
        cases equal
        rfl
      rw [values, values] at listed
      exact (List.map_injective_iff.mpr strings listed).symm
  · intro same
    have parts : a.kind = b.kind ∧ a.ref = b.ref ∧ a.command = b.command ∧ a.cwd = b.cwd ∧
        a.inheritEnv = b.inheritEnv ∧ a.timeoutSeconds = b.timeoutSeconds := by
      rw [rest]
      exact ⟨rfl, rfl, rfl, rfl, rfl, rfl⟩
    unfold members
    rw [parts.1, parts.2.1, parts.2.2.1, parts.2.2.2.1, parts.2.2.2.2.1, parts.2.2.2.2.2, values, values, same]
    simp only [ne_eq, nothing]

end AdapterSpec

/-- What is stored of an adapter tells two hosts apart exactly if one of them reveals a value that has the form of a
reference, and not both the same. -/
theorem host_values_hidden_iff (spec : AdapterSpec) (valid : spec.validate.isOk = true) (host other : Environment)
    (names : ∀ key, hasEnvironment host key = hasEnvironment other key) :
    spec.Indistinct host other ↔ (spec.kind = .subprocess → spec.Provided host →
      ∀ key, spec.revealed host key = spec.revealed other key) := by
  by_cases subprocess : spec.kind = .subprocess
  swap
  · have unchanged (host : Environment) : materializeHostEnvironmentIntoAdapter spec host = .ok spec :=
      if_pos subprocess
    refine iff_of_true ⟨?_, ?_⟩ (fun same => absurd same subprocess)
    · rw [unchanged, unchanged]
    · rw [unchanged, unchanged]
  have start : (inheritAbsent host baseEnvironmentKeys spec.env).rows.map Prod.fst =
      (inheritAbsent other baseEnvironmentKeys spec.env).rows.map Prod.fst := keys_inheritAbsent names rfl
  have listed := @keys_inheritAllowed host other names spec.inheritEnv _ _ start
  by_cases provided : spec.Provided host
  swap
  · obtain ⟨message, raised⟩ := inheritAllowed_missing provided (inheritAbsent host baseEnvironmentKeys spec.env)
    have failed : materializeHostEnvironmentIntoAdapter spec host = .error message := by
      rw [materializeHostEnvironmentIntoAdapter, if_neg (not_not_intro subprocess), raised]
      rfl
    have failed' : materializeHostEnvironmentIntoAdapter spec other = .error message := by
      rw [raised] at listed
      rw [materializeHostEnvironmentIntoAdapter, if_neg (not_not_intro subprocess)]
      cases late : inheritAllowed other spec.inheritEnv (inheritAbsent other baseEnvironmentKeys spec.env) with
      | ok env =>
        rw [late] at listed
        cases listed
      | error message' =>
        rw [late] at listed
        cases listed
        rfl
    refine iff_of_true ⟨?_, ?_⟩ (fun _ held => absurd held provided)
    · rw [failed, failed']
    · rw [failed, failed']
  have provided' : spec.Provided other := fun key allowed => names key ▸ provided key allowed
  obtain ⟨seconds, finite, -⟩ := AdapterSpec.timeout_finite valid
  obtain ⟨env, returned, entered, made⟩ := materialized subprocess provided
  obtain ⟨env', returned', entered', made'⟩ := materialized subprocess provided'
  rw [returned, returned'] at listed
  have keys : env.rows.map Prod.fst = env'.rows.map Prod.fst := Except.ok.inj listed
  have written (host env : Environment) : (materializeEntries host env).rows.map Prod.fst = env.rows.map Prod.fst := by
    rw [rows_materializeEntries, List.map_map]
    rfl
  have values (host env : Environment) (key : String) :
      (materializeEntries host env).get key = (env.get key).map (materializeValue host env) := by
    rw [materializeEntries, Dict.get_setEach_map, Dict.get_empty, Option.or_none]
  have same : ({ spec with env := materializeEntries host env, inheritEnv := [] } : AdapterSpec).members =
      ({ spec with env := materializeEntries other env', inheritEnv := [] } : AdapterSpec).members ↔
        ∀ key, spec.revealed host key = spec.revealed other key := by
    have bounded : ({ spec with env := materializeEntries host env, inheritEnv := [] } : AdapterSpec).timeoutSeconds =
        .finite seconds := finite
    rw [AdapterSpec.members_env_iff bounded rfl (by rw [written, written, keys])]
    refine forall_congr' fun key => ?_
    rw [values, values]
    exact shown_iff names provided provided' entered entered' key
  constructor
  · intro indistinct _ _
    have manifest := indistinct.manifest
    rw [made, made'] at manifest
    exact same.mp (Except.ok.inj manifest)
  · intro revealed
    have members := same.mpr (revealed subprocess provided)
    refine ⟨?_, ?_⟩
    · rw [made, made']
      change AdapterSpec.json _ = AdapterSpec.json _
      unfold AdapterSpec.json
      rw [members]
    · rw [made, made']
      exact congrArg Except.ok members

theorem AdapterSpec.revealed_literal (spec : AdapterSpec) {host : Environment}
    (literal : ∀ entry ∈ host.rows, isReference entry.2 = false) (key : String) : spec.revealed host key = none := by
  have plain (name : String) : (host.get name).filter isReference = none := by
    cases held : host.get name with
    | none => rfl
    | some value =>
      have other := literal (name, value) (Dict.get_some.mp held)
      simp [other]
  have passed : ((host.get key).map (spec.followed host)).filter isReference = none := by
    have unfollowed : (host.get key).map (spec.followed host) = host.get key := by
      cases held : host.get key with
      | none => rfl
      | some value =>
        have other := literal (key, value) (Dict.get_some.mp held)
        simp [AdapterSpec.followed, other]
    rw [unfollowed, plain]
  rw [AdapterSpec.revealed, AdapterSpec.taken]
  by_cases allowed : key ∈ spec.inheritEnv
  · rw [if_pos allowed, passed]
  rw [if_neg allowed]
  cases spec.env.get key with
  | none =>
    by_cases base : key ∈ baseEnvironmentKeys
    · simp only [base, if_true, passed]
    · simp only [base, if_false, Option.filter_none]
  | some value =>
    by_cases reference : isReference value = true
    · simp only [reference, if_true, plain]
    · simp only [reference, Bool.false_eq_true, if_false, Option.filter_none]

theorem hasEnvironment_keys {host other : Environment} (same : host.rows.map Prod.fst = other.rows.map Prod.fst)
    (key : String) : hasEnvironment host key = hasEnvironment other key := by
  rw [Bool.eq_iff_iff, hasEnvironment, hasEnvironment, Dict.isSome_get, Dict.isSome_get, same]

def credentialHost (token : String) : Environment :=
  .setEach .empty [("LANG", "C"), ("API_TOKEN", token)]

theorem host_values_hidden_token :
    tokenAdapter.validate.isOk = true ∧ tokenAdapter.Indistinct (credentialHost "first") (credentialHost "second") := by
  have valid : tokenAdapter.validate.isOk = true := by decide +kernel
  have keys : (credentialHost "first").rows.map Prod.fst = (credentialHost "second").rows.map Prod.fst := by
    decide +kernel
  refine ⟨valid, (host_values_hidden_iff tokenAdapter valid _ _ (hasEnvironment_keys keys)).mpr ?_⟩
  intro _ _ key
  rw [tokenAdapter.revealed_literal, tokenAdapter.revealed_literal]
  · decide +kernel
  · decide +kernel

/-- A secret that is spelled like a reference is stored as it is. -/
theorem host_reference_revealed :
    ¬ ∀ (spec : AdapterSpec) (host other : Environment), spec.validate.isOk = true →
      (∀ key, hasEnvironment host key = hasEnvironment other key) → spec.Indistinct host other := by
  intro hidden
  have keys : (credentialHost "$\x7benv:first\x7d").rows.map Prod.fst = (credentialHost "second").rows.map Prod.fst := by
    decide +kernel
  have same := (hidden tokenAdapter (credentialHost "$\x7benv:first\x7d") (credentialHost "second") (by decide +kernel)
    (hasEnvironment_keys keys)).manifest
  revert same
  decide +kernel

end Fala.Driver
