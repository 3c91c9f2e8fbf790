import Fala.Driver.Adapters

/-! The environment of a child process, resolved at once or written into the adapter first. -/

namespace Fala.Driver
open Durable

abbrev Environment := Dict String String

/-- `_base_environment_keys` -/
def baseEnvironmentKeys : List String := ["PATH", "HOME", "TMPDIR", "LANG", "LC_ALL", "TZ"]

/-- `_has_environment` -/
def hasEnvironment (inherited : Environment) (key : String) : Bool := (inherited.get key).isSome

/-- `_lookup_environment` -/
def lookupEnvironment (inherited : Environment) (key : String) : String := (inherited.get key).getD ""

/-- A value of the form `${env:NAME}`. -/
def isReference (value : String) : Bool := value.startsWith "$\x7benv:" ∧ value.endsWith "\x7d"

def referenceName (value : String) : String := .ofList (value.toList.drop 6).dropLast

def interpolate (inherited : Environment) (value : String) : String :=
  if isReference value then lookupEnvironment inherited (referenceName value) else value

/-- The keys that are present replace what is resolved so far. -/
def inheritPresent (inherited : Environment) : List String → Environment → Environment
  | [], resolved => resolved
  | key :: rest, resolved =>
    inheritPresent inherited rest
      (if hasEnvironment inherited key then resolved.set key (lookupEnvironment inherited key) else resolved)

/-- The keys that are present are added where the adapter sets nothing. -/
def inheritAbsent (inherited : Environment) : List String → Environment → Environment
  | [], env => env
  | key :: rest, env =>
    inheritAbsent inherited rest
      (if hasEnvironment inherited key ∧ ¬ hasEnvironment env key then
        env.set key (lookupEnvironment inherited key)
      else env)

/-- The keys of the allowlist, each of which has to be there. -/
def inheritAllowed (inherited : Environment) : List String → Environment → Except String Environment
  | [], resolved => .ok resolved
  | key :: rest, resolved =>
    if hasEnvironment inherited key then
      inheritAllowed inherited rest (resolved.set key (lookupEnvironment inherited key))
    else .error ("host environment missing for inherit_env key: " ++ key)

/-- `resolve_environment` -/
def resolveEnvironment (spec : AdapterSpec) (inherited : Environment) : Except String Environment :=
  inheritAllowed inherited spec.inheritEnv
    ((inheritPresent inherited baseEnvironmentKeys .empty).setEach
      (spec.env.rows.map fun pair => (pair.1, interpolate inherited pair.2)))

/-- A reference that the host does not know may name another entry of the adapter. -/
def materializeValue (host env : Environment) (value : String) : String :=
  if isReference value then
    if hasEnvironment host (referenceName value) then lookupEnvironment host (referenceName value)
    else if hasEnvironment env (referenceName value) then lookupEnvironment env (referenceName value)
    else value
  else value

def materializeEntries (host env : Environment) : Environment :=
  Dict.setEach Table.empty (env.rows.map fun pair => (pair.1, materializeValue host env pair.2))

/-- `materialize_host_environment_into_adapter` -/
def materializeHostEnvironmentIntoAdapter (adapter : AdapterSpec) (host : Environment) : Except String AdapterSpec :=
  if adapter.kind ≠ .subprocess then .ok adapter
  else
    (inheritAllowed host adapter.inheritEnv (inheritAbsent host baseEnvironmentKeys adapter.env)).map
      fun env => { adapter with env := materializeEntries host env, inheritEnv := [] }

section
variable {inherited : Environment}

theorem lookup_present {key : String} (present : hasEnvironment inherited key = true) :
    some (lookupEnvironment inherited key) = inherited.get key := by
  obtain ⟨value, held⟩ := Option.isSome_iff_exists.mp present
  rw [lookupEnvironment, held, Option.getD_some]

theorem get_absent {key : String} (absent : ¬ hasEnvironment inherited key = true) : inherited.get key = none := by
  simpa [hasEnvironment] using absent

theorem get_inheritPresent (keys : List String) (resolved : Environment) (k : String) :
    (inheritPresent inherited keys resolved).get k =
      if k ∈ keys then (inherited.get k).or (resolved.get k) else resolved.get k := by
  induction keys generalizing resolved with
  | nil => rfl
  | cons key rest ih =>
    rw [inheritPresent, ih]
    by_cases present : hasEnvironment inherited key = true
    · rw [if_pos present, Dict.get_set, lookup_present present]
      by_cases here : key = k
      · subst here
        obtain ⟨value, held⟩ := Option.isSome_iff_exists.mp present
        simp [held]
      · simp [here, Ne.symm here]
    · rw [if_neg present]
      by_cases here : key = k
      · subst here
        simp [get_absent present]
      · simp [Ne.symm here]

theorem get_inheritAbsent (keys : List String) (env : Environment) (k : String) :
    (inheritAbsent inherited keys env).get k =
      if k ∈ keys then (env.get k).or (inherited.get k) else env.get k := by
  induction keys generalizing env with
  | nil => rfl
  | cons key rest ih =>
    rw [inheritAbsent, ih]
    by_cases added : hasEnvironment inherited key = true ∧ ¬ hasEnvironment env key = true
    · rw [if_pos added, Dict.get_set, lookup_present added.1]
      by_cases here : key = k
      · subst here
        simp [get_absent added.2]
      · simp [here, Ne.symm here]
    · rw [if_neg added]
      by_cases here : key = k
      · subst here
        by_cases present : hasEnvironment inherited key = true
        · have held : hasEnvironment env key = true :=
            Decidable.byContradiction fun missing => added ⟨present, missing⟩
          obtain ⟨value, held⟩ := Option.isSome_iff_exists.mp held
          simp [held]
        · simp [get_absent present]
      · simp [Ne.symm here]

theorem inheritAllowed_present {keys : List String} (present : ∀ key ∈ keys, hasEnvironment inherited key = true)
    (resolved : Environment) :
    ∃ result, inheritAllowed inherited keys resolved = .ok result ∧
      ∀ k, result.get k = if k ∈ keys then inherited.get k else resolved.get k := by
  induction keys generalizing resolved with
  | nil => exact ⟨resolved, rfl, fun _ => rfl⟩
  | cons key rest ih =>
    obtain ⟨here, later⟩ := List.forall_mem_cons.mp present
    obtain ⟨result, returned, found⟩ := ih later (resolved.set key (lookupEnvironment inherited key))
    refine ⟨result, by rw [inheritAllowed, if_pos here, returned], fun k => ?_⟩
    rw [found, Dict.get_set, lookup_present here]
    by_cases listed : k ∈ rest
    · simp [listed]
    · by_cases same : key = k
      · simp [same]
      · simp [listed, same, Ne.symm same]

theorem inheritAllowed_missing {keys : List String} (missing : ¬ ∀ key ∈ keys, hasEnvironment inherited key = true)
    (resolved : Environment) : ∃ message, inheritAllowed inherited keys resolved = .error message := by
  induction keys generalizing resolved with
  | nil => exact absurd (fun _ member => nomatch member) missing
  | cons key rest ih =>
    unfold inheritAllowed
    by_cases here : hasEnvironment inherited key = true
    · rw [if_pos here]
      exact ih (fun later => missing (List.forall_mem_cons.mpr ⟨here, later⟩)) _
    · rw [if_neg here]
      exact ⟨_, rfl⟩

end

/-- Two outcomes of a resolution that a caller cannot tell apart: both raise, or both give every
    name the same value. -/
def SameEnvironment : Except String Environment → Except String Environment → Prop
  | .ok left, .ok right => ∀ key, left.get key = right.get key
  | .error _, .error _ => True
  | _, _ => False

/-- The host is written into the adapter, which is resolved later without it. -/
def resolveMaterialized (spec : AdapterSpec) (host : Environment) : Except String Environment := do
  let materialized ← materializeHostEnvironmentIntoAdapter spec host
  resolveEnvironment materialized .empty

namespace AdapterSpec

/-- The names that an adapter asks the host for. -/
def Asks (spec : AdapterSpec) (key : String) : Prop :=
  key ∈ baseEnvironmentKeys ∨ key ∈ spec.inheritEnv ∨
    ∃ entry ∈ spec.env.rows, isReference entry.2 = true ∧ referenceName entry.2 = key

/-- Both paths yield one environment, which depends on nothing but what the adapter asks for. -/
structure PathsAgree (spec : AdapterSpec) (host : Environment) : Prop where
  same : SameEnvironment (resolveEnvironment spec host) (resolveMaterialized spec host)
  asked : ∀ other : Environment, (∀ key, spec.Asks key → other.get key = host.get key) →
    SameEnvironment (resolveEnvironment spec other) (resolveEnvironment spec host) ∧
      SameEnvironment (resolveMaterialized spec other) (resolveMaterialized spec host)

/-- No value that reaches the child from the host is a reference itself, and no reference that the
    host does not know names a literal entry of the adapter. -/
structure Plain (spec : AdapterSpec) (host : Environment) : Prop where
  inherited : ∀ key value, key ∈ spec.inheritEnv ∨ key ∈ baseEnvironmentKeys ∧ spec.env.get key = none →
    host.get key = some value → isReference value = false
  referenced : ∀ key value held, key ∉ spec.inheritEnv → spec.env.get key = some value →
    isReference value = true → host.get (referenceName value) = some held → isReference held = false
  unknown : ∀ key value own, key ∉ spec.inheritEnv → spec.env.get key = some value →
    isReference value = true → host.get (referenceName value) = none →
      spec.env.get (referenceName value) = some own → own = "" ∨ isReference own = true

/-- The host has what the adapter must inherit. -/
def Provided (spec : AdapterSpec) (host : Environment) : Prop :=
  ∀ key ∈ spec.inheritEnv, hasEnvironment host key = true

/-- What a name stands for when the host is at hand. -/
def resolved (spec : AdapterSpec) (host : Environment) (key : String) : Option String :=
  if key ∈ spec.inheritEnv then host.get key
  else ((spec.env.get key).map (interpolate host)).or (if key ∈ baseEnvironmentKeys then host.get key else none)

/-- What a name stands for before references are followed. -/
def entered (spec : AdapterSpec) (host : Environment) (key : String) : Option String :=
  if key ∈ spec.inheritEnv then host.get key
  else (spec.env.get key).or (if key ∈ baseEnvironmentKeys then host.get key else none)

end AdapterSpec

section
variable {spec : AdapterSpec} {host : Environment}

theorem resolveEnvironment_provided (provided : spec.Provided host) :
    ∃ result, resolveEnvironment spec host = .ok result ∧ ∀ key, result.get key = spec.resolved host key := by
  obtain ⟨result, returned, found⟩ := inheritAllowed_present provided
    ((inheritPresent host baseEnvironmentKeys .empty).setEach
      (spec.env.rows.map fun pair => (pair.1, interpolate host pair.2)))
  refine ⟨result, returned, fun key => ?_⟩
  rw [found, Dict.get_setEach_map, get_inheritPresent, Dict.get_empty, Option.or_none]
  rfl

theorem resolveMaterialized_provided (subprocess : spec.kind = .subprocess) (provided : spec.Provided host) :
    ∃ env result, (∀ key, env.get key = spec.entered host key) ∧ resolveMaterialized spec host = .ok result ∧
      ∀ key, result.get key = (spec.entered host key).map fun value =>
        interpolate .empty (materializeValue host env value) := by
  obtain ⟨env, returned, found⟩ := inheritAllowed_present provided (inheritAbsent host baseEnvironmentKeys spec.env)
  have entered : ∀ key, env.get key = spec.entered host key := by
    intro key
    rw [found, get_inheritAbsent, AdapterSpec.entered]
    by_cases base : key ∈ baseEnvironmentKeys <;> simp [base]
  let written : AdapterSpec := { spec with env := materializeEntries host env, inheritEnv := [] }
  have nothing : written.Provided .empty := fun _ member => (List.not_mem_nil member).elim
  obtain ⟨result, resolved, value⟩ := resolveEnvironment_provided nothing
  refine ⟨env, result, entered, ?_, fun key => ?_⟩
  · unfold resolveMaterialized materializeHostEnvironmentIntoAdapter
    rw [if_neg (not_not_intro subprocess), returned]
    exact resolved
  · have own : written.env.get key = (spec.entered host key).map (materializeValue host env) := by
      change (materializeEntries host env).get key = _
      rw [materializeEntries, Dict.get_setEach_map, Dict.get_empty, Option.or_none, entered]
    rw [value, AdapterSpec.resolved, if_neg (List.not_mem_nil), own, Dict.get_empty, ite_self, Option.or_none,
      Option.map_map]
    rfl

theorem resolve_unprovided (subprocess : spec.kind = .subprocess) (missing : ¬ spec.Provided host) :
    (∃ message, resolveEnvironment spec host = .error message) ∧
      ∃ message, resolveMaterialized spec host = .error message := by
  constructor
  · exact inheritAllowed_missing missing _
  · obtain ⟨message, raised⟩ := inheritAllowed_missing missing (inheritAbsent host baseEnvironmentKeys spec.env)
    refine ⟨message, ?_⟩
    unfold resolveMaterialized materializeHostEnvironmentIntoAdapter
    rw [if_neg (not_not_intro subprocess), raised]
    rfl

theorem interpolate_literal {value : String} (literal : isReference value = false) :
    interpolate host value = value := if_neg (Bool.eq_false_iff.mp literal)

theorem interpolate_reference {value : String} (reference : isReference value = true) :
    interpolate host value = lookupEnvironment host (referenceName value) := if_pos reference

theorem interpolate_empty (value : String) : isReference (interpolate .empty value) = false := by
  by_cases reference : isReference value = true
  · have nothing : isReference "" = false := by decide +kernel
    rw [interpolate_reference reference]
    exact nothing
  · rw [interpolate_literal (Bool.eq_false_iff.mpr reference)]
    exact Bool.eq_false_iff.mpr reference

theorem interpolate_empty_eq {value : String} : interpolate .empty value = value ↔ isReference value = false := by
  constructor
  · intro kept
    rw [← kept]
    exact interpolate_empty value
  · exact interpolate_literal

theorem interpolate_empty_nothing {value : String} :
    interpolate .empty value = "" ↔ value = "" ∨ isReference value = true := by
  by_cases reference : isReference value = true
  · rw [interpolate_reference reference]
    exact iff_of_true rfl (.inr reference)
  · rw [interpolate_literal (Bool.eq_false_iff.mpr reference)]
    simp [reference]

theorem materializeValue_literal {env : Environment} {value : String} (literal : isReference value = false) :
    materializeValue host env value = value := if_neg (Bool.eq_false_iff.mp literal)

theorem materializeValue_known {env : Environment} {value held : String} (reference : isReference value = true)
    (known : host.get (referenceName value) = some held) : materializeValue host env value = held := by
  have present : hasEnvironment host (referenceName value) = true := by rw [hasEnvironment, known]; rfl
  rw [materializeValue, if_pos reference, if_pos present, lookupEnvironment, known, Option.getD_some]

theorem materializeValue_unknown {env : Environment} {value : String} (reference : isReference value = true)
    (unknown : host.get (referenceName value) = none) :
    materializeValue host env value = (env.get (referenceName value)).getD value := by
  have absent : ¬ hasEnvironment host (referenceName value) = true := by simp [hasEnvironment, unknown]
  rw [materializeValue, if_pos reference, if_neg absent]
  cases held : env.get (referenceName value) <;> simp [hasEnvironment, lookupEnvironment, held]

theorem AdapterSpec.inherited_entered {key value : String}
    (passed : key ∈ spec.inheritEnv ∨ key ∈ baseEnvironmentKeys ∧ spec.env.get key = none)
    (held : host.get key = some value) :
    spec.resolved host key = some value ∧ spec.entered host key = some value := by
  unfold AdapterSpec.resolved AdapterSpec.entered
  by_cases allowed : key ∈ spec.inheritEnv
  · simp [allowed, held]
  · obtain ⟨base, unset⟩ := passed.resolve_left allowed
    simp [allowed, base, unset, held]

theorem AdapterSpec.own_entered {key value : String} (own : key ∉ spec.inheritEnv)
    (held : spec.env.get key = some value) :
    spec.resolved host key = some (interpolate host value) ∧ spec.entered host key = some value := by
  unfold AdapterSpec.resolved AdapterSpec.entered
  simp [own, held]

theorem AdapterSpec.entered_cases {key value : String} (entered : spec.entered host key = some value) :
    ((key ∈ spec.inheritEnv ∨ key ∈ baseEnvironmentKeys ∧ spec.env.get key = none) ∧ host.get key = some value) ∨
      (key ∉ spec.inheritEnv ∧ spec.env.get key = some value) := by
  unfold AdapterSpec.entered at entered
  by_cases allowed : key ∈ spec.inheritEnv
  · exact .inl ⟨.inl allowed, by simpa [allowed] using entered⟩
  · rw [if_neg allowed] at entered
    cases set : spec.env.get key with
    | some own => exact .inr ⟨allowed, by simpa [set] using entered⟩
    | none =>
      by_cases base : key ∈ baseEnvironmentKeys
      · exact .inl ⟨.inr ⟨base, rfl⟩, by simpa [set, base] using entered⟩
      · simp [set, base] at entered

theorem AdapterSpec.entered_none {key : String} (nothing : spec.entered host key = none) :
    spec.resolved host key = none := by
  unfold AdapterSpec.entered at nothing
  unfold AdapterSpec.resolved
  by_cases allowed : key ∈ spec.inheritEnv
  · simpa [allowed] using nothing
  · simp only [allowed, if_false, Option.or_eq_none_iff] at nothing
    simp [allowed, nothing.1, nothing.2]

theorem AdapterSpec.entered_unknown (provided : spec.Provided host) {name : String} (unknown : host.get name = none) :
    spec.entered host name = spec.env.get name := by
  have own : name ∉ spec.inheritEnv := by
    intro allowed
    have present := provided name allowed
    rw [hasEnvironment, unknown] at present
    cases present
  unfold AdapterSpec.entered
  rw [if_neg own, unknown, ite_self, Option.or_none]

theorem plain_iff (provided : spec.Provided host) {env : Environment}
    (entered : ∀ key, env.get key = spec.entered host key) :
    (∀ key, spec.resolved host key = (spec.entered host key).map fun value =>
      interpolate .empty (materializeValue host env value)) ↔ spec.Plain host := by
  constructor
  · intro same
    refine ⟨fun key value passed held => ?_, fun key value held own set reference known => ?_,
      fun key value literal own set reference unknown named => ?_⟩
    · have ⟨direct, late⟩ := AdapterSpec.inherited_entered passed held
      have here := same key
      rw [direct, late, Option.map_some, Option.some.injEq] at here
      rw [here]
      exact interpolate_empty _
    · have ⟨direct, late⟩ : spec.resolved host key = some (interpolate host value) ∧
          spec.entered host key = some value := AdapterSpec.own_entered own set
      have here := same key
      rw [direct, late, Option.map_some, Option.some.injEq, materializeValue_known reference known,
        interpolate_reference reference, lookupEnvironment, known, Option.getD_some] at here
      exact interpolate_empty_eq.mp here.symm
    · have ⟨direct, late⟩ : spec.resolved host key = some (interpolate host value) ∧
          spec.entered host key = some value := AdapterSpec.own_entered own set
      have here := same key
      rw [direct, late, Option.map_some, Option.some.injEq, materializeValue_unknown reference unknown,
        entered, AdapterSpec.entered_unknown provided unknown, named, Option.getD_some,
        interpolate_reference reference, lookupEnvironment, unknown, Option.getD_none] at here
      exact interpolate_empty_nothing.mp here.symm
  · intro plain key
    cases late : spec.entered host key with
    | none => rw [AdapterSpec.entered_none late, Option.map_none]
    | some value =>
      rw [Option.map_some]
      rcases AdapterSpec.entered_cases late with ⟨passed, held⟩ | ⟨own, set⟩
      · have literal := plain.inherited key value passed held
        rw [(AdapterSpec.inherited_entered passed held).1, materializeValue_literal literal,
          interpolate_literal literal]
      · rw [(AdapterSpec.own_entered own set).1, Option.some.injEq]
        by_cases reference : isReference value = true
        · rw [interpolate_reference reference, lookupEnvironment]
          cases known : host.get (referenceName value) with
          | some held =>
            rw [materializeValue_known reference known, Option.getD_some]
            exact (interpolate_literal (plain.referenced key value held own set reference known)).symm
          | none =>
            rw [materializeValue_unknown reference known, entered, AdapterSpec.entered_unknown provided known,
              Option.getD_none, eq_comm, interpolate_empty_nothing]
            cases named : spec.env.get (referenceName value) with
            | some literal => exact plain.unknown key value literal own set reference known named
            | none => exact .inr reference
        · have literal := Bool.eq_false_iff.mpr reference
          rw [materializeValue_literal literal, interpolate_literal literal, interpolate_literal literal]

/-- Two hosts that answer an adapter alike. -/
def AdapterSpec.AsksAlike (spec : AdapterSpec) (other host : Environment) : Prop :=
  ∀ key, spec.Asks key → other.get key = host.get key

namespace AdapterSpec.AsksAlike

variable {other : Environment}

theorem provided_iff (alike : spec.AsksAlike other host) : spec.Provided other ↔ spec.Provided host := by
  refine forall₂_congr fun key allowed => ?_
  rw [hasEnvironment, hasEnvironment, alike key (.inr (.inl allowed))]

theorem named (alike : spec.AsksAlike other host) {key value : String} (set : spec.env.get key = some value)
    (reference : isReference value = true) : other.get (referenceName value) = host.get (referenceName value) :=
  alike _ (.inr (.inr ⟨(key, value), Dict.get_some.mp set, reference, rfl⟩))

theorem passed (alike : spec.AsksAlike other host) {key : String}
    (passed : key ∈ spec.inheritEnv ∨ key ∈ baseEnvironmentKeys ∧ spec.env.get key = none) :
    other.get key = host.get key := by
  rcases passed with allowed | ⟨base, -⟩
  · exact alike key (.inr (.inl allowed))
  · exact alike key (.inl base)

theorem resolved (alike : spec.AsksAlike other host) (key : String) :
    spec.resolved other key = spec.resolved host key := by
  unfold AdapterSpec.resolved
  by_cases allowed : key ∈ spec.inheritEnv
  · rw [if_pos allowed, if_pos allowed, alike key (.inr (.inl allowed))]
  rw [if_neg allowed, if_neg allowed]
  congr 1
  · cases set : spec.env.get key with
    | none => rfl
    | some value =>
      rw [Option.map_some, Option.map_some, interpolate, interpolate]
      by_cases reference : isReference value = true
      · rw [lookupEnvironment, lookupEnvironment, alike.named set reference]
      · rw [if_neg reference, if_neg reference]
  · by_cases base : key ∈ baseEnvironmentKeys
    · rw [if_pos base, if_pos base, alike key (.inl base)]
    · rw [if_neg base, if_neg base]

theorem plain (alike : spec.AsksAlike other host) (plain : spec.Plain host) : spec.Plain other where
  inherited key value passed held := plain.inherited key value passed (alike.passed passed ▸ held)
  referenced key value held own set reference known :=
    plain.referenced key value held own set reference (alike.named set reference ▸ known)
  unknown key value literal own set reference unknown named :=
    plain.unknown key value literal own set reference (alike.named set reference ▸ unknown) named

end AdapterSpec.AsksAlike

theorem SameEnvironment.of_raised {left right : Except String Environment}
    (leftRaised : ∃ message, left = .error message) (rightRaised : ∃ message, right = .error message) :
    SameEnvironment left right := by
  obtain ⟨_, rfl⟩ := leftRaised
  obtain ⟨_, rfl⟩ := rightRaised
  exact True.intro

theorem resolveMaterialized_same (subprocess : spec.kind = .subprocess) (provided : spec.Provided host) :
    SameEnvironment (resolveEnvironment spec host) (resolveMaterialized spec host) ↔ spec.Plain host := by
  obtain ⟨direct, returned, found⟩ := resolveEnvironment_provided provided
  obtain ⟨env, late, entered, lately, value⟩ := resolveMaterialized_provided subprocess provided
  rw [← plain_iff provided entered, returned, lately]
  refine forall_congr' fun key => ?_
  rw [found, value]

theorem resolveMaterialized_plain (subprocess : spec.kind = .subprocess) (provided : spec.Provided host)
    (plain : spec.Plain host) :
    ∃ result, resolveMaterialized spec host = .ok result ∧ ∀ key, result.get key = spec.resolved host key := by
  obtain ⟨env, result, entered, returned, value⟩ := resolveMaterialized_provided subprocess provided
  refine ⟨result, returned, fun key => ?_⟩
  rw [value, (plain_iff provided entered).mpr plain]

/-- The two paths agree exactly when nothing that would be read as a reference comes from the host,
    and no reference falls back to a literal of the adapter; they both raise when the host lacks a
    name that the adapter must inherit. -/
theorem paths_agree_iff (spec : AdapterSpec) (subprocess : spec.kind = .subprocess) (host : Environment) :
    spec.PathsAgree host ↔ (spec.Provided host → spec.Plain host) := by
  constructor
  · intro agree provided
    exact (resolveMaterialized_same subprocess provided).mp agree.same
  intro plain
  by_cases provided : spec.Provided host
  · have plain := plain provided
    refine ⟨(resolveMaterialized_same subprocess provided).mpr plain, fun other asked => ?_⟩
    have alike : spec.AsksAlike other host := asked
    have also := alike.provided_iff.mpr provided
    obtain ⟨left, leftReturned, leftFound⟩ := resolveEnvironment_provided also
    obtain ⟨right, rightReturned, rightFound⟩ := resolveEnvironment_provided provided
    obtain ⟨leftLate, leftLately, leftValue⟩ := resolveMaterialized_plain subprocess also (alike.plain plain)
    obtain ⟨rightLate, rightLately, rightValue⟩ := resolveMaterialized_plain subprocess provided plain
    rw [leftReturned, rightReturned, leftLately, rightLately]
    constructor
    · intro key
      rw [leftFound, rightFound, alike.resolved]
    · intro key
      rw [leftValue, rightValue, alike.resolved]
  · have ⟨raised, lateRaised⟩ := resolve_unprovided subprocess provided
    refine ⟨.of_raised raised lateRaised, fun other asked => ?_⟩
    have alike : spec.AsksAlike other host := asked
    have ⟨otherRaised, otherLate⟩ := resolve_unprovided subprocess (mt alike.provided_iff.mp provided)
    exact ⟨.of_raised otherRaised raised, .of_raised otherLate lateRaised⟩

end

theorem AdapterSpec.Plain.of_literals {spec : AdapterSpec} {host : Environment}
    (literals : ∀ entry ∈ host.rows, isReference entry.2 = false)
    (known : ∀ entry ∈ spec.env.rows, isReference entry.2 = true → hasEnvironment host (referenceName entry.2) = true) :
    spec.Plain host where
  inherited key value _ held := literals (key, value) (Dict.get_some.mp held)
  referenced _ value held _ _ _ found := literals (referenceName value, held) (Dict.get_some.mp found)
  unknown key value _ _ set reference missing _ := by
    have present := known (key, value) (Dict.get_some.mp set) reference
    rw [hasEnvironment, missing] at present
    cases present

/-- An adapter that names a variable of the host in one of its own. -/
def tokenAdapter : AdapterSpec where
  kind := .subprocess
  command := ["worker"]
  env := .upsert .empty ("TOKEN", "$\x7benv:API_TOKEN\x7d")
  inheritEnv := ["LANG"]

def tokenHost (home : String) : Environment :=
  .setEach .empty [("HOME", home), ("LANG", "C"), ("API_TOKEN", "secret")]

theorem paths_agree_token :
    tokenAdapter.kind = .subprocess ∧ tokenAdapter.PathsAgree (tokenHost "/root") := by
  have agree := paths_agree_iff tokenAdapter rfl (tokenHost "/root")
  refine ⟨rfl, agree.mpr fun _ => .of_literals ?_ ?_⟩
  · decide +kernel
  · decide +kernel

/-- A home directory spelled like a reference is followed to the secret that it names. -/
theorem paths_disagree_home :
    ¬ ∀ (spec : AdapterSpec) (host : Environment), spec.kind = .subprocess → spec.PathsAgree host := by
  intro agree
  have same := (agree tokenAdapter (tokenHost "$\x7benv:API_TOKEN\x7d") rfl).same
  have direct : ((resolveEnvironment tokenAdapter (tokenHost "$\x7benv:API_TOKEN\x7d")).toOption.bind
      fun env => env.get "HOME") = some "$\x7benv:API_TOKEN\x7d" := by decide +kernel
  have late : ((resolveMaterialized tokenAdapter (tokenHost "$\x7benv:API_TOKEN\x7d")).toOption.bind
      fun env => env.get "HOME") = some "secret" := by decide +kernel
  revert same direct late
  cases resolveEnvironment tokenAdapter (tokenHost "$\x7benv:API_TOKEN\x7d") with
  | error message => intro _ direct; cases direct
  | ok left =>
    cases resolveMaterialized tokenAdapter (tokenHost "$\x7benv:API_TOKEN\x7d") with
    | error message => intro same; exact same.elim
    | ok right =>
      intro same direct late
      have here : left.get "HOME" = right.get "HOME" := same "HOME"
      rw [show left.get "HOME" = _ from direct, show right.get "HOME" = _ from late] at here
      revert here
      decide

end Fala.Driver
