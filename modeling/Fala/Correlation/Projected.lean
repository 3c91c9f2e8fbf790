import Fala.Correlation.When
import Fala.Json.Judged

/-! What the projection of an output on a schema keeps. -/

namespace Fala.Correlation
open Json Schema

/-- The schemas that apply to a value: the whole one, and of each that applies the branches that the value satisfies. -/
inductive Applies (value : Json) : Json → Json → Prop where
  | whole (schema : Json) : Applies value schema schema
  | branch {schema option inner : Json} {keyword : String} {branches : List Json} (listed : keyword ∈ combinators)
      (found : schema.member keyword = some (.arr branches)) (among : option ∈ branches)
      (satisfied : Satisfies value option) (applies : Applies value option inner) : Applies value schema inner

/-- A schema that applies declares the property. -/
def Declares (value schema : Json) (name : String) : Prop :=
  ∃ inner, Applies value schema inner ∧ (lookup name (propertiesOf inner)).isSome = true

/-- A schema that applies requires the property. -/
def Requires (value schema : Json) (name : String) : Prop :=
  ∃ inner names, Applies value schema inner ∧ inner.member "required" = some (.arr names) ∧ Json.str name ∈ names

theorem declares_iff {value schema : Json} {name : String} :
    Declares value schema name ↔ (lookup name (propertiesOf schema)).isSome = true ∨
      ∃ keyword ∈ combinators, ∃ branches, schema.member keyword = some (.arr branches) ∧
        ∃ option ∈ branches, Satisfies value option ∧ Declares value option name := by
  constructor
  · rintro ⟨inner, applies, declared⟩
    cases applies with
    | whole => exact .inl declared
    | branch listed found among satisfied applies =>
      exact .inr ⟨_, listed, _, found, _, among, satisfied, inner, applies, declared⟩
  · rintro (declared | ⟨keyword, listed, branches, found, option, among, satisfied, inner, applies, declared⟩)
    · exact ⟨schema, .whole schema, declared⟩
    · exact ⟨inner, .branch listed found among satisfied applies, declared⟩

theorem succeeds_validateValue {value schema : Json} (declared : Declared schema) (path : String) :
    succeeds (validateValue value schema path) = true ↔ Satisfies value schema := by
  constructor
  · intro accepted
    cases ran : validateValue value schema path with
    | ok u => exact ⟨path, ran⟩
    | error message =>
      rw [ran] at accepted
      cases accepted
  · rintro ⟨other, accepted⟩
    have holds := (validateValue_ok.mp accepted).2
    have ran : validateValue value schema path = .ok () := validateValue_ok.mpr ⟨declared.validates _ _, holds⟩
    rw [ran]
    rfl

theorem isSome_setMember {name other : String} {value : Json} {members : List (String × Json)} :
    (lookup name (setMember other value members)).isSome = true ↔
      (lookup name members).isSome = true ∨ other = name := by
  induction members with
  | nil => by_cases here : other = name <;> simp [setMember, lookup, here]
  | cons head rest ih =>
    obtain ⟨key, held⟩ := head
    by_cases same : key = other
    · by_cases here : other = name <;> simp [setMember, lookup, same, here]
    · by_cases here : key = name
      · have apart : name ≠ other := here ▸ same
        simp [setMember, lookup, here, apart]
      · simp [setMember, lookup, same, here, ih]

theorem isSome_setMembers {name : String} {members added : List (String × Json)} :
    (lookup name (setMembers members added)).isSome = true ↔
      (lookup name members).isSome = true ∨ (lookup name added).isSome = true := by
  induction added generalizing members with
  | nil => simp [setMembers, lookup]
  | cons head rest ih =>
    have step : setMembers members (head :: rest) = setMembers (setMember head.1 head.2 members) rest := rfl
    rw [step, ih, isSome_setMember]
    by_cases here : head.1 = name <;> simp [lookup, here]

theorem forIn_builds {α β : Type} {l : List α} {f : α → β → Except String (ForInStep β)} {I : List α → β → Prop}
    (step : ∀ done a held, a ∈ l → I done held → ∃ next, f a held = .ok (.yield next) ∧ I (done ++ [a]) next)
    {start : β} (base : I [] start) : ∃ last, forIn l start f = .ok last ∧ I l last := by
  have onward : ∀ (rest : List α), (∀ a ∈ rest, a ∈ l) → ∀ (done : List α) (held : β), I done held →
      ∃ last, forIn rest held f = .ok last ∧ I (done ++ rest) last := by
    intro rest
    induction rest with
    | nil => exact fun _ done held kept => ⟨held, rfl, (List.append_nil done).symm ▸ kept⟩
    | cons a rest ih =>
      intro among done held kept
      obtain ⟨here, others⟩ := List.forall_mem_cons.mp among
      obtain ⟨next, ran, kept⟩ := step done a held here kept
      obtain ⟨last, ended, whole⟩ := ih others (done ++ [a]) next kept
      refine ⟨last, ?_, ?_⟩
      · rw [List.forIn_cons, ran]
        exact ended
      · rw [List.append_assoc] at whole
        exact whole
  exact onward l (fun _ listed => listed) [] start base

theorem bind_builds {β : Type} {x : Except String β} {P : β → Prop} (built : ∃ b, x = .ok b ∧ P b) :
    ∃ next, (x >>= fun b => pure (ForInStep.yield b)) = .ok (.yield next) ∧ P next := by
  obtain ⟨b, rfl, holds⟩ := built
  exact ⟨b, rfl, holds⟩

theorem bind_returns {β : Type} {x : Except String β} {P : β → Prop} (built : ∃ b, x = .ok b ∧ P b) :
    ∃ b, (x >>= fun b => pure b) = .ok b ∧ P b := by
  obtain ⟨b, rfl, holds⟩ := built
  exact ⟨b, rfl, holds⟩

theorem projectionProperties_ok {nesting : Nat} {schema : Json} (declared : Declared schema)
    (enough : schema.depth ≤ nesting) (value : Json) :
    ∃ properties, projectionProperties nesting schema value = .ok properties ∧
      ∀ name, (lookup name properties).isSome = true ↔ Declares value schema name := by
  induction nesting generalizing schema with
  | zero => cases schema <;> simp [Json.depth] at enough
  | succ nesting ih =>
    have declares (name : String) := @declares_iff value schema name
    simp only [declares]
    unfold projectionProperties
    rw [declared.isObject, ensure, if_pos rfl]
    -- The outer loop has added what the combinators so far declare, the inner one what their branches do.
    refine bind_returns (forIn_builds (I := fun done held => ∀ name, (lookup name held).isSome = true ↔
      (lookup name (propertiesOf schema)).isSome = true ∨ ∃ keyword ∈ done, ∃ branches,
        schema.member keyword = some (.arr branches) ∧
          ∃ option ∈ branches, Satisfies value option ∧ Declares value option name) ?_ (fun name => by simp))
    intro done keyword held listed kept
    cases found : schema.member keyword with
    | none =>
      refine ⟨held, rfl, fun name => ?_⟩
      rw [kept]
      simp [found]
    | some child =>
      obtain ⟨first, rest, rfl, each⟩ := declared.options listed found
      have below := depth_found found
      refine bind_builds ?_
      have whole : ∀ name, ((lookup name (propertiesOf schema)).isSome = true ∨ ∃ other ∈ done ++ [keyword], ∃ branches,
          schema.member other = some (.arr branches) ∧
            ∃ option ∈ branches, Satisfies value option ∧ Declares value option name) ↔
          (lookup name held).isSome = true ∨
            ∃ option ∈ first :: rest, Satisfies value option ∧ Declares value option name := by
        intro name
        rw [kept]
        simp [found, or_and_right, exists_or, or_assoc]
      simp only [whole]
      refine forIn_builds (I := fun done result => ∀ name, (lookup name result).isSome = true ↔
        (lookup name held).isSome = true ∨ ∃ option ∈ done, Satisfies value option ∧ Declares value option name) ?_
        (fun name => by simp)
      intro done option result among kept
      have valid := each option among
      have shallow := depth_item among
      by_cases satisfied : Satisfies value option
      · obtain ⟨added, ran, adds⟩ := ih valid (by omega)
        refine ⟨setMembers result added, ?_, fun name => ?_⟩
        · rw [if_pos ((succeeds_validateValue valid _).mpr satisfied), ran]
          rfl
        · rw [isSome_setMembers, kept, adds]
          simp [satisfied, or_and_right, exists_or, or_assoc]
      · refine ⟨result, ?_, fun name => ?_⟩
        · rw [if_neg (mt (succeeds_validateValue valid _).mp satisfied)]
          rfl
        · rw [kept]
          simp [satisfied, or_and_right, exists_or]

/-- The object with the properties only, where there are any. -/
def projectTo (properties source : List (String × Json)) : List (String × Json) :=
  if properties.isEmpty then source else properties.filterMap fun m => (lookup m.1 source).map (m.1, ·)

theorem lookup_projectTo (name : String) {properties source : List (String × Json)} (some : properties ≠ []) :
    lookup name (projectTo properties source) = if (lookup name properties).isSome then lookup name source else none := by
  rw [projectTo, if_neg (mt List.isEmpty_iff.mp some), lookup_projected]

theorem eq_nil_iff_lookup {members : List (String × Json)} :
    members = [] ↔ ∀ name, ¬ (lookup name members).isSome = true := by
  constructor
  · rintro rfl name found
    cases found
  · intro nothing
    cases members with
    | nil => rfl
    | cons head rest => exact absurd (by simp [lookup]) (nothing head.1)

theorem Applies.satisfied {value schema inner : Json} (applies : Applies value schema inner)
    (satisfied : Satisfies value schema) : Satisfies value inner := by
  induction applies with
  | whole schema => exact satisfied
  | branch listed found among here applies ih => exact ih here

theorem Requires.present {source : List (String × Json)} {schema : Json} {name : String}
    (requires : Requires (.obj source) schema name) (satisfied : Satisfies (.obj source) schema) :
    (lookup name source).isSome = true := by
  obtain ⟨inner, names, applies, found, listed⟩ := requires
  obtain ⟨path, accepted⟩ := applies.satisfied satisfied
  have holds := (validateValue_ok.mp accepted).2
  cases nesting : inner.depth with
  | zero =>
    rw [nesting] at holds
    exact holds.elim
  | succ nesting' =>
    rw [nesting] at holds
    exact holds.1.required source names rfl found name listed

/-- Projecting an object again changes nothing. -/
def Settled (schema : Json) (source : List (String × Json)) : Prop :=
  ∃ again, projectionProperties schema.depth schema (.obj source) = .ok again ∧
    ∀ name, lookup name (projectTo again source) = lookup name source

/-- It keeps every property exactly if no name that it has is left undeclared, or none is declared at all. -/
theorem settled_iff {schema : Json} (declared : Declared schema) (source : List (String × Json)) :
    Settled schema source ↔ (∀ name, ¬ Declares (.obj source) schema name) ∨
      ∀ name, (lookup name source).isSome = true → Declares (.obj source) schema name := by
  obtain ⟨again, ran, names⟩ := projectionProperties_ok declared (Nat.le_refl _) (.obj source)
  have settled : Settled schema source ↔ ∀ name, lookup name (projectTo again source) = lookup name source := by
    constructor
    · rintro ⟨other, ran', same⟩
      cases ran.symm.trans ran'
      exact same
    · exact fun same => ⟨again, ran, same⟩
  rw [settled]
  by_cases none : again = []
  · have undeclared : ∀ name, ¬ Declares (.obj source) schema name := by
      intro name declares
      exact eq_nil_iff_lookup.mp none name ((names name).mpr declares)
    exact iff_of_true (fun name => by rw [none]; rfl) (.inl undeclared)
  · have some : ¬ ∀ name, ¬ Declares (.obj source) schema name := by
      intro undeclared
      exact none (eq_nil_iff_lookup.mpr fun name found => undeclared name ((names name).mp found))
    rw [or_iff_right some]
    refine forall_congr' fun name => ?_
    rw [lookup_projectTo name none, ← names name]
    by_cases known : (lookup name again).isSome = true
    · simp [known]
    · cases held : lookup name source <;> simp [known]

/-- The schema declares `state` and requires a name. -/
def orderSchema (required : String) : Json :=
  .obj [("properties", .obj [("state", .obj [])]), ("required", .arr [.str required]), ("type", .str "object")]

end Fala.Correlation
