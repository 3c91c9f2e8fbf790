import Fala.Json.Judged

namespace Fala.Conformance
open Json Schema

section
variable {value schema : Json} {path : String} {u : Unit} {members : List (String × Json)}

theorem check_ok {condition : Bool} : check condition path = .ok u ↔ condition = true := ensure_ok

theorem checkKeys_ok : checkKeys members path = .ok u ↔ ∀ m ∈ members, supportedSchemaKeys.contains m.1 = true := by
  have perm := sortMembers_perm (members.filter fun m => ¬ supportedSchemaKeys.contains m.1)
  have known : (members.filter fun m => ¬ supportedSchemaKeys.contains m.1) = [] ↔
      ∀ m ∈ members, supportedSchemaKeys.contains m.1 = true := by
    rw [List.filter_eq_nil_iff]
    simp
  unfold checkKeys
  rw [← known]
  cases sorted : sortMembers (members.filter fun m => ¬ supportedSchemaKeys.contains m.1) with
  | nil =>
    rw [sorted] at perm
    simpa [pure, Except.pure] using perm.symm
  | cons head rest =>
    rw [sorted] at perm
    have some_ : (members.filter fun m => ¬ supportedSchemaKeys.contains m.1) ≠ [] := by
      intro nothing
      rw [nothing] at perm
      exact absurd perm.length_eq (by simp)
    constructor
    · intro raised
      cases raised
    · exact fun nothing => absurd nothing some_

theorem checkConst_ok : checkConst value schema path = .ok u ↔
    ∀ expected, schema.member "const" = some expected → equal value expected = true := by
  unfold checkConst
  cases schema.member "const" with
  | none => simp [pure, Except.pure]
  | some expected => simp [check_ok]

theorem checkEnum_ok (declared : Declared schema) : checkEnum value schema path = .ok u ↔
    ∀ options, schema.member "enum" = some (.arr options) → options.any (equal value) = true := by
  unfold checkEnum
  cases found : schema.member "enum" with
  | none => simp [pure, Except.pure]
  | some child =>
    obtain ⟨options, rfl⟩ := declared.enum found
    simp [check_ok]

theorem checkType_ok (declared : Declared schema) : checkType value schema path = .ok u ↔
    ∀ names, typeNames schema = some names → names.any (typeMatches value) = true := by
  unfold checkType
  rcases declared.names with ⟨found, names⟩ | ⟨kind, found, names⟩ | ⟨listed, found, names⟩
  · simp [found, names, pure, Except.pure]
  · simp [found, names, check_ok]
  · simp [found, names, check_ok]

theorem intOf_integer {m : Json} (integer : m.isInteger = true) : ∃ n : Int, intOf m = .ok n ∧ (n : Rat) = m.exactNumber := by
  cases m with
  | int n => exact ⟨n, rfl, rfl⟩
  | uint n => exact ⟨n, rfl, rfl⟩
  | _ => cases integer

theorem asNumber_number {m : Json} (numeric : m.isNumber = true) : asNumber m = some m.exactNumber := by
  cases m with
  | int | uint | float => rfl
  | _ => cases numeric

theorem length_lt {length : Nat} {n : Int} {q : Rat} (same : (n : Rat) = q) : n ≤ (length : Int) ↔ ¬ (length : Rat) < q := by
  subst same
  rw [Rat.not_lt]
  exact (Rat.intCast_le_intCast (a := n) (b := (length : Int))).symm

theorem lt_length {length : Nat} {n : Int} {q : Rat} (same : (n : Rat) = q) : (length : Int) ≤ n ↔ ¬ q < (length : Rat) := by
  subst same
  rw [Rat.not_lt]
  exact (Rat.intCast_le_intCast (a := (length : Int)) (b := n)).symm

theorem limited_ok {keyword : String} {admits : Int → Bool} (declared : Declared schema) (holds : Json → Prop)
    (listed : keyword ∈ ["minLength", "maxLength", "minItems", "maxItems"])
    (same : ∀ (n : Int) (m : Json), (n : Rat) = m.exactNumber → (admits n = true ↔ holds m)) :
    limited schema keyword admits path = .ok u ↔ ∀ m, schema.member keyword = some m → holds m := by
  unfold limited
  cases found : schema.member keyword with
  | none => simp [pure, Except.pure]
  | some m =>
    obtain ⟨n, read, exact_⟩ := intOf_integer (declared.limit found listed)
    simp only [read, bind_ok, Except.ok.injEq, check_ok, exists_eq_left', Option.some.injEq, forall_eq', same n m exact_]

theorem compared_ok {keyword : String} {admits : Rat → Bool} (declared : Declared schema)
    (listed : keyword = "minimum" ∨ keyword = "maximum") :
    compared schema keyword admits path = .ok u ↔
      ∀ m, schema.member keyword = some m → admits m.exactNumber = true := by
  unfold compared
  cases found : schema.member keyword with
  | none => simp [pure, Except.pure]
  | some m => simp only [asNumber_number (declared.bound found listed), check_ok, Option.some.injEq, forall_eq']

/-- The sizes that a value may have. -/
structure Sizes (value schema : Json) : Prop where
  minimum : ∀ m, value.isNumber = true → schema.member "minimum" = some m → ¬ value.exactNumber < m.exactNumber
  maximum : ∀ m, value.isNumber = true → schema.member "maximum" = some m → ¬ m.exactNumber < value.exactNumber
  minLength : ∀ text m, value = .str text → schema.member "minLength" = some m → ¬ (text.length : Rat) < m.exactNumber
  maxLength : ∀ text m, value = .str text → schema.member "maxLength" = some m → ¬ m.exactNumber < (text.length : Rat)
  minItems : ∀ items m, value = .arr items → schema.member "minItems" = some m → ¬ (items.length : Rat) < m.exactNumber
  maxItems : ∀ items m, value = .arr items → schema.member "maxItems" = some m → ¬ m.exactNumber < (items.length : Rat)

theorem sizes_number (numeric : value.isNumber = true) : Sizes value schema ↔
    (∀ m, schema.member "minimum" = some m → ¬ value.exactNumber < m.exactNumber) ∧
      ∀ m, schema.member "maximum" = some m → ¬ m.exactNumber < value.exactNumber := by
  constructor
  · exact fun sizes => ⟨fun m => sizes.minimum m numeric, fun m => sizes.maximum m numeric⟩
  · rintro ⟨minimum, maximum⟩
    refine ⟨fun m _ => minimum m, fun m _ => maximum m, ?_, ?_, ?_, ?_⟩
    all_goals
      rintro held m rfl
      cases numeric

theorem sizes_text {text : String} : Sizes (.str text) schema ↔
    (∀ m, schema.member "minLength" = some m → ¬ (text.length : Rat) < m.exactNumber) ∧
      ∀ m, schema.member "maxLength" = some m → ¬ m.exactNumber < (text.length : Rat) := by
  constructor
  · exact fun sizes => ⟨fun m => sizes.minLength text m rfl, fun m => sizes.maxLength text m rfl⟩
  · rintro ⟨least, most⟩
    refine ⟨?_, ?_, ?_, ?_, ?_, ?_⟩
    · rintro m ⟨⟩
    · rintro m ⟨⟩
    · rintro _ m ⟨⟩
      exact least m
    · rintro _ m ⟨⟩
      exact most m
    · rintro _ m ⟨⟩
    · rintro _ m ⟨⟩

theorem sizes_list {items : List Json} : Sizes (.arr items) schema ↔
    (∀ m, schema.member "minItems" = some m → ¬ (items.length : Rat) < m.exactNumber) ∧
      ∀ m, schema.member "maxItems" = some m → ¬ m.exactNumber < (items.length : Rat) := by
  constructor
  · exact fun sizes => ⟨fun m => sizes.minItems items m rfl, fun m => sizes.maxItems items m rfl⟩
  · rintro ⟨least, most⟩
    refine ⟨?_, ?_, ?_, ?_, ?_, ?_⟩
    · rintro m ⟨⟩
    · rintro m ⟨⟩
    · rintro _ m ⟨⟩
    · rintro _ m ⟨⟩
    · rintro _ m ⟨⟩
      exact least m
    · rintro _ m ⟨⟩
      exact most m

theorem sizes_other (number : value.isNumber = false) (text : ∀ held, value ≠ .str held)
    (list : ∀ held, value ≠ .arr held) : Sizes value schema where
  minimum m numeric := by rw [number] at numeric; cases numeric
  maximum m numeric := by rw [number] at numeric; cases numeric
  minLength held m is := absurd is (text held)
  maxLength held m is := absurd is (text held)
  minItems held m is := absurd is (list held)
  maxItems held m is := absurd is (list held)

theorem checkLimits_ok (declared : Declared schema) :
    checkLimits value schema path = .ok u ↔ Sizes value schema := by
  have compared_both (numeric : value.isNumber = true) : (do
      compared schema "minimum" (fun q => q ≤ value.exactNumber) path
      compared schema "maximum" (fun q => value.exactNumber ≤ q) path) = .ok u ↔ Sizes value schema := by
    rw [bind_ok, sizes_number numeric]
    simp only [compared_ok declared (.inl rfl), compared_ok declared (.inr rfl), exists_const, decide_eq_true_eq,
      Rat.not_lt]
  cases value with
  | int | uint | float => exact compared_both rfl
  | str text =>
    rw [sizes_text, checkLimits, bind_ok]
    refine Iff.trans (exists_congr fun _ => and_congr
      (limited_ok declared (fun m => ¬ (text.length : Rat) < m.exactNumber) (by simp) fun n m same => ?_)
      (limited_ok declared (fun m => ¬ m.exactNumber < (text.length : Rat)) (by simp) fun n m same => ?_)) (exists_const _)
    · rw [decide_eq_true_eq, length_lt same]
    · rw [decide_eq_true_eq, lt_length same]
  | arr items =>
    rw [sizes_list, checkLimits, bind_ok]
    refine Iff.trans (exists_congr fun _ => and_congr
      (limited_ok declared (fun m => ¬ (items.length : Rat) < m.exactNumber) (by simp) fun n m same => ?_)
      (limited_ok declared (fun m => ¬ m.exactNumber < (items.length : Rat)) (by simp) fun n m same => ?_)) (exists_const _)
    · rw [decide_eq_true_eq, length_lt same]
    · rw [decide_eq_true_eq, lt_length same]
  | _ => exact ⟨fun _ => sizes_other rfl (fun _ => nofun) fun _ => nofun, fun _ => rfl⟩

theorem requireKeys_ok {names : List Json} (texts : ∀ name ∈ names, ∃ text, name = .str text) :
    requireKeys members path names = .ok u ↔ ∀ key, .str key ∈ names → (lookup key members).isSome = true := by
  induction names with
  | nil => simp [requireKeys, pure, Except.pure]
  | cons head rest ih =>
    rw [List.forall_mem_cons] at texts
    obtain ⟨⟨name, rfl⟩, others⟩ := texts
    simp only [requireKeys, bind_ok, check_ok, exists_const, ih others, List.mem_cons, Json.str.injEq]
    constructor
    · rintro ⟨here, later⟩ key (rfl | listed)
      · exact here
      · exact later key listed
    · exact fun each => ⟨each name (.inl rfl), fun key listed => each key (.inr listed)⟩

theorem refuseAdditional_ok {properties : List (String × Json)} :
    refuseAdditional properties path members = .ok u ↔ ∀ m ∈ members, (lookup m.1 properties).isSome = true := by
  induction members with
  | nil => simp [refuseAdditional, pure, Except.pure]
  | cons head rest ih => simp only [refuseAdditional, bind_ok, check_ok, exists_const, ih, List.forall_mem_cons]

theorem checkRequired_ok (declared : Declared schema) : checkRequired members schema path = .ok u ↔
    ∀ names, schema.member "required" = some (.arr names) →
      ∀ key, .str key ∈ names → (lookup key members).isSome = true := by
  unfold checkRequired
  cases found : schema.member "required" with
  | none => simp [pure, Except.pure]
  | some child =>
    obtain ⟨names, rfl, texts⟩ := declared.required found
    simp only [requireKeys_ok texts, Option.some.injEq, Json.arr.injEq, forall_eq']

theorem checkAdditional_ok : checkAdditional members schema path = .ok u ↔
    (schema.member "additionalProperties" = some (.bool false) → conformance.closes schema →
      ∀ m ∈ members, (lookup m.1 (propertiesOf schema)).isSome = true) := by
  unfold checkAdditional
  split
  · rename_i properties closed found
    rw [refuseAdditional_ok]
    have held : propertiesOf schema = properties := by
      rw [propertiesOf, found]
    rw [held, closed]
    exact ⟨fun each _ _ => each, fun each => each rfl ⟨properties, found⟩⟩
  · rename_i other
    refine ⟨fun _ closed closes => ?_, fun _ => rfl⟩
    obtain ⟨properties, found⟩ := closes
    exact absurd found (other properties closed)

theorem checkItems_ok {payload : Json → Json → String → Except String Unit} {item : Json}
    {accepts : Json → Json → Prop} {items : List Json} {index : Nat}
    (same : ∀ value ∈ items, ∀ path, payload value item path = .ok () ↔ accepts value item) :
    checkItems payload item path items index = .ok u ↔ ∀ value ∈ items, accepts value item := by
  induction items generalizing index with
  | nil => simp [checkItems, pure, Except.pure]
  | cons head rest ih =>
    rw [List.forall_mem_cons] at same
    simp only [checkItems, bind_ok, same.1, exists_const, ih same.2, List.forall_mem_cons]

theorem checkProperties_ok {payload : Json → Json → String → Except String Unit} {accepts : Json → Json → Prop}
    {properties : List (String × Json)} (objects : ∀ p ∈ properties, ∃ held, p.2 = .obj held)
    (same : ∀ p ∈ properties, ∀ value path, payload value p.2 path = .ok () ↔ accepts value p.2) :
    checkProperties payload members path properties = .ok u ↔
      ∀ p ∈ properties, ∀ held, lookup p.1 members = some held → accepts held p.2 := by
  induction properties with
  | nil => simp [checkProperties, pure, Except.pure]
  | cons head rest ih =>
    obtain ⟨key, child⟩ := head
    rw [List.forall_mem_cons] at objects same
    obtain ⟨⟨held, rfl⟩, others⟩ := objects
    rw [List.forall_mem_cons, ← ih others same.2]
    cases found : lookup key members with
    | none => simp only [checkProperties, found, reduceCtorEq, false_implies, implies_true, true_and]
    | some value =>
      simp only [checkProperties, found, bind_ok, same.1, exists_const, Option.some.injEq, forall_eq']

theorem checkCombinator_ok {payload : Json → Json → String → Except String Unit} {accepts : Json → Json → Prop}
    {keyword : String} (declared : Declared schema) (listed : keyword ∈ combinators)
    (same : ∀ options, schema.member keyword = some (.arr options) → ∀ option ∈ options,
      payload value option path = .ok () ↔ accepts value option) :
    checkCombinator payload value schema path keyword = .ok u ↔
      ∀ options, schema.member keyword = some (.arr options) →
        combinatorHolds keyword (acceptedBy accepts options value) options.length = true := by
  unfold checkCombinator
  cases found : schema.member keyword with
  | none => simp [pure, Except.pure]
  | some child =>
    obtain ⟨first, rest, rfl, each⟩ := declared.options listed found
    have objects : (first :: rest).all isObject = true :=
      List.all_eq_true.mpr fun option member => (each option member).isObject
    simp only [bind_ok, check_ok, objects, countP_succeeds (same _ found), exists_const, true_and, Option.some.injEq, Json.arr.injEq, forall_eq']

/-- The keywords and schemas in a schema that is no surprise to `check_payload`. -/
theorem declaresKeywords_mem (declares_ : declaresKeywords members = true) :
    ∀ m ∈ members, supportedSchemaKeys.contains m.1 = true ∧
      (m.1 = "properties" → ∀ properties, m.2 = .obj properties → declaresProperties properties = true) ∧
      (m.1 = "items" → ∀ held, m.2 = .obj held → declaresKeywords held = true) ∧
      (m.1 ∈ combinators → ∀ first rest, m.2 = .arr (first :: rest) →
        declares first = true ∧ declaresBranches rest = true) := by
  induction members with
  | nil => exact fun _ member => (nomatch member)
  | cons head rest ih =>
    obtain ⟨key, child⟩ := head
    rw [declaresKeywords.eq_def] at declares_
    simp only [Bool.and_eq_true] at declares_
    obtain ⟨⟨known, here⟩, others⟩ := declares_
    rw [List.forall_mem_cons]
    refine ⟨⟨known, ?_, ?_, ?_⟩, ih others⟩
    · rintro rfl properties rfl
      exact here
    · rintro rfl held rfl
      exact here
    · intro listed first branches is
      have is : child = .arr (first :: branches) := is
      subst is
      simp only [combinators, List.mem_cons, List.not_mem_nil, or_false] at listed
      rcases listed with rfl | rfl | rfl
      all_goals exact (Bool.and_eq_true _ _).mp here

theorem declaresProperties_mem {properties : List (String × Json)} (declares_ : declaresProperties properties = true) :
    ∀ p ∈ properties, ∀ held, p.2 = .obj held → declaresKeywords held = true := by
  induction properties with
  | nil => exact fun _ member => (nomatch member)
  | cons head rest ih =>
    obtain ⟨key, child⟩ := head
    rw [declaresProperties.eq_def] at declares_
    simp only [Bool.and_eq_true] at declares_
    obtain ⟨here, others⟩ := declares_
    rw [List.forall_mem_cons]
    refine ⟨?_, ih others⟩
    rintro held rfl
    exact here

theorem declaresBranches_mem {options : List Json} (declares_ : declaresBranches options = true) :
    ∀ option ∈ options, declares option = true := by
  induction options with
  | nil => exact fun _ member => (nomatch member)
  | cons head rest ih =>
    rw [declaresBranches, Bool.and_eq_true] at declares_
    rw [List.forall_mem_cons]
    exact ⟨declares_.1, ih declares_.2⟩

/-- A schema that both sides accept as a declaration. -/
structure Shared (schema : Json) : Prop where
  declared : Declared schema
  known : declares schema = true

theorem Shared.keyword (shared : Shared (.obj members)) {key : String} {child : Json}
    (found : lookup key members = some child) :
    (key = "properties" → ∀ properties, child = .obj properties → declaresProperties properties = true) ∧
      (key = "items" → ∀ held, child = .obj held → declaresKeywords held = true) ∧
      (key ∈ combinators → ∀ first rest, child = .arr (first :: rest) →
        declares first = true ∧ declaresBranches rest = true) :=
  (declaresKeywords_mem shared.known _ (lookup_mem found)).2

theorem Shared.properties (shared : Shared (.obj members)) : ∀ p ∈ propertiesOf (.obj members), Shared p.2 := by
  intro p listed
  have declared := shared.declared.properties p listed
  obtain ⟨held, is, -⟩ := declared.fields
  unfold propertiesOf at listed
  split at listed
  · rename_i properties found
    have each := (shared.keyword found).1 rfl properties rfl
    refine ⟨declared, ?_⟩
    rw [is]
    exact declaresProperties_mem each p listed held is
  · cases listed

theorem Shared.item (shared : Shared (.obj members)) {child : Json} (found : lookup "items" members = some child) :
    Shared child := by
  have declared := shared.declared.item found
  obtain ⟨held, rfl, -⟩ := declared.fields
  exact ⟨declared, (shared.keyword found).2.1 rfl held rfl⟩

theorem Shared.option (shared : Shared (.obj members)) {keyword : String} {options : List Json}
    (listed : keyword ∈ combinators) (found : lookup keyword members = some (.arr options)) :
    ∀ option ∈ options, Shared option := by
  obtain ⟨first, rest, is, each⟩ := shared.declared.options listed found
  cases is
  have both := (shared.keyword found).2.2 listed first rest rfl
  intro option member
  refine ⟨each option member, ?_⟩
  rcases List.mem_cons.mp member with rfl | member
  · exact both.1
  · exact declaresBranches_mem both.2 option member

theorem checkNested_ok {payload : Json → Json → String → Except String Unit} {accepts : Json → Json → Prop}
    (shared : Shared (.obj members))
    (same : ∀ value schema path, Shared schema → (payload value schema path = .ok () ↔ accepts value schema)) :
    checkNested payload value (.obj members) path = .ok u ↔
      (∀ held names, value = .obj held → lookup "required" members = some (.arr names) →
        ∀ key, .str key ∈ names → (lookup key held).isSome = true) ∧
      (∀ held, value = .obj held → lookup "additionalProperties" members = some (.bool false) →
        conformance.closes (.obj members) → ∀ m ∈ held, (lookup m.1 (propertiesOf (.obj members))).isSome = true) ∧
      (∀ items inner, value = .arr items → lookup "items" members = some inner → ∀ item ∈ items, accepts item inner) ∧
      ∀ held, value = .obj held → ∀ p ∈ propertiesOf (.obj members), ∀ inner, lookup p.1 held = some inner →
        accepts inner p.2 := by
  cases value with
  | arr items =>
    have inner : checkNested payload (.arr items) (.obj members) path = .ok u ↔
        ∀ inner, lookup "items" members = some inner → ∀ item ∈ items, accepts item inner := by
      cases found : lookup "items" members with
      | none => simp [checkNested, Json.member, found, pure, Except.pure]
      | some child =>
        have inside := shared.item found
        obtain ⟨held, rfl, -⟩ := inside.declared.fields
        simp only [checkNested, Json.member, found, checkItems_ok fun item _ path => same item _ path inside,
          Option.some.injEq, forall_eq']
    rw [inner]
    constructor
    · intro each
      refine ⟨?_, ?_, ?_, ?_⟩
      · rintro held names ⟨⟩
      · rintro held ⟨⟩
      · rintro _ inner ⟨⟩ found
        exact each inner found
      · rintro held ⟨⟩
    · exact fun all inner found => all.2.2.1 items inner rfl found
  | obj held =>
    have objects : ∀ p ∈ propertiesOf (.obj members), ∃ inner, p.2 = .obj inner := by
      intro p listed
      obtain ⟨inner, is, -⟩ := (shared.properties p listed).declared.fields
      exact ⟨inner, is⟩
    simp only [checkNested, bind_ok, checkRequired_ok shared.declared, checkAdditional_ok, exists_const,
      checkProperties_ok objects fun p listed value path => same value p.2 path (shared.properties p listed)]
    constructor
    · rintro ⟨required, properties, additional⟩
      refine ⟨?_, ?_, ?_, ?_⟩
      · rintro _ names ⟨⟩
        exact required names
      · rintro _ ⟨⟩
        exact additional
      · rintro items inner ⟨⟩
      · rintro _ ⟨⟩
        exact properties
    · rintro ⟨required, additional, -, properties⟩
      exact ⟨fun names => required held names rfl, properties held rfl, additional held rfl⟩
  | _ =>
    refine ⟨fun _ => ⟨?_, ?_, ?_, ?_⟩, fun _ => rfl⟩
    · rintro held names ⟨⟩
    · rintro held ⟨⟩
    · rintro items inner ⟨⟩
    · rintro held ⟨⟩

/-- The judgement that `check_payload` passes. -/
theorem checkPayload_ok (nesting : Nat) (shared : Shared schema) :
    checkPayload nesting value schema path = .ok u ↔ conformance.Accepts nesting value schema := by
  induction nesting generalizing value schema path u with
  | zero => simp [checkPayload, check_ok, Judge.Accepts]
  | succ nesting ih =>
    obtain ⟨members, rfl, -⟩ := shared.declared.fields
    have keys : ∀ m ∈ members, supportedSchemaKeys.contains m.1 = true :=
      fun m member => (declaresKeywords_mem shared.known m member).1
    have option (keyword : String) (listed : keyword ∈ combinators) (u : Unit) :
        checkCombinator (checkPayload nesting) value (.obj members) path keyword = .ok u ↔
          ∀ options, lookup keyword members = some (.arr options) →
            combinatorHolds keyword (acceptedBy (conformance.Accepts nesting) options value) options.length = true :=
      checkCombinator_ok shared.declared listed
        fun options found option member => ih (shared.option listed found option member)
    have inner (value schema : Json) (path : String) (inside : Shared schema) :
        checkPayload nesting value schema path = .ok () ↔ conformance.Accepts nesting value schema := ih inside
    have nested : ∀ u, checkNested (checkPayload nesting) value (.obj members) path = .ok u ↔ _ :=
      fun _ => checkNested_ok shared inner
    simp only [checkPayload, bind_ok, checkKeys_ok, checkConst_ok, checkEnum_ok shared.declared,
      checkType_ok shared.declared, checkLimits_ok shared.declared, exists_const,
      nested, option "oneOf" (by decide), option "anyOf" (by decide),
      option "allOf" (by decide)]
    constructor
    · rintro ⟨-, const, enum, types, sizes, ⟨required, additional, items, properties⟩, one, any, all⟩
      refine ⟨⟨const, enum, types, sizes.minimum, sizes.maximum, sizes.minLength, sizes.maxLength, sizes.minItems,
        sizes.maxItems, required, additional⟩, ?_, items, properties⟩
      intro keyword listed
      simp only [combinators, List.mem_cons, List.not_mem_nil, or_false] at listed
      rcases listed with rfl | rfl | rfl
      · exact one
      · exact any
      · exact all
    · rintro ⟨level, branches, items, properties⟩
      exact ⟨keys, level.const, level.enum, level.types,
        ⟨level.minimum, level.maximum, level.minLength, level.maxLength, level.minItems, level.maxItems⟩,
        ⟨level.required, level.additional, items, properties⟩, branches "oneOf" (by decide), branches "anyOf" (by decide),
        branches "allOf" (by decide)⟩

end

end Fala.Conformance
