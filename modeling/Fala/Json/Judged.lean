import Fala.Json.Declared

/-! The journal's evaluator and the local one, each as a judge. -/

namespace Fala.Schema
open Json

section
variable {value schema : Json} {path : String} {u : Unit}

/-- The size checks of a number. -/
def scalarNumber (value schema : Json) (path : String) : Except String Unit :=
  if value.isNumber then do
    bound schema "minimum" (fun m => ¬ (m.isNumber ∧ number value < number m))
      ("output is below schema minimum at " ++ path)
    bound schema "maximum" (fun m => ¬ (m.isNumber ∧ number m < number value))
      ("output exceeds schema maximum at " ++ path)
  else return ()

def scalarText (value schema : Json) (path : String) : Except String Unit :=
  match value with
  | .str text => do
    bound schema "minLength" (fun m => ¬ (m.isInteger ∧ (text.length : Int) < truncate (number m)))
      ("output is shorter than schema minLength at " ++ path)
    bound schema "maxLength" (fun m => ¬ (m.isInteger ∧ truncate (number m) < (text.length : Int)))
      ("output exceeds schema maxLength at " ++ path)
  | _ => return ()

def scalarCount (value schema : Json) (path : String) : Except String Unit :=
  match value with
  | .arr items => do
    bound schema "minItems" (fun m => ¬ (float64OfInt items.length < number m))
      ("output has fewer items than schema minItems at " ++ path)
    bound schema "maxItems" (fun m => ¬ (number m < float64OfInt items.length))
      ("output has more items than schema maxItems at " ++ path)
  | _ => return ()

def scalarConst (value schema : Json) (path : String) : Except String Unit :=
  match schema.member "const" with
  | some expected => ensure (valuesEqual value expected) ("output does not match schema const at " ++ path)
  | none => return ()

def scalarEnum (value schema : Json) (path : String) : Except String Unit :=
  match schema.member "enum" with
  | some (.arr candidates) =>
    ensure (candidates.any (valuesEqual value)) ("output does not match schema enum at " ++ path)
  | _ => return ()

theorem validateScalar_eq : validateScalar value schema path = (do
    scalarConst value schema path
    scalarEnum value schema path
    ensure (typeMatches value schema) ("output does not match schema type at " ++ path)
    scalarNumber value schema path
    scalarText value schema path
    scalarCount value schema path) := by
  unfold validateScalar scalarConst scalarEnum scalarNumber
  cases schema.member "const" with
  | none =>
    cases schema.member "enum" with
    | none => cases value <;> simp [isNumber, scalarText, scalarCount]
    | some options => cases options <;> cases value <;> simp [isNumber, scalarText, scalarCount]
  | some expected =>
    cases schema.member "enum" with
    | none => cases value <;> simp [isNumber, scalarText, scalarCount]
    | some options => cases options <;> cases value <;> simp [isNumber, scalarText, scalarCount]

theorem bound_ok {keyword message : String} {admits : Json → Bool} :
    bound schema keyword admits message = .ok u ↔ ∀ m, schema.member keyword = some m → admits m = true := by
  unfold bound
  cases schema.member keyword with
  | none => simp [pure, Except.pure]
  | some limit => simp [ensure_ok]

theorem scalarNumber_ok (declared : Declared schema) : scalarNumber value schema path = .ok u ↔
    (∀ m, value.isNumber = true → schema.member "minimum" = some m → ¬ number value < number m) ∧
      ∀ m, value.isNumber = true → schema.member "maximum" = some m → ¬ number m < number value := by
  unfold scalarNumber
  by_cases numeric : value.isNumber = true
  · have least (m : Json) (found : schema.member "minimum" = some m) := declared.bound found (.inl rfl)
    have most (m : Json) (found : schema.member "maximum" = some m) := declared.bound found (.inr rfl)
    simp only [numeric, if_true, bind_ok, bound_ok, decide_eq_true_eq, exists_const, not_and, forall_const]
    exact and_congr (forall_congr' fun m => imp_congr_right fun found => ⟨fun h => h (least m found), fun h _ => h⟩)
      (forall_congr' fun m => imp_congr_right fun found => ⟨fun h => h (most m found), fun h _ => h⟩)
  · simp [numeric, pure, Except.pure]

theorem scalarText_ok (declared : Declared schema) : scalarText value schema path = .ok u ↔
    (∀ text m, value = .str text → schema.member "minLength" = some m →
      ¬ (text.length : Int) < truncate (number m)) ∧
      ∀ text m, value = .str text → schema.member "maxLength" = some m →
        ¬ truncate (number m) < (text.length : Int) := by
  cases value with
  | str text =>
    have least (m : Json) (found : schema.member "minLength" = some m) := declared.limit found (by simp)
    have most (m : Json) (found : schema.member "maxLength" = some m) := declared.limit found (by simp)
    simp only [scalarText, bind_ok, bound_ok, decide_eq_true_eq, exists_const, not_and]
    constructor
    · rintro ⟨min, max⟩
      refine ⟨?_, ?_⟩
      · rintro _ m ⟨⟩ found
        exact min m found (least m found)
      · rintro _ m ⟨⟩ found
        exact max m found (most m found)
    · exact fun both => ⟨fun m found _ => both.1 text m rfl found, fun m found _ => both.2 text m rfl found⟩
  | _ => simp [scalarText, pure, Except.pure]

theorem scalarCount_ok : scalarCount value schema path = .ok u ↔
    (∀ items m, value = .arr items → schema.member "minItems" = some m → ¬ float64OfInt items.length < number m) ∧
      ∀ items m, value = .arr items → schema.member "maxItems" = some m → ¬ number m < float64OfInt items.length := by
  cases value with
  | arr items =>
    simp only [scalarCount, bind_ok, bound_ok, decide_eq_true_eq, exists_const]
    constructor
    · rintro ⟨min, max⟩
      refine ⟨?_, ?_⟩
      · rintro _ m ⟨⟩ found
        exact min m found
      · rintro _ m ⟨⟩ found
        exact max m found
    · exact fun both => ⟨fun m found => both.1 items m rfl found, fun m found => both.2 items m rfl found⟩
  | _ => simp [scalarCount, pure, Except.pure]

theorem scalarConst_ok : scalarConst value schema path = .ok u ↔
    ∀ expected, schema.member "const" = some expected → valuesEqual value expected = true := by
  unfold scalarConst
  cases schema.member "const" with
  | none => simp [pure, Except.pure]
  | some expected => simp [ensure_ok]

theorem scalarEnum_ok : scalarEnum value schema path = .ok u ↔
    ∀ options, schema.member "enum" = some (.arr options) → options.any (valuesEqual value) = true := by
  unfold scalarEnum
  cases schema.member "enum" with
  | none => simp [pure, Except.pure]
  | some options => cases options <;> simp [pure, Except.pure, ensure_ok]

theorem Declared.names (declared : Declared schema) :
    (schema.member "type" = none ∧ typeNames schema = none) ∨
      (∃ kind, schema.member "type" = some (.str kind) ∧ typeNames schema = some [kind]) ∨
      ∃ names : List String, schema.member "type" = some (.arr (names.map .str)) ∧ typeNames schema = some names := by
  unfold typeNames
  cases found : schema.member "type" with
  | none => exact .inl ⟨rfl, rfl⟩
  | some child =>
    rcases declared.type found with ⟨kind, rfl⟩ | ⟨kinds, rfl, texts⟩
    · exact .inr (.inl ⟨kind, rfl, rfl⟩)
    · have spelled : ∃ names : List String, kinds = names.map .str := by
        clear found
        induction kinds with
        | nil => exact ⟨[], rfl⟩
        | cons head rest ih =>
          rw [List.forall_mem_cons] at texts
          obtain ⟨⟨text, rfl⟩, others⟩ := texts
          obtain ⟨names, rfl⟩ := ih others
          exact ⟨text :: names, rfl⟩
      obtain ⟨names, rfl⟩ := spelled
      refine .inr (.inr ⟨names, rfl, ?_⟩)
      simp [List.filterMap_map, Function.comp_def, textOf]

theorem typeMatches_iff (declared : Declared schema) : typeMatches value schema = true ↔
    ∀ names, typeNames schema = some names → names.any (kindMatches value) = true := by
  unfold typeMatches
  rcases declared.names with ⟨found, names⟩ | ⟨kind, found, names⟩ | ⟨listed, found, names⟩
  · simp [found, names]
  · simp [found, names]
  · simp [found, names]

theorem requireFields_ok {members : List (String × Json)} {names : List Json} :
    requireFields members path names = .ok u ↔ ∀ key, .str key ∈ names → (lookup key members).isSome = true := by
  induction names with
  | nil => simp [requireFields, pure, Except.pure]
  | cons head rest ih =>
    cases head with
    | str name =>
      simp only [requireFields, bind_ok, ensure_ok, exists_const, ih, List.mem_cons, Json.str.injEq]
      constructor
      · rintro ⟨here, others⟩ key (rfl | listed)
        · exact here
        · exact others key listed
      · exact fun each => ⟨each name (.inl rfl), fun key listed => each key (.inr listed)⟩
    | _ => simp only [requireFields, ih, List.mem_cons, reduceCtorEq, false_or]

theorem refuseAdditional_ok {properties members : List (String × Json)} :
    refuseAdditional properties path members = .ok u ↔ ∀ m ∈ members, (lookup m.1 properties).isSome = true := by
  induction members with
  | nil => simp [refuseAdditional, pure, Except.pure]
  | cons head rest ih =>
    simp only [refuseAdditional, bind_ok, ensure_ok, exists_const, ih, List.forall_mem_cons]

theorem forIn_ok {α : Type} {l : List α} {f : α → Unit → Except String (ForInStep Unit)} {P : α → Prop}
    (body : ∀ a ∈ l, ∀ step, f a () = .ok step ↔ P a ∧ step = .yield ()) :
    forIn l () f = .ok u ↔ ∀ a ∈ l, P a := by
  induction l with
  | nil => simp [pure, Except.pure]
  | cons head rest ih =>
    rw [List.forall_mem_cons] at body
    rw [List.forIn_cons, List.forall_mem_cons, ← ih body.2, bind_ok]
    constructor
    · rintro ⟨step, first, others⟩
      obtain ⟨held, rfl⟩ := (body.1 step).mp first
      exact ⟨held, others⟩
    · exact fun ⟨held, others⟩ => ⟨_, (body.1 _).mpr ⟨held, rfl⟩, others⟩

theorem yield_ok {check : Except String Unit} {step : ForInStep Unit} :
    (check >>= fun _ => pure (ForInStep.yield ())) = .ok step ↔ check = .ok () ∧ step = .yield () := by
  cases check <;> simp [bind, Except.bind, pure, Except.pure, eq_comm]

/-- What a schema says about the members and the items of a value. -/
structure Inside (accepts : Json → Json → Prop) (value schema : Json) : Prop where
  required : ∀ members names, value = .obj members → schema.member "required" = some (.arr names) →
    ∀ key, .str key ∈ names → (lookup key members).isSome = true
  additional : ∀ members, value = .obj members → schema.member "additionalProperties" = some (.bool false) →
    ∀ m ∈ members, (lookup m.1 (propertiesOf schema)).isSome = true
  items : ∀ items inner, value = .arr items → schema.member "items" = some inner → ∀ item ∈ items, accepts item inner
  properties : ∀ members, value = .obj members → ∀ p ∈ propertiesOf schema, ∀ held, lookup p.1 members = some held →
    accepts held p.2

open Classical in
theorem countP_succeeds {run : Json → Except String Unit} {options : List Json} {accepts : Json → Json → Prop}
    (same : ∀ option ∈ options, run option = .ok () ↔ accepts value option) :
    options.countP (fun option => succeeds (run option)) = acceptedBy accepts options value := by
  refine List.countP_congr fun option member => ?_
  rw [decide_eq_true_eq, ← same option member]
  cases run option <;> simp [succeeds]

/-- The part of the journal's evaluator that is about one object or list. -/
def insidePart (nesting : Nat) (value schema : Json) (path : String) : Except String Unit :=
  match value with
  | .arr items => do
    match schema.member "items" with
    | some itemSchema =>
      for (item, index) in items.zipIdx do
        validatePayload nesting item itemSchema (path ++ "/" ++ toString index)
    | none => pure ()
  | .obj members => do
    if let some (.arr required) := schema.member "required" then
      requireFields members path required
    if let some (.bool false) := schema.member "additionalProperties" then
      refuseAdditional (propertiesOf schema) path members
    for (key, property) in propertiesOf schema do
      match lookup key members with
      | some held => validatePayload nesting held property (path ++ "/" ++ key)
      | none => pure ()
  | _ => pure ()

/-- The members of a value under the properties of a schema. -/
def eachProperty (nesting : Nat) (members : List (String × Json)) (schema : Json) (path : String) :
    Except String Unit := do
  for (key, property) in propertiesOf schema do
    match lookup key members with
    | some held => validatePayload nesting held property (path ++ "/" ++ key)
    | none => pure ()

theorem insidePart_arr {nesting : Nat} {items : List Json} {accepts : Json → Json → Prop}
    (same : ∀ inner, schema.member "items" = some inner → ∀ item ∈ items, ∀ path,
      validatePayload nesting item inner path = .ok () ↔ accepts item inner) :
    insidePart nesting (.arr items) schema path = .ok u ↔ Inside accepts (.arr items) schema := by
  have reduced : Inside accepts (.arr items) schema ↔
      ∀ inner, schema.member "items" = some inner → ∀ item ∈ items, accepts item inner := by
    constructor
    · exact fun inside inner found item member => inside.items items inner rfl found item member
    · intro each
      refine ⟨?_, ?_, ?_, ?_⟩
      · rintro members names ⟨⟩
      · rintro members ⟨⟩
      · rintro _ inner ⟨⟩ found
        exact each inner found
      · rintro members ⟨⟩
  rw [reduced]
  unfold insidePart
  cases found : schema.member "items" with
  | none => simp [pure, Except.pure]
  | some inner =>
    simp only [Option.some.injEq, forall_eq']
    rw [bind_ok]
    refine Iff.trans (exists_congr fun _ => and_congr_left' (forIn_ok (P := fun x => accepts x.1 inner) ?_)) ?_
    rotate_left
    · simp only [pure, Except.pure, exists_const, and_true]
      constructor
      · intro each item member
        obtain ⟨i, lt, rfl⟩ := List.mem_iff_getElem.mp member
        exact each (items[i], i) (List.mk_mem_zipIdx_iff_getElem?.mpr (List.getElem?_eq_getElem lt))
      · exact fun each x member => each x.1 (List.fst_mem_of_mem_zipIdx member)
    · intro x member step
      rw [yield_ok, same inner found x.1 (List.fst_mem_of_mem_zipIdx member)]

theorem eachProperty_ok {nesting : Nat} {members : List (String × Json)} {accepts : Json → Json → Prop}
    (same : ∀ p ∈ propertiesOf schema, ∀ held path, lookup p.1 members = some held →
      (validatePayload nesting held p.2 path = .ok () ↔ accepts held p.2)) :
    eachProperty nesting members schema path = .ok u ↔
      ∀ p ∈ propertiesOf schema, ∀ held, lookup p.1 members = some held → accepts held p.2 := by
  unfold eachProperty
  rw [bind_ok]
  refine Iff.trans (exists_congr fun _ => and_congr_left' (forIn_ok
    (P := fun p => ∀ held, lookup p.1 members = some held → accepts held p.2) ?_)) ?_
  rotate_left
  · simp [pure, Except.pure]
  · rintro ⟨key, property⟩ member step
    dsimp only
    cases found : lookup key members with
    | none =>
      simp only [pure, Except.pure, Except.ok.injEq, reduceCtorEq, false_implies, implies_true, true_and]
      exact eq_comm
    | some held =>
      rw [yield_ok, same (key, property) member held _ found]
      simp only [Option.some.injEq, forall_eq']

theorem insidePart_obj {nesting : Nat} {members : List (String × Json)} (declared : Declared schema) :
    insidePart nesting (.obj members) schema path = .ok u ↔
      (∀ names, schema.member "required" = some (.arr names) →
        ∀ key, .str key ∈ names → (lookup key members).isSome = true) ∧
      (schema.member "additionalProperties" = some (.bool false) →
        ∀ m ∈ members, (lookup m.1 (propertiesOf schema)).isSome = true) ∧
      eachProperty nesting members schema path = .ok () := by
  have additional (rest : Except String Unit) :
      (match schema.member "additionalProperties" with
        | some (.bool false) => do refuseAdditional (propertiesOf schema) path members; rest
        | _ => rest) = .ok u ↔
      (schema.member "additionalProperties" = some (.bool false) →
        ∀ m ∈ members, (lookup m.1 (propertiesOf schema)).isSome = true) ∧ rest = .ok () := by
    split
    · rename_i found
      rw [bind_ok, found]
      simp only [refuseAdditional_ok, exists_const, forall_const]
    · rename_i other
      simp only [show ¬ schema.member "additionalProperties" = some (.bool false) from other, false_implies, true_and]
  have rest : insidePart nesting (.obj members) schema path = (match schema.member "required" with
      | some (.arr required) => do
        requireFields members path required
        match schema.member "additionalProperties" with
        | some (.bool false) => do
          refuseAdditional (propertiesOf schema) path members; eachProperty nesting members schema path
        | _ => eachProperty nesting members schema path
      | _ =>
        match schema.member "additionalProperties" with
        | some (.bool false) => do
          refuseAdditional (propertiesOf schema) path members; eachProperty nesting members schema path
        | _ => eachProperty nesting members schema path) := rfl
  rw [rest]
  cases found : schema.member "required" with
  | none => simp only [additional, reduceCtorEq, false_implies, implies_true, true_and]
  | some child =>
    obtain ⟨names, rfl, -⟩ := declared.required found
    simp only [bind_ok, requireFields_ok, additional, exists_const, Option.some.injEq, Json.arr.injEq, forall_eq']

theorem insidePart_ok {nesting : Nat} {accepts : Json → Json → Prop} (declared : Declared schema)
    (same : ∀ value schema path, Declared schema →
      (validatePayload nesting value schema path = .ok () ↔ accepts value schema)) :
    insidePart nesting value schema path = .ok u ↔ Inside accepts value schema := by
  cases value with
  | arr items => exact insidePart_arr fun inner found item _ path => same item inner path (declared.item found)
  | obj members =>
    rw [insidePart_obj declared, eachProperty_ok fun p listed held path _ => same held p.2 path (declared.properties p listed)]
    constructor
    · rintro ⟨required, additional, properties⟩
      refine ⟨?_, ?_, ?_, ?_⟩
      · rintro _ names ⟨⟩
        exact required names
      · rintro _ ⟨⟩
        exact additional
      · rintro items inner ⟨⟩
      · rintro _ ⟨⟩
        exact properties
    · exact fun inside => ⟨fun names => inside.required members names rfl, inside.additional members rfl,
        inside.properties members rfl⟩
  | _ =>
    refine ⟨fun _ => ⟨?_, ?_, ?_, ?_⟩, fun _ => rfl⟩
    · rintro members names ⟨⟩
    · rintro members ⟨⟩
    · rintro items inner ⟨⟩
    · rintro members ⟨⟩

theorem validateScalar_ok (declared : Declared schema) (inside : Inside (fun _ _ => True) value schema) :
    validateScalar value schema path = .ok u ↔ journal.Level value schema := by
  rw [validateScalar_eq]
  simp only [bind_ok, ensure_ok, exists_const, scalarConst_ok, scalarEnum_ok, typeMatches_iff declared,
    scalarNumber_ok declared, scalarText_ok declared, scalarCount_ok]
  constructor
  · rintro ⟨const, enum, types, ⟨minimum, maximum⟩, ⟨minLength, maxLength⟩, minItems, maxItems⟩
    exact {
      const, enum, types, minimum, maximum, minLength, maxLength, minItems, maxItems
      required := inside.required
      additional := fun members is closed _ => inside.additional members is closed }
  · exact fun level => ⟨level.const, level.enum, level.types, ⟨level.minimum, level.maximum⟩,
      ⟨level.minLength, level.maxLength⟩, level.minItems, level.maxItems⟩

theorem Inside.weaken {accepts : Json → Json → Prop} (inside : Inside accepts value schema) :
    Inside (fun _ _ => True) value schema :=
  ⟨inside.required, inside.additional, fun _ _ _ _ _ _ => trivial, fun _ _ _ _ _ _ => trivial⟩

theorem validatePayload_ok (nesting : Nat) (declared : Declared schema) :
    validatePayload nesting value schema path = .ok u ↔ journal.Accepts nesting value schema := by
  induction nesting generalizing value schema path u with
  | zero => simp [validatePayload, Judge.Accepts]
  | succ nesting ih =>
    unfold validatePayload
    simp only [bind_ok, ensure_ok, exists_const]
    refine Iff.trans (and_congr Iff.rfl (exists_congr fun _ => and_congr
      (forIn_ok (P := fun keyword => ∀ options, schema.member keyword = some (.arr options) → combinatorHolds keyword
        (acceptedBy (journal.Accepts nesting) options value) options.length = true) ?_)
      (exists_congr fun _ => and_congr Iff.rfl (insidePart_ok declared fun value schema path inner => ih inner)))) ?_
    · intro keyword listed step
      cases found : schema.member keyword with
      | none =>
        simp only [pure, Except.pure, Except.ok.injEq, reduceCtorEq, false_implies, implies_true, true_and]
        exact eq_comm
      | some child =>
        obtain ⟨first, rest, rfl, each⟩ := declared.options listed found
        rw [yield_ok, ensure_ok, countP_succeeds fun option member => ih (each option member)]
        simp only [Option.some.injEq, Json.arr.injEq, forall_eq']
    · simp only [exists_const]
      constructor
      · rintro ⟨-, branches, _, scalar, inside⟩
        exact ⟨(validateScalar_ok declared inside.weaken).mp scalar, branches, inside.items, inside.properties⟩
      · rintro ⟨level, branches, items, properties⟩
        have inside : Inside (journal.Accepts nesting) value schema :=
          ⟨level.required, fun members is closed => level.additional members is closed trivial, items, properties⟩
        exact ⟨declared.isObject, branches, (), (validateScalar_ok declared inside.weaken).mpr level, inside⟩

/-- The value satisfies the schema. -/
def Satisfies (value schema : Json) : Prop := ∃ path, validateValue value schema path = .ok ()

theorem validateValue_ok : validateValue value schema path = .ok u ↔
    validateSchema "schema.invalid" schema (path ++ "/schema") = .ok () ∧ journal.Accepts schema.depth value schema := by
  rw [validateValue, bind_ok]
  constructor
  · rintro ⟨_, passed, accepted⟩
    exact ⟨passed, (validatePayload_ok schema.depth ⟨_, _, passed⟩).mp accepted⟩
  · rintro ⟨passed, accepted⟩
    exact ⟨(), passed, (validatePayload_ok schema.depth ⟨_, _, passed⟩).mpr accepted⟩

end

end Fala.Schema
