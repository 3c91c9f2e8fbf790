import Fala.Correlation.Projected
import Fala.Durable.Each
import Fala.Json.Reading
import Fala.Package.GraphTools

/-! What the coverage of a discriminant guarantees. -/

namespace Fala.Package
open Json Schema Correlation Correlation.Tested

/-! The discriminant and the outputs that satisfy the schema. -/

/-- The values that a property writes out. -/
def candidates (property : Json) : List Json :=
  match property.member "const" with
  | some candidate => [candidate]
  | none =>
    match property.member "enum" with
    | some (.arr candidates) => candidates
    | _ => []

/-- The schema requires a field of an object and declares it. -/
structure Discriminates (schema : Json) (field : String) (property : Json) : Prop where
  typed : schema.member "type" = some (.str "object")
  required : ∃ names, schema.member "required" = some (.arr names) ∧ .str field ∈ names
  declared : ∃ properties, schema.member "properties" = some (.obj properties) ∧ lookup field properties = some property
  plain : '.' ∉ field.toList ∧ field ≠ ""

section Discriminant

variable {print : Printer} {property schema : Json} {variants : OutputVariants}

theorem mem_foldl_values {text : String} {cs : List Json} {values : List String} :
    text ∈ cs.foldl (fun values c => if print c.canonical ∈ values then values else values ++ [print c.canonical]) values ↔
      text ∈ values ∨ ∃ c ∈ cs, print c.canonical = text := by
  induction cs generalizing values with
  | nil => simp
  | cons c rest ih =>
    rw [List.foldl_cons, ih, List.exists_mem_cons_iff, ← or_assoc]
    apply or_congr_left
    by_cases held : print c.canonical ∈ values
    · rw [if_pos held]
      exact ⟨.inl, fun either => either.elim id fun same => same ▸ held⟩
    · rw [if_neg held, List.mem_append, List.mem_singleton, eq_comm]

theorem mem_discriminant (found : discriminant print property ≠ []) :
    (∀ c ∈ candidates property, c.isScalar = true) ∧
      ∀ text, text ∈ discriminant print property ↔ ∃ c ∈ candidates property, print c.canonical = text := by
  unfold discriminant candidates at *
  cases const : property.member "const" with
  | some candidate =>
    simp only [const] at found ⊢
    by_cases scalar : candidate.isScalar = true
    · rw [if_pos scalar]
      simp only [List.mem_singleton, forall_eq, exists_eq_left]
      exact ⟨scalar, fun text => eq_comm⟩
    · rw [if_neg scalar] at found
      exact absurd rfl found
  | none =>
    simp only [const] at found ⊢
    cases enum : property.member "enum" with
    | some value =>
      cases value with
      | arr cs =>
        simp only [enum] at found ⊢
        by_cases scalars : cs.all isScalar = true
        · rw [if_pos scalars]
          refine ⟨List.all_eq_true.mp scalars, fun text => ?_⟩
          rw [mem_foldl_values]
          simp
        · rw [if_neg scalars] at found
          exact absurd rfl found
      | _ => simp [enum] at found
    | none => simp [enum] at found

theorem firstDiscriminant_proven {properties : List (String × Json)} {names : List Json}
    (proven : (firstDiscriminant print properties names).proven = true) :
    ∃ field property, .str field ∈ names ∧ lookup field properties = some property ∧ '.' ∉ field.toList ∧ field ≠ "" ∧
      (firstDiscriminant print properties names).fieldPath = field ∧ discriminant print property ≠ [] ∧
        (firstDiscriminant print properties names).values = discriminant print property := by
  fun_induction firstDiscriminant print properties names with
  | case1 key rest property found passed ih =>
    have ⟨field, other, listed, later⟩ := ih proven
    exact ⟨field, other, List.mem_cons_of_mem _ listed, later⟩
  | case2 key rest property found passed =>
    simp only [not_or] at passed
    exact ⟨key, property, List.mem_cons_self, found, passed.2.1, passed.2.2, rfl, passed.1, rfl⟩
  | case3 key rest missing ih =>
    have ⟨field, other, listed, later⟩ := ih proven
    exact ⟨field, other, List.mem_cons_of_mem _ listed, later⟩
  | case4 head rest plain ih =>
    have ⟨field, other, listed, later⟩ := ih proven
    exact ⟨field, other, List.mem_cons_of_mem _ listed, later⟩
  | case5 => cases proven

theorem finiteOutputVariants_proven (found : finiteOutputVariants print schema = .ok variants)
    (proven : variants.proven = true) :
    Declared schema ∧ ∃ property, Discriminates schema variants.fieldPath property ∧
      discriminant print property ≠ [] ∧ variants.values = discriminant print property := by
  simp only [finiteOutputVariants, bind_ok] at found
  obtain ⟨_, valid, found⟩ := found
  refine ⟨⟨_, _, valid⟩, ?_⟩
  by_cases typed : schema.member "type" = some (.str "object")
  · rw [if_pos typed] at found
    split at found
    · rename_i names properties required declared
      cases found
      obtain ⟨field, property, listed, here, nodot, nonempty, path, written, values⟩ := firstDiscriminant_proven proven
      refine ⟨property, ⟨typed, ⟨names, required, path ▸ listed⟩, ⟨properties, declared, path ▸ here⟩, ?_⟩, written, values⟩
      exact path ▸ ⟨nodot, nonempty⟩
    · cases found
      cases proven
  · rw [if_neg typed] at found
    cases found
    cases proven

theorem Discriminates.carried {field : String} (discriminates : Discriminates schema field property) {value : Json}
    (satisfies : Satisfies value schema) (written : candidates property ≠ []) :
    ∃ v, value.member field = some v ∧ ∃ c ∈ candidates property, valuesEqual v c = true := by
  obtain ⟨path, passed⟩ := satisfies
  have accepts := (validateValue_ok.mp passed).2
  obtain ⟨names, required, named⟩ := discriminates.required
  obtain ⟨properties, declared, found⟩ := discriminates.declared
  cases depth : schema.depth with
  | zero =>
    rw [depth] at accepts
    cases accepts
  | succ nesting =>
    rw [depth] at accepts
    obtain ⟨level, nested⟩ := accepts
    have kinds : typeNames schema = some ["object"] := by simp [typeNames, discriminates.typed, textOf]
    have object := level.types _ kinds
    cases value with
    | obj members =>
      have present := level.required members names rfl required field named
      obtain ⟨v, held⟩ := Option.isSome_iff_exists.mp present
      refine ⟨v, held, ?_⟩
      have among : (field, property) ∈ propertiesOf schema := by
        rw [propertiesOf, declared]
        exact lookup_mem found
      have inner := nested.properties members rfl _ among v held
      cases nesting with
      | zero => cases inner
      | succ nesting =>
        have level := inner.1
        unfold candidates at *
        cases const : property.member "const" with
        | some candidate =>
          exact ⟨candidate, List.mem_singleton_self _, level.const candidate const⟩
        | none =>
          simp only [const] at written ⊢
          cases enum : property.member "enum" with
          | some options =>
            cases options with
            | arr cs =>
              have any := level.enum cs enum
              obtain ⟨c, listed, equal⟩ := List.any_eq_true.mp any
              exact ⟨c, listed, equal⟩
            | _ => simp [enum] at written
          | none => simp [enum] at written
    | _ => simp [journal, kindMatches] at object

end Discriminant

/-! What takes up a value of the discriminant. -/

/-- The output gives downstream effectors and terminals this domain value. -/
structure Delivers (output : Json) (source : List (String × Json)) : Prop where
  domain : domainSource output = .ok source
  terminal : terminalValues output = .obj source

def Carries (field : String) (c : Json) (source : List (String × Json)) : Prop :=
  ∃ v, lookup field source = some v ∧ valuesEqual v c = true

/-- Wherever the effector has succeeded with this output, the condition of the dependent is met. -/
def MetBy (effector dependent : PackageEffector) (output : Json) : Prop :=
  ∀ (item : CorrelationProcessPlan Text) (plan : CorrelationInstantiationPlan Text)
    (states : List (CorrelationExecutionState Text)) (state : CorrelationExecutionState Text)
    (source : CorrelationProcessPlan Text), item.whenJson = dependent.whenJson → item.conduction = dependent.conduction →
    Advance.lastState states effector.id = some state → Advance.lastPlan plan effector.id = some source →
    state.status = .succeeded → state.outputJson.parse = some output →
    source.outputSchemaJson = effector.outputSchemaJson → Advance.conditionMatches item plan states = .ok true

/-- A dependent takes up every output with the value. -/
def Taken (effector dependent : PackageEffector) (field : String) (c : Json) : Prop :=
  effector.id ∈ dependent.conduction ∧
    ∀ output source, Delivers output source → Carries field c source → MetBy effector dependent output

/-- A terminal for success takes up every output with the value. -/
def Ended (effector : PackageEffector) (terminal : PathTerminal) (field : String) (c : Json) : Prop :=
  terminal.sourceEffector = effector.id ∧ terminal.status = .succeeded ∧
    ∀ output source, Delivers output source → Carries field c source → terminal.meets (terminalValues output) = .ok true

/-! A test of the value. -/

/-- A number that can be written as an integer and as a float. -/
def isWhole : Json → Bool
  | .int _ | .uint _ => true
  | .float q => decide (q.den = 1)
  | _ => false

/-- No condition, or one that compares this field of the effector with this value, a value with one spelling. -/
def Tests (effector dependent : PackageEffector) (field : String) (c : Json) : Prop :=
  dependent.whenJson = .empty ∨ ∃ condition expected, dependent.whenJson.parse = some condition ∧
    condition.member "upstream" = some (.str effector.id) ∧ condition.member "path" = some (.str field) ∧
    condition.member "equals" = some expected ∧ expected.isScalar = true ∧ spelledAlike c expected = true ∧
    isWhole c = false

/-- A terminal for success without a condition, or with one that compares this field with this value. -/
def Closes (terminal : PathTerminal) (field : String) (c : Json) : Prop :=
  terminal.status = .succeeded ∧ (terminal.whenJson = .empty ∨
    ∃ condition expected, terminal.whenJson.parse = some condition ∧ condition.member "path" = some (.str field) ∧
      condition.member "equals" = some expected ∧ valuesEqual c expected = true)

section Values

variable {v c e : Json}

theorem spelledAlike_iff : spelledAlike v c = true ↔ v.canonical.printed = c.canonical.printed := decide_eq_true_iff

theorem valuesEqual_number (number : v.isNumber = true) :
    valuesEqual v c = true ↔ c.isNumber = true ∧ v.exactNumber = c.exactNumber := by
  cases v with
  | int | uint | float =>
    rw [valuesEqual, Bool.and_eq_true]
    exact and_congr_right' decide_eq_true_iff
  | _ => cases number

theorem valuesEqual_plain (scalar : c.isScalar = true) (other : c.isNumber = false) :
    valuesEqual v c = true ↔ v = c := by
  cases c with
  | arr | obj => cases scalar
  | int | uint | float => cases other
  | null | bool | str => cases v <;> simp [valuesEqual, isNumber]

theorem isNumber_of_equal (number : c.isNumber = true) (equal : valuesEqual v c = true) : v.isNumber = true := by
  cases c with
  | int | uint | float =>
    cases v with
    | int | uint | float => rfl
    | _ => cases equal
  | _ => cases number

theorem alike_of_equal (scalar : c.isScalar = true) (one : isWhole c = false) (equal : valuesEqual v c = true) :
    spelledAlike v c = true := by
  rw [spelledAlike_iff]
  by_cases number : c.isNumber = true
  · have numeric := isNumber_of_equal number equal
    have ⟨_, same⟩ := (valuesEqual_number numeric).mp equal
    cases c with
    | float q =>
      have fraction : q.den ≠ 1 := of_decide_eq_false one
      cases v with
      | int n =>
        have is : (n : Rat) = q := same
        exact absurd (is ▸ Rat.den_intCast n) fraction
      | uint n =>
        have is : (n : Rat) = q := same
        exact absurd (is ▸ Rat.den_natCast n) fraction
      | float r =>
        have is : r = q := same
        rw [is]
      | _ => cases numeric
    | int | uint => cases one
    | _ => cases number
  · rw [(valuesEqual_plain scalar (Bool.eq_false_iff.mpr number)).mp equal]

theorem whole_otherwise (whole : isWhole c = true) :
    ∃ v, valuesEqual v c = true ∧ v.canonical.printed ≠ c.canonical.printed := by
  cases c with
  | int n =>
    refine ⟨.float n, (valuesEqual_number rfl).mpr ⟨rfl, rfl⟩, ?_⟩
    simp [canonical, printed]
  | uint n =>
    refine ⟨.float n, (valuesEqual_number rfl).mpr ⟨rfl, rfl⟩, ?_⟩
    simp [canonical, printed]
  | float q =>
    have one : q.den = 1 := of_decide_eq_true whole
    have same : ((q.num : Int) : Rat) = q := Rat.ext rfl one.symm
    refine ⟨.int q.num, (valuesEqual_number rfl).mpr ⟨rfl, same⟩, ?_⟩
    simp [canonical, printed]
  | _ => cases whole

theorem valuesEqual_trans (scalar : c.isScalar = true) (left : valuesEqual v c = true) (right : valuesEqual c e = true) :
    valuesEqual v e = true := by
  by_cases number : c.isNumber = true
  · have numeric := isNumber_of_equal number left
    have ⟨_, one⟩ := (valuesEqual_number numeric).mp left
    have ⟨other, two⟩ := (valuesEqual_number number).mp right
    exact (valuesEqual_number numeric).mpr ⟨other, one.trans two⟩
  · rwa [(valuesEqual_plain scalar (Bool.eq_false_iff.mpr number)).mp left]

theorem valuesEqual_self (scalar : c.isScalar = true) : valuesEqual c c = true := by
  by_cases number : c.isNumber = true
  · exact (valuesEqual_number number).mpr ⟨number, rfl⟩
  · exact (valuesEqual_plain scalar (Bool.eq_false_iff.mpr number)).mpr rfl

theorem isScalar_of_equal (scalar : c.isScalar = true) (equal : valuesEqual v c = true) : v.isScalar = true := by
  by_cases number : c.isNumber = true
  · have numeric := isNumber_of_equal number equal
    cases v with
    | arr | obj => cases numeric
    | _ => rfl
  · rwa [(valuesEqual_plain scalar (Bool.eq_false_iff.mpr number)).mp equal]

end Values

/-! A value is taken up exactly where it is tested. -/

section Tested

variable {field : String} {c schema property : Json} {effector dependent : PackageEffector} {terminal : PathTerminal}

theorem segments_single (plain : '.' ∉ field.toList) : segments field = [field] := by
  rw [segments, List.splitOn_eq_singleton plain, List.map_singleton, String.ofList_toList]

theorem eq_of_segments {path : String} (single : segments path = [field]) : path = field := by
  have ⟨l, is, same⟩ := List.map_eq_singleton_iff.mp single
  have whole : List.intercalate ['.'] (path.toList.splitOn '.') = path.toList := List.intercalate_splitOn '.'
  rw [is] at whole
  have chars : l = path.toList := by simpa using whole
  rw [← same, chars, String.ofList_toList]

/-- A result message with the value in its payload. -/
def carrier (field : String) (v : Json) : Json :=
  .obj [("protocol", .str "fala"), ("kind", .str "result"), ("payload", .obj [(field, v)])]

theorem delivers_carrier (field : String) (v : Json) : Delivers (carrier field v) [(field, v)] where
  domain := rfl
  terminal := rfl

theorem carries_carrier {v : Json} (equal : valuesEqual v c = true) : Carries field c [(field, v)] :=
  ⟨v, if_pos rfl, equal⟩

theorem valueAt_carrier {path : String} {v found : Json} (scalar : v.isScalar = true)
    (held : valueAt (segments path) (.obj [(field, v)]) = some found) : path = field ∧ found = v := by
  have ⟨key, rest, child, split, here, inner⟩ := valueAt_obj.mp held
  rw [lookup_singleton] at here
  by_cases same : field = key
  · rw [if_pos same] at here
    cases here
    cases rest with
    | nil =>
      cases inner
      subst same
      exact ⟨eq_of_segments split, rfl⟩
    | cons next rest =>
      have ⟨below, member, _⟩ := valueAt_cons.mp inner
      cases v with
      | obj => cases scalar
      | _ => cases member
  · rw [if_neg same] at here
    cases here

/-- The effector in a run where it has succeeded with an output. -/
def succeededWith (effector : PackageEffector) (output : Json) : CorrelationExecutionState Text :=
  ⟨"", effector.id, .succeeded, 1, 1, .printed output, .braces, .braces, []⟩

def planned (effector : PackageEffector) : CorrelationProcessPlan Text :=
  { samplePlan effector.id [] .empty with outputSchemaJson := effector.outputSchemaJson }

theorem lastState_succeeded (effector : PackageEffector) (output : Json) (id : String) :
    Advance.lastState [succeededWith effector output] id =
      if effector.id = id then some (succeededWith effector output) else none := by
  by_cases same : effector.id = id <;> simp [Advance.lastState, succeededWith, same]

theorem lastPlan_planned (effector : PackageEffector) :
    Advance.lastPlan ⟨"path", "run", [planned effector], false⟩ effector.id = some (planned effector) := by
  simp [Advance.lastPlan, planned, samplePlan]

theorem keeps_field (declared : Declared schema) (discriminates : Discriminates schema field property) {text : Text}
    (known : text.parse = some schema) (source : List (String × Json)) : Keeps text field source := by
  refine ⟨schema, known, fun _ => ?_⟩
  have ⟨properties, projected, names⟩ := projectionProperties_ok declared (Nat.le_refl _) (.obj source)
  refine ⟨properties, projected, .inr ?_⟩
  rw [segments_single discriminates.plain.1]
  intro key first
  cases first
  rw [names, declares_iff]
  have ⟨held, listed, found⟩ := discriminates.declared
  left
  rw [propertiesOf, listed, found]
  rfl

theorem taken_iff (declared : Declared schema) (discriminates : Discriminates schema field property)
    (known : effector.outputSchemaJson.parse = some schema) (scalar : c.isScalar = true) :
    Taken effector dependent field c ↔ effector.id ∈ dependent.conduction ∧ Tests effector dependent field c := by
  refine and_congr_right fun depends => ?_
  constructor
  · intro taken
    by_cases absent : dependent.whenJson = .empty
    · exact .inl absent
    · right
      -- What the condition says of a message that carries the value as it is spelled in `v`.
      have met {v : Json} (equal : valuesEqual v c = true) : ∃ condition expected,
          dependent.whenJson.parse = some condition ∧ condition.member "upstream" = some (.str effector.id) ∧
            condition.member "path" = some (.str field) ∧ condition.member "equals" = some expected ∧
              expected.isScalar = true ∧ spelledAlike v expected = true := by
        have passed := taken (carrier field v) [(field, v)] (delivers_carrier field v) (carries_carrier equal)
          (samplePlan dependent.id dependent.conduction dependent.whenJson) ⟨"path", "run", [planned effector], false⟩
          [succeededWith effector (carrier field v)] (succeededWith effector (carrier field v)) (planned effector) rfl rfl
          ((lastState_succeeded effector _ _).trans (if_pos rfl)) (lastPlan_planned effector) rfl rfl rfl
        rw [Advance.conditionMatches, if_neg (show (samplePlan dependent.id dependent.conduction dependent.whenJson).whenJson ≠
          .empty from absent)] at passed
        simp only [samplePlan, bind_ok, parsed_ok, ensure_ok] at passed
        obtain ⟨condition, read, _, _, passed⟩ := passed
        split at passed
        · rename_i upstream path expected named pathed equals
          rw [bind_ok] at passed
          obtain ⟨_, _, passed⟩ := passed
          rw [lastState_succeeded] at passed
          by_cases same : effector.id = upstream
          · subst same
            rw [if_pos rfl, lastPlan_planned] at passed
            simp only [succeededWith, Advance.outputMatches, bind_ok, parsed_ok, ensure_ok, advanceFieldAt_ok] at passed
            obtain ⟨output, is, projected, made, _, _, current, ⟨_, at_⟩, _, _, _, plain, alike⟩ := passed
            cases is
            obtain ⟨source, sourced, _, held⟩ := projectOutput_valueAt.mp ⟨projected, made, at_⟩
            cases (delivers_carrier field v).domain.symm.trans sourced
            obtain ⟨here, value⟩ := valueAt_carrier (isScalar_of_equal scalar equal) held
            subst here value
            exact ⟨condition, expected, read, named, pathed, equals, plain, Except.ok.inj alike⟩
          · rw [if_neg same] at passed
            cases passed
        · cases passed
      obtain ⟨condition, expected, read, named, pathed, equals, plain, alike⟩ := met (valuesEqual_self scalar)
      refine ⟨condition, expected, read, named, pathed, equals, plain, alike, ?_⟩
      rw [← Bool.not_eq_true]
      intro whole
      obtain ⟨v, equal, otherwise⟩ := whole_otherwise whole
      obtain ⟨condition', expected', read', _, _, equals', _, alike'⟩ := met equal
      cases read.symm.trans read'
      cases equals.symm.trans equals'
      rw [spelledAlike_iff] at alike alike'
      exact otherwise (alike'.trans alike.symm)
  · intro tests output source delivers carried item plan states state planned when_ conducted stated sourced
      succeeded given declaredSchema
    obtain ⟨v, held, equal⟩ := carried
    rcases tests with absent | ⟨condition, expected, read, named, pathed, equals, plain, alike, one⟩
    · rw [Advance.conditionMatches, if_pos (when_.trans absent)]
    · have present : item.whenJson ≠ .empty := by
        rw [when_]
        rintro absent
        rw [absent] at read
        cases read
      have parsedSchema : planned.outputSchemaJson.parse = some schema := by rw [declaredSchema, known]
      have keeps := keeps_field declared discriminates parsedSchema source
      have here : valueAt (segments field) (.obj source) = some v := by
        rw [segments_single discriminates.plain.1, valueAt_cons]
        exact ⟨v, held, rfl⟩
      obtain ⟨projected, made, at_⟩ := projectOutput_valueAt.mpr ⟨source, delivers.domain, keeps, here⟩
      have spelled := (spelledAlike_iff.mp (alike_of_equal scalar one equal)).trans (spelledAlike_iff.mp alike)
      rw [Advance.conditionMatches, if_neg present]
      simp only [bind_ok, parsed_ok, when_, read, Option.some.injEq,
        exists_eq_left', ensure_ok, isObject_of_member named, exists_const, named, pathed, equals, conducted,
        List.contains_iff_mem, depends, stated, sourced, succeeded, Advance.outputMatches, given, made, decide_eq_true_eq,
        true_and, advanceFieldAt_ok, plain, Except.ok.injEq]
      refine ⟨discriminates.plain.2, v, ⟨?_, at_⟩, isScalar_of_equal scalar equal, ?_⟩
      · rw [segments_single discriminates.plain.1, List.forall_mem_singleton]
        exact discriminates.plain.2
      · exact congrArg _ (spelledAlike_iff.mpr spelled)

theorem ended_iff (discriminates : Discriminates schema field property) (scalar : c.isScalar = true) :
    Ended effector terminal field c ↔ terminal.sourceEffector = effector.id ∧ Closes terminal field c := by
  refine and_congr_right fun _ => and_congr_right fun _ => ?_
  constructor
  · intro ends
    by_cases absent : terminal.whenJson = .empty
    · exact .inl absent
    · right
      have passed := ends (carrier field c) [(field, c)] (delivers_carrier field c) (carries_carrier (valuesEqual_self scalar))
      rw [(delivers_carrier field c).terminal] at passed
      simp only [PathTerminal.meets, if_neg absent, bind_ok, parsed_ok] at passed
      have ⟨condition, read, passed⟩ := passed
      split at passed
      · rename_i path expected pathed equals
        rw [bind_ok] at passed
        have ⟨current, at_, equal⟩ := passed
        have ⟨here, value⟩ := valueAt_carrier scalar ((terminalFieldAt_ok terminal).mp at_)
        subst here value
        exact ⟨condition, expected, read, pathed, equals, Except.ok.inj equal⟩
      · cases passed
  · intro closes output source delivers ⟨v, held, equal⟩
    rw [delivers.terminal]
    rcases closes with absent | ⟨condition, expected, read, pathed, equals, same⟩
    · rw [PathTerminal.meets, if_pos absent]
    · have present : terminal.whenJson ≠ .empty := by
        rintro absent
        rw [absent] at read
        cases read
      have here : valueAt (segments field) (.obj source) = some v := by
        rw [segments_single discriminates.plain.1, valueAt_cons]
        exact ⟨v, held, rfl⟩
      simp only [PathTerminal.meets, if_neg present, bind_ok, parsed_ok, read, Option.some.injEq, exists_eq_left', pathed,
        equals, terminalFieldAt_ok, here]
      exact congrArg _ (valuesEqual_trans scalar equal same)

end Tested

/-! The report of a valid graph. -/

/-- The values that a field of a schema lists. -/
def listedValues (schema : Json) (field : String) : List Json :=
  candidates (((schema.member "properties").bind (member field)).getD .null)

/-- What the report guarantees of an effector with a proven discriminant. -/
structure Guaranteed (print : Printer) (path : PackageCorrelationPath) (effector : PackageEffector) (schema : Json)
    (variants : OutputVariants) : Prop where
  values : ∀ text, text ∈ variants.values ↔ ∃ c ∈ listedValues schema variants.fieldPath, print c.canonical = text
  carried : ∀ value, Satisfies value schema →
    ∃ v, value.member variants.fieldPath = some v ∧ ∃ c ∈ listedValues schema variants.fieldPath, valuesEqual v c = true
  taken : ∀ c ∈ listedValues schema variants.fieldPath,
    (∃ dependent ∈ path.effectors, Taken effector dependent variants.fieldPath c) ∨
      ∃ terminal ∈ path.terminals, Ended effector terminal variants.fieldPath c

/-- A dependent or a terminal that was counted for the value although it does not test it. -/
def FalselyCounted (print : Printer) (path : PackageCorrelationPath) (effector : PackageEffector) (field : String)
    (c : Json) : Prop :=
  (∃ dependent ∈ path.effectors, effector.id ∈ dependent.conduction ∧
    mentions print dependent.whenJson (print c.canonical) = true ∧ ¬ Tests effector dependent field c) ∨
  ∃ terminal ∈ path.terminals, terminal.sourceEffector = effector.id ∧
    mentions print terminal.whenJson (print c.canonical) = true ∧ ¬ Closes terminal field c

/-- A dependent or a terminal that does test the value. -/
def Upheld (path : PackageCorrelationPath) (effector : PackageEffector) (field : String) (c : Json) : Prop :=
  (∃ dependent ∈ path.effectors, effector.id ∈ dependent.conduction ∧ Tests effector dependent field c) ∨
  ∃ terminal ∈ path.terminals, terminal.sourceEffector = effector.id ∧ Closes terminal field c

section Report

variable {print : Printer} {manifest : PackageManifest} {path : PackageCorrelationPath} {effector : PackageEffector}
  {guaranteed : Bool} {unverified : List String} {schema : Json} {variants : OutputVariants}

theorem graphValidate_covered (valid : graphValidate print (.ok manifest) = .covered guaranteed unverified) :
    ∃ report, coverageReport print manifest = .ok report ∧ report.diagnostics = [] := by
  unfold graphValidate at valid
  cases first : firstFinding 0 manifest.correlationPaths with
  | some pair =>
    simp only [first] at valid
    cases valid
  | none =>
    simp only [first] at valid
    cases covering : coverageReport print manifest with
    | error message =>
      simp only [covering] at valid
      cases valid
    | ok report =>
      simp only [covering] at valid
      by_cases clean : report.diagnostics = []
      · exact ⟨report, rfl, clean⟩
      · rw [if_neg clean] at valid
        cases valid

theorem coverageDiagnostic_none (valid : graphValidate print (.ok manifest) = .covered guaranteed unverified)
    (listed : path ∈ manifest.correlationPaths) (among : effector ∈ path.effectors) :
    ∃ pathIndex effectorIndex, coverageDiagnostic print pathIndex path effectorIndex effector = .ok none := by
  obtain ⟨report, covering, clean⟩ := graphValidate_covered valid
  simp only [coverageReport, bind_ok] at covering
  obtain ⟨entries, mapped, same⟩ := covering
  cases same
  obtain ⟨pathIndex, pathAt⟩ := List.mem_iff_getElem?.mp listed
  obtain ⟨effectorIndex, effectorAt⟩ := List.mem_iff_getElem?.mp among
  have pathHere : (path, pathIndex) ∈ manifest.correlationPaths.zipIdx := List.mk_mem_zipIdx_iff_getElem?.mpr pathAt
  have effectorHere : (effector, effectorIndex) ∈ path.effectors.zipIdx := List.mk_mem_zipIdx_iff_getElem?.mpr effectorAt
  obtain ⟨group, grouped, inner⟩ := Durable.forall₂_left (Durable.mapM_ok mapped) pathHere
  obtain ⟨entry, held, given⟩ := Durable.forall₂_left (Durable.mapM_ok inner) effectorHere
  refine ⟨pathIndex, effectorIndex, ?_⟩
  simp only [coverageEntry, bind_ok] at given
  obtain ⟨_, _, diagnostic, found, is⟩ := given
  cases is
  rw [List.filterMap_eq_nil_iff] at clean
  have quiet := clean _ (List.mem_flatten.mpr ⟨group, grouped, held⟩)
  rw [found]
  exact congrArg _ quiet

theorem counted_of_valid (valid : graphValidate print (.ok manifest) = .covered guaranteed unverified)
    (listed : path ∈ manifest.correlationPaths) (among : effector ∈ path.effectors)
    (known : effector.outputSchemaJson.parse = some schema) (found : finiteOutputVariants print schema = .ok variants)
    (proven : variants.proven = true) : ∀ value ∈ variants.values, variantCovered print path effector value = true := by
  have ⟨pathIndex, effectorIndex, quiet⟩ := coverageDiagnostic_none valid listed among
  have ⟨_, property, discriminates, _, _⟩ := finiteOutputVariants_proven found proven
  unfold coverageDiagnostic at quiet
  by_cases absent : effector.outputSchemaDeclared = false
  · rw [if_pos absent] at quiet
    cases quiet
  · rw [if_neg absent, bind_ok] at quiet
    have ⟨read, parsed, quiet⟩ := quiet
    cases known.symm.trans (parsed_ok.mp parsed)
    have typed := discriminates.typed
    cases schema with
    | obj members =>
      cases members with
      | nil => cases typed
      | cons m rest =>
        simp only [found, bind, Except.bind, proven, Bool.true_eq_false, if_false, pure, Except.pure, Except.ok.injEq,
          Option.map_eq_none_iff, List.find?_eq_none, Bool.not_eq_true, Bool.not_eq_false'] at quiet
        exact quiet
    | _ => cases typed

theorem listedValues_eq {property : Json} (discriminates : Discriminates schema variants.fieldPath property) :
    listedValues schema variants.fieldPath = candidates property := by
  have ⟨properties, declared, found⟩ := discriminates.declared
  rw [listedValues, declared, Option.bind_some, member, found, Option.getD_some]

theorem variantCovered_iff {value : String} : variantCovered print path effector value = true ↔
    (∃ dependent ∈ path.effectors, effector.id ∈ dependent.conduction ∧ mentions print dependent.whenJson value = true) ∨
      ∃ terminal ∈ path.terminals, terminal.sourceEffector = effector.id ∧ mentions print terminal.whenJson value = true := by
  simp only [variantCovered, Bool.or_eq_true, List.any_eq_true, Bool.and_eq_true, List.contains_iff_mem, decide_eq_true_eq]

end Report

/-! A state that a dependent is started for, and one that no dependent is. -/

def stateSchema (states : List Json) : Json :=
  .obj [("properties", .obj [("state", .obj [("enum", .arr states)])]), ("required", .arr [.str "state"]),
    ("type", .str "object")]

def anyObject : Json := .obj [("type", .str "object")]

def checkEffector (states : List Json) : PackageEffector where
  id := "check"
  outputSchemaJson := .printed (stateSchema states)
  outputSchemaDeclared := true

def goEffector (state : String) : PackageEffector where
  id := "go"
  conduction := ["check"]
  whenJson := .printed (.obj [("equals", .str state), ("path", .str "state"), ("upstream", .str "check")])
  outputSchemaJson := .printed anyObject
  outputSchemaDeclared := true

def shipPath (states : List Json) : PackageCorrelationPath where
  id := "ship"
  effectors := [checkEffector states, goEffector "on"]
  terminals := []
  linked :=
    { distinct := by simp [checkEffector, goEffector]
      known := by simp [checkEffector, goEffector] }

theorem graphValidate_ship {states : List Json} (open_ : firstFinding 0 [shipPath states] = none)
    (clean : (coverageReport plainPrint ⟨[shipPath states]⟩).toOption.map (fun report =>
      (report.diagnostics, report.guaranteed, report.unverified)) = some ([], false, ["go"])) :
    graphValidate plainPrint (.ok ⟨[shipPath states]⟩) = .covered false ["go"] := by
  cases covering : coverageReport plainPrint ⟨[shipPath states]⟩ with
  | error message =>
    rw [covering] at clean
    cases clean
  | ok report =>
    rw [covering] at clean
    have same := Option.some.inj clean
    simp only [Prod.mk.injEq] at same
    simp only [graphValidate, open_, covering, same.1, if_true, same.2]

end Fala.Package
