import Mathlib.Data.List.Sort
import Mathlib.Data.String.Basic
import Fala.Json.Numbers
import Fala.Json.Reading

/-! `canonical_json_text`, and what it has to do with the equality of values. -/

namespace Fala.Json

/-- `_sort_strings`. The sorted keys are listed from the end, where the next key passes those above it. -/
def sortStrings (values : List String) : List String :=
  (values.foldl (fun sorted key => sorted.orderedInsert (· ≥ ·) key) []).reverse

mutual

/-- `_canonical_value` -/
def canonicalValue : Json → Json
  | .arr items => .arr (canonicalChildren items)
  | .obj members =>
    let children := canonicalNamed members
    .obj ((sortStrings (members.map Prod.fst)).filterMap fun key => (lookup key children).map fun child => (key, child))
  | value => value

def canonicalChildren : List Json → List Json
  | [] => []
  | item :: rest => canonicalValue item :: canonicalChildren rest

def canonicalNamed : List (String × Json) → List (String × Json)
  | [] => []
  | (name, value) :: rest => (name, canonicalValue value) :: canonicalNamed rest

end

mutual

/-- The right value is the left one with the members of its objects in other orders, at any depth. -/
def Rearranged : Json → Json → Prop
  | .arr items, .arr others => RearrangedItems items others
  | .obj members, .obj others => ∃ between, RearrangedMembers members between ∧ between.Perm others
  | left, right => left = right

def RearrangedItems : List Json → List Json → Prop
  | [], [] => True
  | a :: as, b :: bs => Rearranged a b ∧ RearrangedItems as bs
  | _, _ => False

def RearrangedMembers : List (String × Json) → List (String × Json) → Prop
  | [], [] => True
  | (name, a) :: as, (other, b) :: bs => name = other ∧ Rearranged a b ∧ RearrangedMembers as bs
  | _, _ => False

end

/-! The sort. -/

theorem sorting_perm (values sorted : List String) :
    (values.foldl (fun sorted key => sorted.orderedInsert (· ≥ ·) key) sorted).Perm (values ++ sorted) := by
  induction values generalizing sorted with
  | nil => exact .refl _
  | cons key rest ih =>
    have placed := List.perm_orderedInsert (· ≥ ·) key sorted
    exact (ih _).trans ((placed.append_left rest).trans List.perm_middle)

theorem sortStrings_perm (values : List String) : (sortStrings values).Perm values := by
  have sorted := sorting_perm values []
  rw [List.append_nil] at sorted
  exact (List.reverse_perm _).trans sorted

theorem sortStrings_sorted (values : List String) : (sortStrings values).Pairwise (· ≤ ·) := by
  have falls : ∀ sorted : List String, sorted.Pairwise (· ≥ ·) →
      (values.foldl (fun sorted key => sorted.orderedInsert (· ≥ ·) key) sorted).Pairwise (· ≥ ·) := by
    induction values with
    | nil => exact fun _ sorted => sorted
    | cons key rest ih => exact fun _ sorted => ih _ (sorted.orderedInsert key _)
  exact List.pairwise_reverse.mpr (falls [] .nil)

/-! The members of an object under sorted keys. -/

section
variable {members : List (String × Json)} {keys : List String}

theorem names_picked (held : ∀ key ∈ keys, (lookup key members).isSome = true) :
    (keys.filterMap fun key => (lookup key members).map fun child => (key, child)).map Prod.fst = keys := by
  induction keys with
  | nil => rfl
  | cons key rest ih =>
    have ⟨child, found⟩ := Option.isSome_iff_exists.mp (held key List.mem_cons_self)
    rw [List.filterMap_cons, found, Option.map_some]
    exact congrArg (key :: ·) (ih fun other listed => held other (List.mem_cons_of_mem _ listed))

theorem lookup_picked (wanted : String) :
    lookup wanted (keys.filterMap fun key => (lookup key members).map fun child => (key, child)) =
      if wanted ∈ keys then lookup wanted members else none := by
  induction keys with
  | nil => rfl
  | cons key rest ih =>
    rw [List.filterMap_cons]
    by_cases here : key = wanted
    · subst here
      cases found : lookup key members with
      | none => simp [ih, found]
      | some child => simp [lookup]
    · have other : (wanted ∈ key :: rest) = (wanted ∈ rest) := by simp [Ne.symm here]
      simp only [other]
      cases found : lookup key members with
      | none => exact ih
      | some child => simpa [lookup, here] using ih

theorem sorted_of_names (ordered : (members.map Prod.fst).Pairwise (· ≤ ·)) : Sorted members := by
  induction members with
  | nil => trivial
  | cons head rest ih =>
    have ⟨first, later⟩ := List.pairwise_cons.mp ordered
    cases rest with
    | nil => trivial
    | cons next rest => exact ⟨not_lt.mpr (first next.1 List.mem_cons_self), ih later⟩

end

mutual

theorem canonicalValue_eq : ∀ value : Json, value.keysDistinct = true → canonicalValue value = value.canonical
  | .null, _ | .bool _, _ | .int _, _ | .uint _, _ | .float _, _ | .str _, _ => rfl
  | .arr items, distinct => congrArg arr (canonicalChildren_eq items distinct)
  | .obj members, distinct => by
    have ⟨names, inner⟩ := keysDistinct_obj.mp distinct
    have children := canonicalNamed_eq members (keysDistinctMembers_iff.mpr inner)
    have sorted := sortStrings_perm (members.map Prod.fst)
    have held : ∀ key ∈ sortStrings (members.map Prod.fst), (lookup key (canonicalMembers members)).isSome = true := by
      intro key listed
      rw [lookup_canonicalMembers, Option.isSome_map]
      exact lookup_names.mpr (sorted.mem_iff.mp listed)
    simp only [canonicalValue, canonical, children]
    have picked := names_picked held
    generalize gives : ((sortStrings (members.map Prod.fst)).filterMap fun key =>
      (lookup key (canonicalMembers members)).map fun child => (key, child)) = chosen at picked ⊢
    have ordered : Sorted chosen := by
      apply sorted_of_names
      rw [picked]
      exact sortStrings_sorted _
    have once : (chosen.map Prod.fst).Nodup := by
      rw [picked]
      exact sorted.nodup_iff.mpr names
    have same : chosen.Perm (canonicalMembers members) := by
      apply perm_of_lookup once
      · rwa [names_canonicalMembers]
      · intro key
        rw [← gives, lookup_picked]
        by_cases listed : key ∈ sortStrings (members.map Prod.fst)
        · rw [if_pos listed]
        · rw [if_neg listed, lookup_canonicalMembers]
          have absent : lookup key members = none := by
            rw [← Option.not_isSome_iff_eq_none, lookup_names]
            exact fun named => listed (sorted.mem_iff.mpr named)
          rw [absent, Option.map_none]
    rw [← ordered.sortMembers_eq, sortMembers_eq_of_perm same once]

theorem canonicalChildren_eq : ∀ items : List Json, keysDistinctItems items = true →
    canonicalChildren items = canonicalItems items
  | [], _ => rfl
  | item :: rest, distinct => by
    have ⟨first, later⟩ := Bool.and_eq_true_iff.mp distinct
    rw [canonicalChildren, canonicalItems, canonicalValue_eq item first, canonicalChildren_eq rest later]

theorem canonicalNamed_eq : ∀ members : List (String × Json), keysDistinctMembers members = true →
    canonicalNamed members = canonicalMembers members
  | [], _ => rfl
  | (name, value) :: rest, distinct => by
    have ⟨first, later⟩ := Bool.and_eq_true_iff.mp distinct
    rw [canonicalNamed, canonicalMembers, canonicalValue_eq value first, canonicalNamed_eq rest later]

end

/-! Values with their members rearranged. -/

mutual

theorem canonical_of_rearranged : ∀ left right : Json, left.keysDistinct = true → Rearranged left right →
    left.canonical = right.canonical
  | .null, _, _, same | .bool _, _, _, same | .int _, _, _, same | .uint _, _, _, same | .float _, _, _, same
  | .str _, _, _, same => by
    simp only [Rearranged] at same
    rw [same]
  | .arr items, right, distinct, same => by
    cases right with
    | arr others => exact congrArg arr (canonicalItems_of_rearranged items others distinct same)
    | _ => cases same
  | .obj members, right, distinct, same => by
    cases right with
    | obj others =>
      have ⟨between, named, moved⟩ := same
      have ⟨names, inner⟩ := keysDistinct_obj.mp distinct
      have ⟨each, kept⟩ := canonicalMembers_of_rearranged members between (keysDistinctMembers_iff.mpr inner) named
      rw [← canonical_perm moved (kept ▸ names), canonical, canonical, each]
    | _ => cases same

theorem canonicalItems_of_rearranged : ∀ items others : List Json, keysDistinctItems items = true →
    RearrangedItems items others → canonicalItems items = canonicalItems others
  | [], [], _, _ => rfl
  | [], _ :: _, _, same | _ :: _, [], _, same => nomatch same
  | a :: as, b :: bs, distinct, same => by
    have ⟨first, later⟩ := Bool.and_eq_true_iff.mp distinct
    rw [canonicalItems, canonicalItems, canonical_of_rearranged a b first same.1,
      canonicalItems_of_rearranged as bs later same.2]

theorem canonicalMembers_of_rearranged : ∀ members others : List (String × Json), keysDistinctMembers members = true →
    RearrangedMembers members others →
      canonicalMembers members = canonicalMembers others ∧ members.map Prod.fst = others.map Prod.fst
  | [], [], _, _ => ⟨rfl, rfl⟩
  | [], _ :: _, _, same | _ :: _, [], _, same => nomatch same
  | (name, a) :: as, (other, b) :: bs, distinct, same => by
    have ⟨first, later⟩ := Bool.and_eq_true_iff.mp distinct
    have ⟨named, held, rest⟩ := same
    have ⟨each, names⟩ := canonicalMembers_of_rearranged as bs later rest
    subst named
    rw [canonicalMembers, canonicalMembers, canonical_of_rearranged a b first held, each, List.map_cons, List.map_cons,
      names]
    exact ⟨rfl, rfl⟩

end

/-! Widening the numbers does not show in the order of the members. -/

theorem widenMembers_insertMember (name : String) (value : Json) (members : List (String × Json)) :
    widenMembers (insertMember name value members) = insertMember name value.widen (widenMembers members) := by
  induction members with
  | nil => rfl
  | cons head rest ih =>
    obtain ⟨other, held⟩ := head
    by_cases before : other < name
    · rw [insertMember, if_pos before, widenMembers, widenMembers, insertMember, if_pos before, ih]
    · rw [insertMember, if_neg before, widenMembers, widenMembers, insertMember, if_neg before]

theorem widenMembers_sortMembers (members : List (String × Json)) :
    widenMembers (sortMembers members) = sortMembers (widenMembers members) := by
  induction members with
  | nil => rfl
  | cons head rest ih => rw [sortMembers, widenMembers_insertMember, ih, widenMembers, sortMembers]

mutual

theorem widen_canonical : ∀ value : Json, value.canonical.widen = value.widen.canonical
  | .null | .bool _ | .int _ | .uint _ | .float _ | .str _ => rfl
  | .arr items => congrArg arr (widenItems_canonicalItems items)
  | .obj members => by
    rw [canonical, widen, widenMembers_sortMembers, widenMembers_canonicalMembers members, widen, canonical]

theorem widenItems_canonicalItems : ∀ items : List Json,
    widenItems (canonicalItems items) = canonicalItems (widenItems items)
  | [] => rfl
  | item :: rest => by
    rw [canonicalItems, widenItems, widen_canonical item, widenItems_canonicalItems rest, widenItems, canonicalItems]

theorem widenMembers_canonicalMembers : ∀ members : List (String × Json),
    widenMembers (canonicalMembers members) = canonicalMembers (widenMembers members)
  | [] => rfl
  | (name, value) :: rest => by
    rw [canonicalMembers, widenMembers, widen_canonical value, widenMembers_canonicalMembers rest, widenMembers,
      canonicalMembers]

end

theorem meaning_of_canonical {left right : Json} (same : left.canonical = right.canonical) :
    left.meaning = right.meaning := by
  rw [meaning, meaning, ← widen_canonical, ← widen_canonical, same]

mutual

theorem keyed_of_distinct : ∀ value : Json, value.keysDistinct = true → value.Keyed
  | .null, _ | .bool _, _ | .int _, _ | .uint _, _ | .float _, _ | .str _, _ => trivial
  | .arr items, distinct => keyedItems_of_distinct items distinct
  | .obj members, distinct => by
    have ⟨names, inner⟩ := keysDistinct_obj.mp distinct
    exact ⟨names, keyedMembers_of_distinct members (keysDistinctMembers_iff.mpr inner)⟩

theorem keyedItems_of_distinct : ∀ items : List Json, keysDistinctItems items = true → KeyedItems items
  | [], _ => trivial
  | item :: rest, distinct => by
    have ⟨first, later⟩ := Bool.and_eq_true_iff.mp distinct
    exact ⟨keyed_of_distinct item first, keyedItems_of_distinct rest later⟩

theorem keyedMembers_of_distinct : ∀ members : List (String × Json), keysDistinctMembers members = true →
    KeyedMembers members
  | [], _ => trivial
  | (_, value) :: rest, distinct => by
    have ⟨first, later⟩ := Bool.and_eq_true_iff.mp distinct
    exact ⟨keyed_of_distinct value first, keyedMembers_of_distinct rest later⟩

end

mutual

theorem distinct_canonical : ∀ value : Json, value.keysDistinct = true → value.canonical.keysDistinct = true
  | .null, distinct | .bool _, distinct | .int _, distinct | .uint _, distinct | .float _, distinct
  | .str _, distinct => distinct
  | .arr items, distinct => distinct_canonicalItems items distinct
  | .obj members, distinct => by
    have ⟨names, inner⟩ := keysDistinct_obj.mp distinct
    have each := keysDistinctMembers_iff.mp (distinct_canonicalMembers members (keysDistinctMembers_iff.mpr inner))
    have sorted := sortMembers_perm (canonicalMembers members)
    refine keysDistinct_obj.mpr ⟨?_, fun m listed => each m (sorted.mem_iff.mp listed)⟩
    rw [(sorted.map Prod.fst).nodup_iff, names_canonicalMembers]
    exact names

theorem distinct_canonicalItems : ∀ items : List Json, keysDistinctItems items = true →
    keysDistinctItems (canonicalItems items) = true
  | [], _ => rfl
  | item :: rest, distinct => by
    have ⟨first, later⟩ := Bool.and_eq_true_iff.mp distinct
    exact Bool.and_eq_true_iff.mpr ⟨distinct_canonical item first, distinct_canonicalItems rest later⟩

theorem distinct_canonicalMembers : ∀ members : List (String × Json), keysDistinctMembers members = true →
    keysDistinctMembers (canonicalMembers members) = true
  | [], _ => rfl
  | (_, value) :: rest, distinct => by
    have ⟨first, later⟩ := Bool.and_eq_true_iff.mp distinct
    exact Bool.and_eq_true_iff.mpr ⟨distinct_canonical value first, distinct_canonicalMembers rest later⟩

end

theorem jsonValuesEqual_iff {left right : Json} (finite : left.Finite) (finite' : right.Finite) :
    jsonValuesEqual left right = true ↔ left.meaning = right.meaning := by
  rw [jsonValuesEqual_eq left right finite.1 finite'.1]
  exact valuesEqual_iff left right (keyed_of_distinct left finite.2) (keyed_of_distinct right finite'.2)

/-! Texts. -/

section
variable (print : Json → String) (read : String → Except String Json)

def canonicalJsonText (text : String) : Except String String := do
  let parsed ← read text
  return print (canonicalValue parsed)

variable {print read} {Known : Json → Prop}

theorem canonicalJsonText_ok {text canonical : String} (written : canonicalJsonText print read text = .ok canonical) :
    ∃ value, read text = .ok value ∧ print (canonicalValue value) = canonical := by
  have ⟨value, parsed, returned⟩ := Schema.bind_ok.mp written
  exact ⟨value, parsed, Except.ok.inj returned⟩

theorem reads_canonical
    (reads : ∀ value, (∀ leaf ∈ value.leaves, Known leaf) → value.keysDistinct = true → read (print value) = .ok value)
    (sound : ∀ text value, read text = .ok value → (∀ leaf ∈ value.leaves, Known leaf) ∧ value.keysDistinct = true)
    {text : String} {value : Json} (parsed : read text = .ok value) :
    canonicalValue value = value.canonical ∧ read (print value.canonical) = .ok value.canonical := by
  have ⟨known, distinct⟩ := sound text value parsed
  refine ⟨canonicalValue_eq value distinct, reads _ ?_ (distinct_canonical value distinct)⟩
  exact fun leaf listed => known leaf (mem_leaves_canonical value listed)

/-- The equality of finite values is an equivalence and exact on numbers; a canonical text is its own, does not show
    the order of members, and stands for equal values only. The parser reads what the printer writes of a value
    with such leaves as it gives itself. -/
theorem json_equality_canonical
    (reads : ∀ value, (∀ leaf ∈ value.leaves, Known leaf) → value.keysDistinct = true → read (print value) = .ok value)
    (sound : ∀ text value, read text = .ok value → (∀ leaf ∈ value.leaves, Known leaf) ∧ value.keysDistinct = true)
    (stored : ∀ leaf, Known leaf → leaf.Storable) :
    Equivalence (fun left right : { value : Json // value.Finite } => jsonValuesEqual left.1 right.1 = true) ∧
    (∀ left right : Json, left.Finite → right.Finite → left.isNumber = true → right.isNumber = true →
      (jsonValuesEqual left right = true ↔ left.exactNumber = right.exactNumber)) ∧
    (∀ text canonical, canonicalJsonText print read text = .ok canonical →
      canonicalJsonText print read canonical = .ok canonical) ∧
    (∀ text other left right, read text = .ok left → read other = .ok right → Rearranged left right →
      canonicalJsonText print read text = canonicalJsonText print read other) ∧
    ∀ text other canonical, canonicalJsonText print read text = .ok canonical →
      canonicalJsonText print read other = .ok canonical →
        ∃ left right, read text = .ok left ∧ read other = .ok right ∧ jsonValuesEqual left right = true := by
  have finite {text : String} {value : Json} (parsed : read text = .ok value) : value.Finite := by
    have ⟨known, distinct⟩ := sound text value parsed
    exact ⟨fun leaf listed => stored leaf (known leaf listed), distinct⟩
  refine ⟨⟨?_, ?_, ?_⟩, ?_, ?_, ?_, ?_⟩
  · intro value
    exact (jsonValuesEqual_iff value.2 value.2).mpr rfl
  · intro left right same
    rw [jsonValuesEqual_iff left.2 right.2] at same
    exact (jsonValuesEqual_iff right.2 left.2).mpr same.symm
  · intro left middle right same same'
    rw [jsonValuesEqual_iff left.2 middle.2] at same
    rw [jsonValuesEqual_iff middle.2 right.2] at same'
    exact (jsonValuesEqual_iff left.2 right.2).mpr (same.trans same')
  · intro left right finite finite' number number'
    rw [jsonValuesEqual_iff finite finite', meaning_number number, meaning_number number', Json.float.injEq]
  · intro text canonical written
    have ⟨value, parsed, printed⟩ := canonicalJsonText_ok written
    have ⟨is, again⟩ := reads_canonical reads sound parsed
    have ⟨same, _⟩ := reads_canonical reads sound again
    rw [is] at printed
    rw [← printed, canonicalJsonText, again]
    show Except.ok (print (canonicalValue value.canonical)) = _
    rw [same, canonical_canonical]
  · intro text other left right parsed parsed' moved
    have ⟨is, _⟩ := reads_canonical reads sound parsed
    have ⟨is', _⟩ := reads_canonical reads sound parsed'
    rw [canonicalJsonText, canonicalJsonText, parsed, parsed']
    show Except.ok (print (canonicalValue left)) = Except.ok (print (canonicalValue right))
    rw [is, is', canonical_of_rearranged left right (finite parsed).2 moved]
  · intro text other canonical written written'
    have ⟨left, parsed, printed⟩ := canonicalJsonText_ok written
    have ⟨right, parsed', printed'⟩ := canonicalJsonText_ok written'
    have ⟨is, again⟩ := reads_canonical reads sound parsed
    have ⟨is', again'⟩ := reads_canonical reads sound parsed'
    rw [is] at printed
    rw [is'] at printed'
    have same : left.canonical = right.canonical := by
      rw [printed.trans printed'.symm, again'] at again
      exact (Except.ok.inj again).symm
    exact ⟨left, right, parsed, parsed',
      (jsonValuesEqual_iff (finite parsed) (finite parsed')).mpr (meaning_of_canonical same)⟩

end

/-- A parser and printer of values without numbers. -/
theorem json_equality_canonical_plain :
    Equivalence (fun left right : { value : Json // value.Finite } => jsonValuesEqual left.1 right.1 = true) ∧
    (∀ left right : Json, left.Finite → right.Finite → left.isNumber = true → right.isNumber = true →
      (jsonValuesEqual left right = true ↔ left.exactNumber = right.exactNumber)) ∧
    (∀ text canonical, canonicalJsonText plainPrint plainRead text = .ok canonical →
      canonicalJsonText plainPrint plainRead canonical = .ok canonical) ∧
    (∀ text other left right, plainRead text = .ok left → plainRead other = .ok right → Rearranged left right →
      canonicalJsonText plainPrint plainRead text = canonicalJsonText plainPrint plainRead other) ∧
    ∀ text other canonical, canonicalJsonText plainPrint plainRead text = .ok canonical →
      canonicalJsonText plainPrint plainRead other = .ok canonical →
        ∃ left right, plainRead text = .ok left ∧ plainRead other = .ok right ∧ jsonValuesEqual left right = true :=
  json_equality_canonical plainLibrary.reads (fun _ _ => plainLibrary.sound) (by
    intro leaf constant
    cases leaf with
    | null | bool => trivial
    | _ => cases constant)

end Fala.Json
