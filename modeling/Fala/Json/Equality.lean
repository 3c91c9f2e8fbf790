import Fala.Durable.Assoc
import Fala.Json.Value
import Fala.Json.Schema

/-! The members of an object, as entries under their names. -/

namespace Fala.Json
open Durable

variable {members others : List (String × Json)}

theorem lookup_eq_find (key : String) (members : List (String × Json)) : lookup key members = Assoc.find key members := by
  induction members with
  | nil => rfl
  | cons head rest ih => rw [lookup, Assoc.find, ih]

theorem canonical_obj_eq_iff (left : (members.map Prod.fst).Nodup) (right : (others.map Prod.fst).Nodup) :
    (obj members).canonical = (obj others).canonical ↔
      ∀ key, (lookup key members).map canonical = (lookup key others).map canonical := by
  constructor
  · intro same key
    have held := congrArg (member key) same
    rwa [member_canonical, member_canonical] at held
  · intro same
    have perm : (canonicalMembers members).Perm (canonicalMembers others) := by
      apply perm_of_lookup
      · rwa [names_canonicalMembers]
      · rwa [names_canonicalMembers]
      · intro key
        rw [lookup_canonicalMembers, lookup_canonicalMembers, same]
    rw [canonical, canonical]
    refine congrArg obj (sortMembers_eq_of_perm perm ?_)
    rwa [names_canonicalMembers]

end Fala.Json

/-! What a JSON value means, apart from the spelling of its numbers and the order of its members. -/

namespace Fala.Json

mutual

/-- Numbers as they are exactly. -/
def widen : Json → Json
  | .int n => .float n
  | .uint n => .float n
  | .arr items => .arr (widenItems items)
  | .obj members => .obj (widenMembers members)
  | value => value

def widenItems : List Json → List Json
  | [] => []
  | item :: rest => widen item :: widenItems rest

def widenMembers : List (String × Json) → List (String × Json)
  | [] => []
  | (name, value) :: rest => (name, widen value) :: widenMembers rest

end

def meaning (value : Json) : Json := value.widen.canonical

mutual

/-- Every object names each of its members once. -/
def Keyed : Json → Prop
  | .arr items => KeyedItems items
  | .obj members => (members.map Prod.fst).Nodup ∧ KeyedMembers members
  | _ => True

def KeyedItems : List Json → Prop
  | [] => True
  | item :: rest => Keyed item ∧ KeyedItems rest

def KeyedMembers : List (String × Json) → Prop
  | [] => True
  | (_, value) :: rest => Keyed value ∧ KeyedMembers rest

end

theorem keyedItems_iff {items : List Json} : KeyedItems items ↔ ∀ item ∈ items, item.Keyed := by
  induction items with
  | nil => simp [KeyedItems]
  | cons item rest ih => simp [KeyedItems, ih]

theorem keyedMembers_iff {members : List (String × Json)} : KeyedMembers members ↔ ∀ m ∈ members, m.2.Keyed := by
  induction members with
  | nil => simp [KeyedMembers]
  | cons head rest ih => simp [KeyedMembers, ih]

theorem widenMembers_eq_map (members : List (String × Json)) :
    widenMembers members = members.map fun m => (m.1, m.2.widen) := by
  induction members with
  | nil => rfl
  | cons head rest ih => rw [widenMembers, ih, List.map_cons]

theorem names_widenMembers (members : List (String × Json)) :
    (widenMembers members).map Prod.fst = members.map Prod.fst := by
  rw [widenMembers_eq_map, List.map_map]
  rfl

theorem lookup_widenMembers (key : String) (members : List (String × Json)) :
    (lookup key (widenMembers members)).map canonical = (lookup key members).map meaning := by
  induction members with
  | nil => rfl
  | cons head rest ih =>
    by_cases here : head.1 = key
    · simp only [widenMembers, lookup, here, if_true, Option.map_some, meaning]
    · simp only [widenMembers, lookup, here, if_false, ih]

theorem meaning_number {value : Json} (numeric : value.isNumber = true) : value.meaning = .float value.exactNumber := by
  cases value <;> first | rfl | cases numeric

theorem meaning_arr (items : List Json) : (arr items).meaning = .arr (items.map meaning) := by
  have each : canonicalItems (widenItems items) = items.map meaning := by
    induction items with
    | nil => rfl
    | cons item rest ih => rw [widenItems, canonicalItems, ih, List.map_cons, meaning]
  rw [← each]
  rfl

theorem meaning_obj_eq_iff {members others : List (String × Json)} (left : (members.map Prod.fst).Nodup)
    (right : (others.map Prod.fst).Nodup) : (obj members).meaning = (obj others).meaning ↔
      ∀ key, (lookup key members).map meaning = (lookup key others).map meaning := by
  rw [meaning, meaning, widen, widen, canonical_obj_eq_iff]
  · simp only [lookup_widenMembers]
  · rwa [names_widenMembers]
  · rwa [names_widenMembers]

theorem lookup_names {key : String} {members : List (String × Json)} :
    (lookup key members).isSome = true ↔ key ∈ members.map Prod.fst := by
  rw [lookup_eq_find, Durable.Assoc.find_isSome]

theorem lookup_of_mem {key : String} {value : Json} {members : List (String × Json)}
    (distinct : (members.map Prod.fst).Nodup) (listed : (key, value) ∈ members) : lookup key members = some value := by
  rw [lookup_eq_find]
  exact Durable.Assoc.find_of_mem distinct listed

theorem meaning_obj_of_included {members others : List (String × Json)} (left : (members.map Prod.fst).Nodup)
    (right : (others.map Prod.fst).Nodup) (size : members.length = others.length)
    (included : ∀ m ∈ members, ∃ value, lookup m.1 others = some value ∧ m.2.meaning = value.meaning) :
    (obj members).meaning = (obj others).meaning := by
  rw [meaning_obj_eq_iff left right]
  have names : ∀ key ∈ members.map Prod.fst, key ∈ others.map Prod.fst := by
    intro key listed
    have ⟨m, member, named⟩ := List.mem_map.mp listed
    have ⟨value, found, _⟩ := included m member
    rw [← named]
    exact lookup_names.mp (by rw [found]; rfl)
  have perm : (members.map Prod.fst).Perm (others.map Prod.fst) := by
    refine (List.subperm_of_subset left names).perm_of_length_le ?_
    rw [List.length_map, List.length_map]
    exact Nat.le_of_eq size.symm
  intro key
  cases found : lookup key members with
  | some value =>
    have ⟨other, there, same⟩ := included (key, value) (lookup_mem found)
    rw [there, Option.map_some, Option.map_some, same]
  | none =>
    have absent : key ∉ members.map Prod.fst := by
      intro listed
      have some_ := lookup_names.mpr listed
      rw [found] at some_
      cases some_
    cases other : lookup key others with
    | none => rfl
    | some value => exact absurd (perm.mem_iff.mpr (lookup_names.mp (by rw [other]; rfl))) absent

theorem included_of_meaning {members others : List (String × Json)} (left : (members.map Prod.fst).Nodup)
    (right : (others.map Prod.fst).Nodup) (same : (obj members).meaning = (obj others).meaning) :
    members.length = others.length ∧
      ∀ m ∈ members, ∃ value, lookup m.1 others = some value ∧ m.2.meaning = value.meaning := by
  rw [meaning_obj_eq_iff left right] at same
  have names : ∀ key, key ∈ members.map Prod.fst ↔ key ∈ others.map Prod.fst := by
    intro key
    have sizes := congrArg Option.isSome (same key)
    rw [Option.isSome_map, Option.isSome_map] at sizes
    rw [← lookup_names, ← lookup_names, sizes]
  have perm := (List.perm_ext_iff_of_nodup left right).mpr names
  have size := perm.length_eq
  rw [List.length_map, List.length_map] at size
  refine ⟨size, ?_⟩
  intro m listed
  have held := same m.1
  rw [lookup_of_mem left listed] at held
  cases other : lookup m.1 others with
  | none =>
    rw [other] at held
    cases held
  | some value =>
    rw [other, Option.map_some, Option.map_some] at held
    exact ⟨value, rfl, Option.some.inj held⟩

mutual

/-- `json_values_equal` tells values apart by their meaning. -/
theorem valuesEqual_iff : ∀ left right : Json, left.Keyed → right.Keyed →
    (valuesEqual left right = true ↔ left.meaning = right.meaning)
  | .null, right, _, _ | .bool _, right, _, _ | .str _, right, _, _ => by
    cases right <;> simp [valuesEqual, meaning, widen, canonical]
  | .int _, right, _, _ | .uint _, right, _, _ | .float _, right, _, _ => by
    cases right <;> simp [valuesEqual, meaning, widen, canonical, isNumber, exactNumber] <;> exact decide_eq_true_iff
  | .arr items, right, left, keyed => by
    cases right with
    | arr others =>
      rw [valuesEqual, itemsEqual_iff items others left keyed, meaning_arr, meaning_arr, Json.arr.injEq]
    | _ => simp [valuesEqual, meaning, widen, canonical]
  | .obj members, right, left, keyed => by
    cases right with
    | obj others =>
      have ⟨distinct, inner⟩ := left
      have ⟨distinct', inner'⟩ := keyed
      rw [valuesEqual, Bool.and_eq_true, beq_iff_eq, membersEqual_iff members others inner inner']
      constructor
      · rintro ⟨size, included⟩
        exact meaning_obj_of_included distinct distinct' size included
      · exact included_of_meaning distinct distinct'
    | _ => simp [valuesEqual, meaning, widen, canonical]

theorem itemsEqual_iff : ∀ items others : List Json, KeyedItems items → KeyedItems others →
    (itemsEqual items others = true ↔ items.map meaning = others.map meaning)
  | [], others, _, _ => by cases others <;> simp [itemsEqual]
  | item :: rest, others, left, keyed => by
    cases others with
    | nil => simp [itemsEqual]
    | cons other others =>
      rw [itemsEqual, Bool.and_eq_true, valuesEqual_iff item other left.1 keyed.1,
        itemsEqual_iff rest others left.2 keyed.2, List.map_cons, List.map_cons, List.cons.injEq]

theorem membersEqual_iff : ∀ members others : List (String × Json), KeyedMembers members → KeyedMembers others →
    (membersEqual members others = true ↔
      ∀ m ∈ members, ∃ value, lookup m.1 others = some value ∧ m.2.meaning = value.meaning)
  | [], others, _, _ => by simp [membersEqual]
  | (name, held) :: rest, others, left, keyed => by
    rw [membersEqual, Bool.and_eq_true, membersEqual_iff rest others left.2 keyed, List.forall_mem_cons]
    cases found : lookup name others with
    | none => simp
    | some value =>
      have inner := keyedMembers_iff.mp keyed _ (lookup_mem found)
      simp [valuesEqual_iff held value left.1 inner]

end

end Fala.Json
