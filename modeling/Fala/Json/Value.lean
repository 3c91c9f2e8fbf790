import Mathlib.Data.List.Nodup
import Mathlib.Data.List.Perm.Basic

namespace Fala

/-- A parsed JSON value. Integers keep the representation the parser gives them,
    and an object its members in the order they are held. -/
inductive Json where
  | null
  | bool (value : Bool)
  | int (value : Int)
  | uint (value : Nat)
  | float (value : Rat)
  | str (value : String)
  | arr (items : List Json)
  | obj (members : List (String × Json))
  deriving Inhabited

namespace Json

mutual

def same : Json → Json → Bool
  | .null, .null => true
  | .bool a, .bool b => a == b
  | .int a, .int b => a == b
  | .uint a, .uint b => a == b
  | .float a, .float b => decide (a = b)
  | .str a, .str b => a == b
  | .arr items, .arr others => sameItems items others
  | .obj members, .obj others => sameMembers members others
  | _, _ => false

def sameItems : List Json → List Json → Bool
  | [], [] => true
  | a :: as, b :: bs => same a b && sameItems as bs
  | _, _ => false

def sameMembers : List (String × Json) → List (String × Json) → Bool
  | [], [] => true
  | (k, a) :: as, (l, b) :: bs => k == l && (same a b && sameMembers as bs)
  | _, _ => false

end

mutual

theorem same_iff : ∀ left right : Json, same left right = true ↔ left = right
  | .null, right | .bool _, right | .int _, right | .uint _, right | .float _, right
  | .str _, right => by cases right <;> simp [same]
  | .arr items, right => by
    cases right <;> simp [same]
    exact sameItems_iff items _
  | .obj members, right => by
    cases right <;> simp [same]
    exact sameMembers_iff members _

theorem sameItems_iff : ∀ left right, sameItems left right = true ↔ left = right
  | [], right => by cases right <;> simp [sameItems]
  | a :: as, right => by
    cases right with
    | nil => simp [sameItems]
    | cons b bs => simp [sameItems, same_iff a b, sameItems_iff as bs]

theorem sameMembers_iff : ∀ left right, sameMembers left right = true ↔ left = right
  | [], right => by cases right <;> simp [sameMembers]
  | (k, a) :: as, right => by
    cases right with
    | nil => simp [sameMembers]
    | cons head bs =>
      simp [sameMembers, same_iff a head.2, sameMembers_iff as bs, Prod.ext_iff, and_assoc]

end

instance : DecidableEq Json := fun left right => decidable_of_iff _ (same_iff left right)

/-- The member of an object under a key. -/
def lookup (key : String) : List (String × Json) → Option Json
  | [] => none
  | (name, value) :: rest => if name = key then some value else lookup key rest

theorem lookup_append (key : String) (members others : List (String × Json)) :
    lookup key (members ++ others) = (lookup key members).or (lookup key others) := by
  induction members with
  | nil => rfl
  | cons head rest ih =>
    obtain ⟨name, value⟩ := head
    by_cases here : name = key <;> simp [lookup, here, ih]

theorem lookup_singleton (key name : String) (value : Json) :
    lookup key [(name, value)] = if name = key then some value else none := rfl

/-- `key in value.object()` and the member found, for a value that is an object. -/
def member (key : String) : Json → Option Json
  | .obj members => lookup key members
  | _ => none

/-- `_sort_strings` on the keys, each carrying its value. -/
def insertMember (name : String) (value : Json) : List (String × Json) → List (String × Json)
  | [] => [(name, value)]
  | (other, held) :: rest =>
    if other < name then (other, held) :: insertMember name value rest
    else (name, value) :: (other, held) :: rest

def sortMembers : List (String × Json) → List (String × Json)
  | [] => []
  | (name, value) :: rest => insertMember name value (sortMembers rest)

mutual

/-- `_canonical_value`: the keys of every object in increasing order. -/
def canonical : Json → Json
  | .arr items => .arr (canonicalItems items)
  | .obj members => .obj (sortMembers (canonicalMembers members))
  | value => value

def canonicalItems : List Json → List Json
  | [] => []
  | item :: rest => canonical item :: canonicalItems rest

def canonicalMembers : List (String × Json) → List (String × Json)
  | [] => []
  | (name, value) :: rest => (name, canonical value) :: canonicalMembers rest

end

theorem lookup_insertMember (key name : String) (value : Json) (members : List (String × Json)) :
    lookup key (insertMember name value members) =
      if name = key then some value else lookup key members := by
  induction members with
  | nil => rfl
  | cons head rest ih =>
    obtain ⟨other, held⟩ := head
    unfold insertMember
    split
    · rename_i before
      have apart : other ≠ name := fun same => String.lt_irrefl name (same ▸ before)
      simp only [lookup, ih]
      by_cases here : other = key
      · have : name ≠ key := fun same => apart (here.trans same.symm)
        simp [here, this]
      · simp [here]
    · rfl

theorem lookup_sortMembers (key : String) (members : List (String × Json)) :
    lookup key (sortMembers members) = lookup key members := by
  induction members with
  | nil => rfl
  | cons head rest ih =>
    obtain ⟨name, value⟩ := head
    simp only [sortMembers, lookup_insertMember, ih, lookup]

theorem lookup_canonicalMembers (key : String) (members : List (String × Json)) :
    lookup key (canonicalMembers members) = (lookup key members).map canonical := by
  induction members with
  | nil => rfl
  | cons head rest ih =>
    obtain ⟨name, value⟩ := head
    by_cases here : name = key <;> simp [canonicalMembers, lookup, here, ih]

theorem canonicalMembers_append (members others : List (String × Json)) :
    canonicalMembers (members ++ others) = canonicalMembers members ++ canonicalMembers others := by
  induction members with
  | nil => rfl
  | cons head rest ih => rw [List.cons_append, canonicalMembers, canonicalMembers, ih, List.cons_append]

theorem member_canonical (key : String) (value : Json) :
    value.canonical.member key = (value.member key).map canonical := by
  cases value with
  | obj members => simp only [canonical, member, lookup_sortMembers, lookup_canonicalMembers]
  | _ => simp [canonical, member]

theorem canonicalMembers_insertMember (name : String) (value : Json)
    (members : List (String × Json)) :
    canonicalMembers (insertMember name value members) =
      insertMember name value.canonical (canonicalMembers members) := by
  induction members with
  | nil => rfl
  | cons head rest ih =>
    obtain ⟨other, held⟩ := head
    by_cases before : other < name <;> simp [insertMember, canonicalMembers, before, ih]

theorem canonicalMembers_sortMembers (members : List (String × Json)) :
    canonicalMembers (sortMembers members) = sortMembers (canonicalMembers members) := by
  induction members with
  | nil => rfl
  | cons head rest ih =>
    obtain ⟨name, value⟩ := head
    simp only [sortMembers, canonicalMembers, canonicalMembers_insertMember, ih]

/-- Members in the order that sorting by key gives them. -/
def Sorted : List (String × Json) → Prop
  | [] => True
  | [_] => True
  | (name, _) :: (other, held) :: rest => ¬ other < name ∧ Sorted ((other, held) :: rest)

theorem Sorted.insertMember {members : List (String × Json)} (sorted : Sorted members)
    (name : String) (value : Json) : Sorted (insertMember name value members) := by
  induction members with
  | nil => exact True.intro
  | cons head rest ih =>
    obtain ⟨other, held⟩ := head
    unfold Json.insertMember
    split
    · rename_i before
      cases rest with
      | nil => exact ⟨String.lt_asymm before, True.intro⟩
      | cons next rest =>
        have kept := ih sorted.2
        unfold Json.insertMember at kept ⊢
        split
        · rename_i later
          rw [if_pos later] at kept
          exact ⟨sorted.1, kept⟩
        · rename_i later
          rw [if_neg later] at kept
          exact ⟨String.lt_asymm before, kept⟩
    · rename_i before
      exact ⟨before, sorted⟩

theorem sortMembers_sorted (members : List (String × Json)) : Sorted (sortMembers members) := by
  induction members with
  | nil => exact True.intro
  | cons head rest ih => exact ih.insertMember head.1 head.2

theorem Sorted.sortMembers_eq {members : List (String × Json)} (sorted : Sorted members) :
    sortMembers members = members := by
  induction members with
  | nil => rfl
  | cons head rest ih =>
    cases rest with
    | nil => rfl
    | cons next rest =>
      rw [sortMembers, ih sorted.2, Json.insertMember, if_neg sorted.1]

theorem insertMember_perm (name : String) (value : Json) (members : List (String × Json)) :
    (insertMember name value members).Perm ((name, value) :: members) := by
  induction members with
  | nil => exact .refl _
  | cons head rest ih =>
    unfold insertMember
    split
    · exact (ih.cons head).trans (.swap ..)
    · exact .refl _

theorem sortMembers_perm (members : List (String × Json)) : (sortMembers members).Perm members := by
  induction members with
  | nil => exact .refl _
  | cons head rest ih => exact (insertMember_perm head.1 head.2 _).trans (ih.cons head)

theorem names_canonicalMembers (members : List (String × Json)) :
    (canonicalMembers members).map Prod.fst = members.map Prod.fst := by
  induction members with
  | nil => rfl
  | cons head rest ih => simp [canonicalMembers, ih]

theorem insertMember_comm {name other : String} (apart : name ≠ other) (value held : Json)
    (members : List (String × Json)) :
    insertMember name value (insertMember other held members) =
      insertMember other held (insertMember name value members) := by
  have ordered : name < other ↔ ¬ other < name := by
    constructor
    · exact String.lt_asymm
    · intro notBefore
      by_contra notAfter
      exact apart (String.le_antisymm (String.not_lt.mp notBefore) (String.not_lt.mp notAfter))
  induction members with
  | nil =>
    by_cases first : other < name
    · simp [insertMember, first, ordered]
    · simp [insertMember, first, ordered.mpr first]
  | cons head rest ih =>
    obtain ⟨third, kept⟩ := head
    by_cases left : third < name <;> by_cases right : third < other
    · simp [insertMember, left, right, ih]
    · have first : other < name := by
        by_contra notBefore
        exact right (String.lt_trans left (ordered.mpr notBefore))
      simp [insertMember, left, right, first]
    · have first : ¬ other < name := fun before => left (String.lt_trans right before)
      simp [insertMember, left, right, ordered.mpr first]
    · by_cases first : other < name
      · simp [insertMember, left, right, first, ordered]
      · simp [insertMember, left, right, first, ordered.mpr first]

theorem sortMembers_eq_of_perm {members others : List (String × Json)} (same : members.Perm others)
    (distinct : (members.map Prod.fst).Nodup) : sortMembers members = sortMembers others := by
  induction same with
  | nil => rfl
  | cons head _ ih => rw [sortMembers, sortMembers, ih (List.nodup_cons.mp distinct).2]
  | swap first second rest =>
    have apart : first.1 ≠ second.1 := by
      intro equal
      simp [equal] at distinct
    exact insertMember_comm apart.symm ..
  | trans left _ ih ih' => rw [ih distinct, ih' ((left.map Prod.fst).nodup_iff.mp distinct)]

theorem canonicalMembers_eq_map (members : List (String × Json)) :
    canonicalMembers members = members.map fun m => (m.1, m.2.canonical) := by
  induction members with
  | nil => rfl
  | cons head rest ih => rw [canonicalMembers, ih, List.map_cons]

theorem canonical_perm {members others : List (String × Json)} (same : members.Perm others)
    (distinct : (members.map Prod.fst).Nodup) : (obj members).canonical = (obj others).canonical := by
  rw [canonical, canonical, canonicalMembers_eq_map, canonicalMembers_eq_map]
  refine congrArg obj (sortMembers_eq_of_perm (same.map _) ?_)
  rw [List.map_map]
  exact distinct

theorem lookup_mem {key : String} {value : Json} {members : List (String × Json)}
    (found : lookup key members = some value) : (key, value) ∈ members := by
  induction members with
  | nil => cases found
  | cons head rest ih =>
    obtain ⟨name, held⟩ := head
    by_cases here : name = key
    · simp only [lookup, here, if_true, Option.some.injEq] at found
      simp [here, found]
    · simp only [lookup, here, if_false] at found
      exact List.mem_cons_of_mem _ (ih found)

theorem lookup_iff {key : String} {value : Json} {members : List (String × Json)}
    (distinct : (members.map Prod.fst).Nodup) : lookup key members = some value ↔ (key, value) ∈ members := by
  refine ⟨lookup_mem, fun member => ?_⟩
  induction members with
  | nil => cases member
  | cons head rest ih =>
    obtain ⟨apart, later⟩ := List.nodup_cons.mp distinct
    rcases List.mem_cons.mp member with rfl | member
    · simp [lookup]
    · have other : head.1 ≠ key := fun same => apart (same ▸ List.mem_map_of_mem member)
      rw [lookup, if_neg other]
      exact ih later member

theorem lookup_none_iff {key : String} {members : List (String × Json)} :
    lookup key members = none ↔ key ∉ members.map Prod.fst := by
  induction members with
  | nil => simp [lookup]
  | cons head rest ih =>
    obtain ⟨name, held⟩ := head
    by_cases here : name = key
    · simp [lookup, here]
    · simp [lookup, here, Ne.symm here, ih]

theorem perm_of_lookup {members others : List (String × Json)} (left : (members.map Prod.fst).Nodup)
    (right : (others.map Prod.fst).Nodup) (same : ∀ key, lookup key members = lookup key others) :
    members.Perm others := by
  refine (List.perm_ext_iff_of_nodup (.of_map Prod.fst left) (.of_map Prod.fst right)).mpr fun m => ?_
  rw [show m = (m.1, m.2) from rfl, ← lookup_iff left, ← lookup_iff right, same]

theorem lookup_filter_ne (key other : String) (members : List (String × Json)) :
    lookup key (members.filter fun m => m.1 ≠ other) = if key = other then none else lookup key members := by
  induction members with
  | nil => simp [lookup]
  | cons head rest ih =>
    obtain ⟨name, held⟩ := head
    by_cases out : name = other
    · subst out
      rw [List.filter_cons_of_neg (by simp), ih, lookup]
      by_cases here : key = name
      · simp [here]
      · simp [here, Ne.symm here]
    · rw [List.filter_cons_of_pos (by simpa using out), lookup, ih, lookup]
      by_cases here : name = key
      · subst here
        simp [out]
      · simp [here]

mutual

theorem canonical_canonical : ∀ value : Json, value.canonical.canonical = value.canonical
  | .null | .bool _ | .int _ | .uint _ | .float _ | .str _ => by simp [canonical]
  | .arr items => by simp [canonical, canonicalItems_canonicalItems items]
  | .obj members => by
    simp only [canonical, canonicalMembers_sortMembers, canonicalMembers_canonicalMembers members,
      (sortMembers_sorted _).sortMembers_eq]

theorem canonicalItems_canonicalItems :
    ∀ items, canonicalItems (canonicalItems items) = canonicalItems items
  | [] => rfl
  | item :: rest => by
    simp only [canonicalItems, canonical_canonical item, canonicalItems_canonicalItems rest]

theorem canonicalMembers_canonicalMembers :
    ∀ members, canonicalMembers (canonicalMembers members) = canonicalMembers members
  | [] => rfl
  | (name, value) :: rest => by
    simp only [canonicalMembers, canonical_canonical value, canonicalMembers_canonicalMembers rest]

end

end Json
end Fala
