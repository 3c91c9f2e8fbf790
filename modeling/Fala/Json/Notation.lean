import Fala.Json.Value
import Fala.Text.Substitution

/-! The texts in a value, how a printer spells a value, and what a substitution does to the spelling. -/

namespace Fala.Json
open Substitution

mutual

/-- A value with every key and every text in it changed. -/
def mapTexts (f : String → String) : Json → Json
  | .str text => .str (f text)
  | .arr items => .arr (mapTextsItems f items)
  | .obj members => .obj (mapTextsMembers f members)
  | value => value

def mapTextsItems (f : String → String) : List Json → List Json
  | [] => []
  | item :: rest => mapTexts f item :: mapTextsItems f rest

def mapTextsMembers (f : String → String) : List (String × Json) → List (String × Json)
  | [] => []
  | (name, value) :: rest => (f name, mapTexts f value) :: mapTextsMembers f rest

end

mutual

/-- The keys and the texts in a value. -/
def texts : Json → List String
  | .str text => [text]
  | .arr items => textsItems items
  | .obj members => textsMembers members
  | _ => []

def textsItems : List Json → List String
  | [] => []
  | item :: rest => texts item ++ textsItems rest

def textsMembers : List (String × Json) → List String
  | [] => []
  | (name, value) :: rest => name :: texts value ++ textsMembers rest

end

mutual

/-- The numbers and constants in a value. -/
def leaves : Json → List Json
  | .str _ => []
  | .arr items => leavesItems items
  | .obj members => leavesMembers members
  | value => [value]

def leavesItems : List Json → List Json
  | [] => []
  | item :: rest => leaves item ++ leavesItems rest

def leavesMembers : List (String × Json) → List Json
  | [] => []
  | (_, value) :: rest => leaves value ++ leavesMembers rest

end

mutual

/-- Every object in the value names each member once. -/
def keysDistinct : Json → Bool
  | .arr items => keysDistinctItems items
  | .obj members => decide (members.map Prod.fst).Nodup && keysDistinctMembers members
  | _ => true

def keysDistinctItems : List Json → Bool
  | [] => true
  | item :: rest => keysDistinct item && keysDistinctItems rest

def keysDistinctMembers : List (String × Json) → Bool
  | [] => true
  | (_, value) :: rest => keysDistinct value && keysDistinctMembers rest

end

section Lists
variable {f : String → String} {items : List Json} {members : List (String × Json)}

theorem mapTextsItems_eq : mapTextsItems f items = items.map (mapTexts f) := by
  induction items with
  | nil => rfl
  | cons item rest ih => rw [mapTextsItems, ih, List.map_cons]

theorem textsItems_eq : textsItems items = items.flatMap texts := by
  induction items with
  | nil => rfl
  | cons item rest ih => rw [textsItems, ih, List.flatMap_cons]

theorem textsMembers_eq : textsMembers members = members.flatMap fun m => m.1 :: texts m.2 := by
  induction members with
  | nil => rfl
  | cons m rest ih => rw [textsMembers, ih, List.flatMap_cons]

theorem leavesItems_eq : leavesItems items = items.flatMap leaves := by
  induction items with
  | nil => rfl
  | cons item rest ih => rw [leavesItems, ih, List.flatMap_cons]

theorem leavesMembers_eq : leavesMembers members = members.flatMap fun m => leaves m.2 := by
  induction members with
  | nil => rfl
  | cons m rest ih => rw [leavesMembers, ih, List.flatMap_cons]

theorem keysDistinctItems_iff : keysDistinctItems items = true ↔ ∀ item ∈ items, keysDistinct item = true := by
  induction items with
  | nil => simp [keysDistinctItems]
  | cons item rest ih => simp [keysDistinctItems, ih]

theorem keysDistinctMembers_iff :
    keysDistinctMembers members = true ↔ ∀ m ∈ members, keysDistinct m.2 = true := by
  induction members with
  | nil => simp [keysDistinctMembers]
  | cons m rest ih => simp [keysDistinctMembers, ih]

theorem keysDistinct_obj : keysDistinct (.obj members) = true ↔
    (members.map Prod.fst).Nodup ∧ ∀ m ∈ members, keysDistinct m.2 = true := by
  rw [keysDistinct, Bool.and_eq_true, decide_eq_true_eq, keysDistinctMembers_iff]

end Lists

/-! Changing the texts. -/

mutual

theorem mapTexts_mapTexts (f g : String → String) : ∀ value, mapTexts g (mapTexts f value) = mapTexts (g ∘ f) value
  | .null | .bool _ | .int _ | .uint _ | .float _ | .str _ => rfl
  | .arr items => congrArg Json.arr (mapTextsItems_mapTexts f g items)
  | .obj members => congrArg Json.obj (mapTextsMembers_mapTexts f g members)

theorem mapTextsItems_mapTexts (f g : String → String) :
    ∀ items, mapTextsItems g (mapTextsItems f items) = mapTextsItems (g ∘ f) items
  | [] => rfl
  | item :: rest => by
    simp only [mapTextsItems, mapTexts_mapTexts f g item, mapTextsItems_mapTexts f g rest]

theorem mapTextsMembers_mapTexts (f g : String → String) :
    ∀ members, mapTextsMembers g (mapTextsMembers f members) = mapTextsMembers (g ∘ f) members
  | [] => rfl
  | (name, value) :: rest => by
    simp only [mapTextsMembers, mapTexts_mapTexts f g value, mapTextsMembers_mapTexts f g rest, Function.comp_apply]

end

mutual

theorem mapTexts_id : ∀ value, mapTexts id value = value
  | .null | .bool _ | .int _ | .uint _ | .float _ | .str _ => rfl
  | .arr items => congrArg Json.arr (mapTextsItems_id items)
  | .obj members => congrArg Json.obj (mapTextsMembers_id members)

theorem mapTextsItems_id : ∀ items, mapTextsItems id items = items
  | [] => rfl
  | item :: rest => by simp only [mapTextsItems, mapTexts_id item, mapTextsItems_id rest]

theorem mapTextsMembers_id : ∀ members, mapTextsMembers id members = members
  | [] => rfl
  | (name, value) :: rest => by
    simp only [mapTextsMembers, mapTexts_id value, mapTextsMembers_id rest, id_eq]

end

mutual

theorem texts_mapTexts (f : String → String) : ∀ value, (mapTexts f value).texts = value.texts.map f
  | .null | .bool _ | .int _ | .uint _ | .float _ | .str _ => rfl
  | .arr items => textsItems_mapTexts f items
  | .obj members => textsMembers_mapTexts f members

theorem textsItems_mapTexts (f : String → String) :
    ∀ items, textsItems (mapTextsItems f items) = (textsItems items).map f
  | [] => rfl
  | item :: rest => by
    simp only [mapTextsItems, textsItems, texts_mapTexts f item, textsItems_mapTexts f rest, List.map_append]

theorem textsMembers_mapTexts (f : String → String) :
    ∀ members, textsMembers (mapTextsMembers f members) = (textsMembers members).map f
  | [] => rfl
  | (name, value) :: rest => by
    simp only [mapTextsMembers, textsMembers, texts_mapTexts f value, textsMembers_mapTexts f rest, List.map_append,
      List.map_cons, List.cons_append]

end

mutual

theorem leaves_mapTexts (f : String → String) : ∀ value, (mapTexts f value).leaves = value.leaves
  | .null | .bool _ | .int _ | .uint _ | .float _ | .str _ => rfl
  | .arr items => leavesItems_mapTexts f items
  | .obj members => leavesMembers_mapTexts f members

theorem leavesItems_mapTexts (f : String → String) : ∀ items, leavesItems (mapTextsItems f items) = leavesItems items
  | [] => rfl
  | item :: rest => by
    simp only [mapTextsItems, leavesItems, leaves_mapTexts f item, leavesItems_mapTexts f rest]

theorem leavesMembers_mapTexts (f : String → String) :
    ∀ members, leavesMembers (mapTextsMembers f members) = leavesMembers members
  | [] => rfl
  | (name, value) :: rest => by
    simp only [mapTextsMembers, leavesMembers, leaves_mapTexts f value, leavesMembers_mapTexts f rest]

end

mutual

theorem mapTexts_congr {f g : String → String} :
    ∀ value : Json, (∀ text ∈ value.texts, f text = g text) → mapTexts f value = mapTexts g value
  | .null, _ | .bool _, _ | .int _, _ | .uint _, _ | .float _, _ => rfl
  | .str text, same => congrArg Json.str (same text List.mem_cons_self)
  | .arr items, same => congrArg Json.arr (mapTextsItems_congr items same)
  | .obj members, same => congrArg Json.obj (mapTextsMembers_congr members same)

theorem mapTextsItems_congr {f g : String → String} :
    ∀ items, (∀ text ∈ textsItems items, f text = g text) → mapTextsItems f items = mapTextsItems g items
  | [], _ => rfl
  | item :: rest, same => by
    rw [textsItems, List.forall_mem_append] at same
    rw [mapTextsItems, mapTextsItems, mapTexts_congr item same.1, mapTextsItems_congr rest same.2]

theorem mapTextsMembers_congr {f g : String → String} :
    ∀ members, (∀ text ∈ textsMembers members, f text = g text) → mapTextsMembers f members = mapTextsMembers g members
  | [], _ => rfl
  | (name, value) :: rest, same => by
    rw [textsMembers, List.forall_mem_append, List.forall_mem_cons] at same
    rw [mapTextsMembers, mapTextsMembers, mapTexts_congr value same.1.2, mapTextsMembers_congr rest same.2, same.1.1]

end

/-! Sorting the keys. -/

mutual

theorem mem_leaves_canonical {leaf : Json} : ∀ value : Json, leaf ∈ value.canonical.leaves → leaf ∈ value.leaves
  | .null, listed | .bool _, listed | .int _, listed | .uint _, listed | .float _, listed | .str _, listed => listed
  | .arr items, listed => mem_leavesItems_canonical items listed
  | .obj members, listed => by
    rw [canonical, leaves, leavesMembers_eq, (((sortMembers_perm _).flatMap_right _).mem_iff), ← leavesMembers_eq] at listed
    exact mem_leavesMembers_canonical members listed

theorem mem_leavesItems_canonical {leaf : Json} :
    ∀ items, leaf ∈ leavesItems (canonicalItems items) → leaf ∈ leavesItems items
  | [], listed => listed
  | item :: rest, listed => by
    rw [canonicalItems, leavesItems, List.mem_append] at listed
    rw [leavesItems, List.mem_append]
    exact listed.imp (mem_leaves_canonical item) (mem_leavesItems_canonical rest)

theorem mem_leavesMembers_canonical {leaf : Json} :
    ∀ members, leaf ∈ leavesMembers (canonicalMembers members) → leaf ∈ leavesMembers members
  | [], listed => listed
  | (name, value) :: rest, listed => by
    rw [canonicalMembers, leavesMembers, List.mem_append] at listed
    rw [leavesMembers, List.mem_append]
    exact listed.imp (mem_leaves_canonical value) (mem_leavesMembers_canonical rest)

end

/-! The spelling of a value, with a spelling of its leaves and of each character in a text. -/

section Write

variable (scalar : Json → List Char) (escape : Char → List Char)

def writeText (text : String) : List Char := '\x22' :: (text.toList.flatMap escape ++ ['\x22'])

mutual

def write : Json → List Char
  | .str text => writeText escape text
  | .arr items => '[' :: (writeItems items ++ [']'])
  | .obj members => '\x7b' :: (writeMembers members ++ ['\x7d'])
  | value => scalar value

def writeItems : List Json → List Char
  | [] => []
  | item :: rest => write item ++ (if rest = [] then [] else [',']) ++ writeItems rest

def writeMembers : List (String × Json) → List Char
  | [] => []
  | (name, value) :: rest =>
    writeText escape name ++ ':' :: (write value ++ (if rest = [] then [] else [','])) ++ writeMembers rest

end

end Write

/-- Every word of the table is replaced in a text. -/
def substituteIn (table : List (List Char × List Char)) (text : String) : String :=
  String.ofList (substitute table text.toList)

/-- The table with its values as they are spelled in a text. -/
def spelled (escape : Char → List Char) (table : List (List Char × List Char)) : List (List Char × List Char) :=
  table.map fun e => (e.1, e.2.flatMap escape)

/-- A character spelled as itself, or by a sequence that a backslash begins and that has no dollar sign in it. -/
def Escapes (escape : Char → List Char) : Prop :=
  ∀ c, escape c = [c] ∨ ∃ rest, escape c = '\x5c' :: rest ∧ '$' ∉ rest

section Spelled

variable {scalar : Json → List Char} {escape : Char → List Char} {table : List (List Char × List Char)}

/-- The words of a table can be found in spelled texts: nothing in them is spelled otherwise. -/
structure Findable (escape : Char → List Char) (table : List (List Char × List Char)) : Prop where
  proper : Proper '$' '\x7b' table
  plain : ∀ e ∈ table, ∀ c ∈ e.1, escape c = [c] ∧ c ≠ '\x5c' ∧ c ≠ '\x22'

theorem Findable.proper_spelled (findable : Findable escape table) : Proper '$' '\x7b' (spelled escape table) where
  apart := findable.proper.apart
  opens e listed := by
    have ⟨e', listed', same⟩ := List.mem_map.mp listed
    rw [← same]
    exact findable.proper.opens e' listed'
  free e listed e' listed' begins := by
    have ⟨a, among, same⟩ := List.mem_map.mp listed
    have ⟨b, among', same'⟩ := List.mem_map.mp listed'
    subst same same'
    exact findable.proper.free a among b among' begins

theorem flatMap_plain {word : List Char} (plain : ∀ c ∈ word, escape c = [c]) : word.flatMap escape = word := by
  induction word with
  | nil => rfl
  | cons c rest ih =>
    rw [List.forall_mem_cons] at plain
    rw [List.flatMap_cons, plain.1, ih plain.2, List.singleton_append]

theorem prefix_spelled (escapes : Escapes escape) {word : List Char}
    (plain : ∀ c ∈ word, escape c = [c] ∧ c ≠ '\x5c' ∧ c ≠ '\x22') (text after : List Char) :
    word <+: text.flatMap escape ++ '\x22' :: after ↔ word <+: text := by
  induction word generalizing text with
  | nil => simp only [List.nil_prefix]
  | cons c word ih =>
    rw [List.forall_mem_cons] at plain
    have ⟨here, later⟩ := plain
    cases text with
    | nil =>
      rw [List.flatMap_nil, List.nil_append, List.cons_prefix_cons, List.prefix_nil]
      exact iff_of_false (fun begins => here.2.2 begins.1) (List.cons_ne_nil _ _)
    | cons d text =>
      rw [List.flatMap_cons, List.append_assoc, List.cons_prefix_cons]
      rcases escapes d with plainly | ⟨rest, sequence, _⟩
      · rw [plainly, List.singleton_append, List.cons_prefix_cons, ih later]
      · rw [sequence, List.cons_append, List.cons_prefix_cons]
        refine iff_of_false (fun begins => here.2.1 begins.1) ?_
        rintro ⟨rfl, _⟩
        rw [here.1, List.cons.injEq] at sequence
        exact here.2.1 sequence.1

theorem entryAt_spelled (escapes : Escapes escape) (findable : Findable escape table) (text after : List Char) :
    entryAt (spelled escape table) (text.flatMap escape ++ '\x22' :: after) =
      (entryAt table text).map fun e => (e.1, e.2.flatMap escape) := by
  rw [entryAt, spelled, List.find?_map, entryAt]
  congr 1
  apply List.find?_congr
  intro e listed
  rw [Function.comp_apply, decide_eq_decide, prefix_spelled escapes (findable.plain e listed)]

theorem substitute_spelled (escapes : Escapes escape) (findable : Findable escape table) (text after : List Char) :
    substitute (spelled escape table) (text.flatMap escape ++ '\x22' :: after) =
      (substitute table text).flatMap escape ++ '\x22' :: substitute (spelled escape table) after := by
  fun_induction substitute table text with
  | case1 =>
    have quote : '$' ∉ ['\x22'] := by decide
    exact substitute_plain findable.proper_spelled quote
  | case2 c rest e found ih =>
    have entry := entryAt_spelled escapes findable (c :: rest) after
    rw [found, Option.map_some] at entry
    obtain ⟨listed, _, begins⟩ := entryAt_some found
    obtain ⟨others, whole⟩ := begins
    rw [← whole, List.drop_left] at ih
    have same := flatMap_plain fun c among => (findable.plain e listed c among).1
    rw [substitute_found entry, ← whole, List.drop_left, List.flatMap_append, same, List.append_assoc, List.drop_left, ih,
      List.flatMap_append, List.append_assoc]
  | case3 c rest missing ih =>
    have entry := entryAt_spelled escapes findable (c :: rest) after
    rw [missing, Option.map_none] at entry
    rw [List.flatMap_cons, List.flatMap_cons, List.append_assoc, List.append_assoc, ← ih]
    rcases escapes c with plainly | ⟨others, sequence, free⟩
    · rw [List.flatMap_cons, plainly, List.append_assoc] at entry
      rw [plainly]
      exact substitute_other entry
    · have passed : '$' ∉ escape c := by
        rw [sequence, List.mem_cons, not_or]
        exact ⟨by decide, free⟩
      exact substitute_plain findable.proper_spelled passed

theorem substitute_writeText (escapes : Escapes escape) (findable : Findable escape table) (text : String)
    (after : List Char) : substitute (spelled escape table) (writeText escape text ++ after) =
      writeText escape (substituteIn table text) ++ substitute (spelled escape table) after := by
  have quote : '$' ∉ ['\x22'] := by decide
  have opened := @substitute_plain _ _ _ _ (spelled escape table) (text.toList.flatMap escape ++ '\x22' :: after)
    findable.proper_spelled _ quote
  rw [substitute_spelled escapes findable] at opened
  simpa only [writeText, substituteIn, String.toList_ofList, List.cons_append, List.nil_append, List.append_assoc]
    using opened

mutual

theorem substitute_write (escapes : Escapes escape) (findable : Findable escape table)
    (plain : ∀ leaf, '$' ∉ scalar leaf) : ∀ (value : Json) (after : List Char),
    substitute (spelled escape table) (write scalar escape value ++ after) =
      write scalar escape (mapTexts (substituteIn table) value) ++ substitute (spelled escape table) after
  | .null, _ | .bool _, _ | .int _, _ | .uint _, _ | .float _, _ => substitute_plain findable.proper_spelled (plain _)
  | .str text, after => substitute_writeText escapes findable text after
  | .arr items, after => by
    have opening : '$' ∉ ['['] := by decide
    have closing : '$' ∉ [']'] := by decide
    have opened := @substitute_plain _ _ _ _ (spelled escape table) (writeItems scalar escape items ++ (']' :: after))
      findable.proper_spelled _ opening
    have closed := @substitute_plain _ _ _ _ (spelled escape table) after findable.proper_spelled _ closing
    rw [substitute_writeItems escapes findable plain items, List.singleton_append] at opened
    rw [List.singleton_append] at closed
    rw [closed] at opened
    simpa only [write, mapTexts, List.cons_append, List.nil_append, List.append_assoc] using opened
  | .obj members, after => by
    have opening : '$' ∉ ['\x7b'] := by decide
    have closing : '$' ∉ ['\x7d'] := by decide
    have opened := @substitute_plain _ _ _ _ (spelled escape table)
      (writeMembers scalar escape members ++ ('\x7d' :: after)) findable.proper_spelled _ opening
    have closed := @substitute_plain _ _ _ _ (spelled escape table) after findable.proper_spelled _ closing
    rw [substitute_writeMembers escapes findable plain members, List.singleton_append] at opened
    rw [List.singleton_append] at closed
    rw [closed] at opened
    simpa only [write, mapTexts, List.cons_append, List.nil_append, List.append_assoc] using opened

theorem substitute_writeItems (escapes : Escapes escape) (findable : Findable escape table)
    (plain : ∀ leaf, '$' ∉ scalar leaf) : ∀ (items : List Json) (after : List Char),
    substitute (spelled escape table) (writeItems scalar escape items ++ after) =
      writeItems scalar escape (mapTextsItems (substituteIn table) items) ++ substitute (spelled escape table) after
  | [], _ => rfl
  | item :: rest, after => by
    have comma : '$' ∉ (if rest = [] then [] else [',']) := by split <;> decide
    have same : mapTextsItems (substituteIn table) rest = [] ↔ rest = [] := by rw [mapTextsItems_eq, List.map_eq_nil_iff]
    simp only [writeItems, mapTextsItems, List.append_assoc, same]
    rw [substitute_write escapes findable plain item, substitute_plain findable.proper_spelled comma,
      substitute_writeItems escapes findable plain rest]

theorem substitute_writeMembers (escapes : Escapes escape) (findable : Findable escape table)
    (plain : ∀ leaf, '$' ∉ scalar leaf) : ∀ (members : List (String × Json)) (after : List Char),
    substitute (spelled escape table) (writeMembers scalar escape members ++ after) =
      writeMembers scalar escape (mapTextsMembers (substituteIn table) members) ++ substitute (spelled escape table) after
  | [], _ => rfl
  | (name, value) :: rest, after => by
    have comma : '$' ∉ (if rest = [] then [] else [',']) := by split <;> decide
    have colon : '$' ∉ [':'] := by decide
    have same : mapTextsMembers (substituteIn table) rest = [] ↔ rest = [] := by cases rest <;> simp [mapTextsMembers]
    have next := @substitute_plain _ _ _ _ (spelled escape table) (write scalar escape value ++
      ((if rest = [] then [] else [',']) ++ (writeMembers scalar escape rest ++ after))) findable.proper_spelled _ colon
    rw [List.singleton_append] at next
    simp only [writeMembers, mapTextsMembers, List.append_assoc, List.cons_append, same]
    rw [substitute_writeText escapes findable, next, substitute_write escapes findable plain value,
      substitute_plain findable.proper_spelled comma, substitute_writeMembers escapes findable plain rest]
    rfl

end

/-! The openings `${` in a spelling are those of its texts. -/

def opening : List Char := ['$', '\x7b']

theorem opening_later {before after : List Char} (plain : '$' ∉ before) :
    opening <:+: before ++ after ↔ opening <:+: after := by
  induction before with
  | nil => rfl
  | cons c before ih =>
    rw [List.mem_cons, not_or] at plain
    rw [List.cons_append, List.infix_cons_iff, opening, List.cons_prefix_cons, ← opening, ih plain.2]
    exact or_iff_right fun begins => plain.1 begins.1

theorem opening_spelled (escapes : Escapes escape) (plain : ∀ c ∈ opening, escape c = [c]) (text after : List Char) :
    opening <:+: text.flatMap escape ++ '\x22' :: after ↔ opening <:+: text ∨ opening <:+: after := by
  induction text with
  | nil =>
    have quote : '$' ∉ ['\x22'] := by decide
    have none : ¬ opening <:+: [] := fun inside => absurd (List.infix_nil.mp inside) (by decide)
    rw [or_iff_right none]
    exact opening_later quote
  | cons c text ih =>
    rw [List.flatMap_cons, List.append_assoc]
    rcases escapes c with plainly | ⟨others, sequence, free⟩
    · have brace : ∀ c ∈ ['\x7b'], escape c = [c] ∧ c ≠ '\x5c' ∧ c ≠ '\x22' := by
        rw [List.forall_mem_singleton]
        exact ⟨plain '\x7b' (by decide), by decide, by decide⟩
      rw [plainly, List.singleton_append, List.infix_cons_iff, ih, List.infix_cons_iff, opening, List.cons_prefix_cons,
        List.cons_prefix_cons, prefix_spelled escapes brace, or_assoc]
    · have passed : '$' ∉ escape c := by
        rw [sequence, List.mem_cons, not_or]
        exact ⟨by decide, free⟩
      have other : '$' ∉ [c] := by
        rw [List.mem_singleton]
        rintro rfl
        rw [plain '$' (by decide)] at passed
        exact passed (List.mem_singleton_self _)
      rw [opening_later passed, ih, ← List.singleton_append, opening_later other]

theorem opening_writeText (escapes : Escapes escape) (plain : ∀ c ∈ opening, escape c = [c]) (text : String)
    (after : List Char) :
    opening <:+: writeText escape text ++ after ↔ opening <:+: text.toList ∨ opening <:+: after := by
  have quote : '$' ∉ ['\x22'] := by decide
  have opened := @opening_later _ (text.toList.flatMap escape ++ '\x22' :: after) quote
  rw [opening_spelled escapes plain] at opened
  simpa only [writeText, List.cons_append, List.nil_append, List.append_assoc] using opened

mutual

theorem opening_write (escapes : Escapes escape) (plain : ∀ c ∈ opening, escape c = [c])
    (leaf : ∀ leaf, '$' ∉ scalar leaf) : ∀ (value : Json) (after : List Char),
    opening <:+: write scalar escape value ++ after ↔
      (∃ text ∈ value.texts, opening <:+: text.toList) ∨ opening <:+: after
  | .null, _ | .bool _, _ | .int _, _ | .uint _, _ | .float _, _ => by
    simp only [write, texts, opening_later (leaf _), List.not_mem_nil, false_and, exists_false, false_or]
  | .str text, after => by
    simp only [write, texts, opening_writeText escapes plain, List.mem_singleton, exists_eq_left]
  | .arr items, after => by
    have bracket : '$' ∉ ['['] := by decide
    have closing : '$' ∉ [']'] := by decide
    have opened := @opening_later _ (writeItems scalar escape items ++ ([']'] ++ after)) bracket
    rw [opening_writeItems escapes plain leaf items, opening_later closing] at opened
    simpa only [write, texts, List.cons_append, List.nil_append, List.append_assoc] using opened
  | .obj members, after => by
    have bracket : '$' ∉ ['\x7b'] := by decide
    have closing : '$' ∉ ['\x7d'] := by decide
    have opened := @opening_later _ (writeMembers scalar escape members ++ (['\x7d'] ++ after)) bracket
    rw [opening_writeMembers escapes plain leaf members, opening_later closing] at opened
    simpa only [write, texts, List.cons_append, List.nil_append, List.append_assoc] using opened

theorem opening_writeItems (escapes : Escapes escape) (plain : ∀ c ∈ opening, escape c = [c])
    (leaf : ∀ leaf, '$' ∉ scalar leaf) : ∀ (items : List Json) (after : List Char),
    opening <:+: writeItems scalar escape items ++ after ↔
      (∃ text ∈ textsItems items, opening <:+: text.toList) ∨ opening <:+: after
  | [], _ => by simp only [writeItems, textsItems, List.nil_append, List.not_mem_nil, false_and, exists_false, false_or]
  | item :: rest, after => by
    have comma : '$' ∉ (if rest = [] then [] else [',']) := by split <;> decide
    simp only [writeItems, textsItems, List.append_assoc, opening_write escapes plain leaf item, opening_later comma,
      opening_writeItems escapes plain leaf rest, List.mem_append, or_and_right, exists_or, or_assoc]

theorem opening_writeMembers (escapes : Escapes escape) (plain : ∀ c ∈ opening, escape c = [c])
    (leaf : ∀ leaf, '$' ∉ scalar leaf) : ∀ (members : List (String × Json)) (after : List Char),
    opening <:+: writeMembers scalar escape members ++ after ↔
      (∃ text ∈ textsMembers members, opening <:+: text.toList) ∨ opening <:+: after
  | [], _ => by simp only [writeMembers, textsMembers, List.nil_append, List.not_mem_nil, false_and, exists_false, false_or]
  | (name, value) :: rest, after => by
    have comma : '$' ∉ (if rest = [] then [] else [',']) := by split <;> decide
    have colon : '$' ∉ [':'] := by decide
    have next := @opening_later _ (write scalar escape value ++
      ((if rest = [] then [] else [',']) ++ (writeMembers scalar escape rest ++ after))) colon
    rw [List.singleton_append] at next
    simp only [writeMembers, textsMembers, List.append_assoc, List.cons_append, opening_writeText escapes plain, next,
      opening_write escapes plain leaf value, opening_later comma, opening_writeMembers escapes plain leaf rest,
      List.mem_cons, List.mem_append, or_and_right, exists_or, exists_eq_left, or_assoc]

end

end Spelled

/-- Letters, digits and the signs of numbers and identifiers. -/
def isPlain (c : Char) : Bool := c.isAlphanum || c ∈ ['_', '.', '-', '+']

/-- A JSON library: a printer and a parser, with what is documented of them. -/
structure Library where
  print : Json → String
  read : String → Except String Json
  scalar : Json → List Char
  escape : Char → List Char
  /-- The numbers and constants as the parser gives them. -/
  Known : Json → Prop
  printed : ∀ value, (print value).toList = write scalar escape value
  escapes : Escapes escape
  plain : ∀ c, isPlain c = true ∨ c ∈ ['$', '\x7b', '\x7d'] → escape c = [c]
  leaf : ∀ value, ∀ c ∈ scalar value, isPlain c = true
  int : ∀ n, scalar (.int n) = (toString n).toList
  uint : ∀ n, scalar (.uint n) = (toString n).toList
  bool : ∀ b, scalar (.bool b) = (toString b).toList
  reads : ∀ value, (∀ leaf ∈ value.leaves, Known leaf) → value.keysDistinct = true → read (print value) = .ok value
  sound : ∀ {text value}, read text = .ok value → (∀ leaf ∈ value.leaves, Known leaf) ∧ value.keysDistinct = true
  faithful : ∀ {value got}, (∀ leaf ∈ value.leaves, Known leaf) → read (print value) = .ok got → got.texts ⊆ value.texts

namespace Library

variable (lib : Library)

/-- A value as the parser gives it. -/
def Parsed (value : Json) : Prop := (∀ leaf ∈ value.leaves, lib.Known leaf) ∧ value.keysDistinct = true

variable {lib}

theorem leaf_plain (value : Json) : '$' ∉ lib.scalar value := by
  intro listed
  have plain := lib.leaf value _ listed
  exact absurd plain (by decide)

theorem opening_plain : ∀ c ∈ opening, lib.escape c = [c] := by
  intro c listed
  apply lib.plain
  simp only [opening, List.mem_cons, List.not_mem_nil, or_false] at listed ⊢
  exact .inr (listed.imp_right .inl)

theorem print_inj {value : Json} {text : String} (same : text.toList = write lib.scalar lib.escape value) :
    text = lib.print value := String.toList_inj.mp (same.trans (lib.printed value).symm)

theorem opening_print (value : Json) :
    opening <:+: (lib.print value).toList ↔ ∃ text ∈ value.texts, opening <:+: text.toList := by
  have known := opening_write lib.escapes opening_plain (@leaf_plain lib) value []
  have none : ¬ opening <:+: [] := fun inside => absurd (List.infix_nil.mp inside) (by decide)
  rw [List.append_nil, or_iff_left none] at known
  rw [lib.printed, known]

theorem substitute_print {table : List (List Char × List Char)} (findable : Findable lib.escape table) (value : Json) :
    String.ofList (substitute (spelled lib.escape table) (lib.print value).toList) =
      lib.print (mapTexts (substituteIn table) value) := by
  have known := substitute_write lib.escapes findable (@leaf_plain lib) value []
  rw [List.append_nil, substitute_nil, List.append_nil] at known
  apply print_inj
  rw [String.toList_ofList, lib.printed, known]

end Library

end Fala.Json
