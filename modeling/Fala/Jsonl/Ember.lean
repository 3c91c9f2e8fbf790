import Mathlib.Data.List.Perm.Basic
import Fala.Json.Value

namespace Fala

namespace Json

/-- A name that a quoted text spells as it is. -/
def simpleName (name : String) : Bool := name.toList.all fun c => c.isAlphanum || c == '_'

mutual

/-- A value of texts, integers and literals, each object with simple and distinct names. -/
def plain : Json → Bool
  | .uint _ | .float _ => false
  | .arr items => plainItems items
  | .obj members => plainMembers members && decide (members.map Prod.fst).Nodup
  | _ => true

def plainItems : List Json → Bool
  | [] => true
  | item :: rest => plain item && plainItems rest

def plainMembers : List (String × Json) → Bool
  | [] => true
  | (name, value) :: rest => simpleName name && plain value && plainMembers rest

end

theorem plainMembers_iff (members : List (String × Json)) :
    plainMembers members = true ↔ ∀ m ∈ members, simpleName m.1 = true ∧ m.2.plain = true := by
  induction members with
  | nil => simp [plainMembers]
  | cons head rest ih => simp [plainMembers, ih]

mutual

theorem plain_canonical : ∀ value : Json, value.plain = true → value.canonical.plain = true
  | .null, _ | .bool _, _ | .int _, _ | .str _, _ => by simp [canonical, plain]
  | .arr items, isPlain => by
    simp only [canonical, plain] at isPlain ⊢
    exact plainItems_canonical items isPlain
  | .obj members, isPlain => by
    simp only [canonical, plain, Bool.and_eq_true, decide_eq_true_eq] at isPlain ⊢
    have kept := (plainMembers_iff _).mp (plainMembers_canonical members isPlain.1)
    have sorted := sortMembers_perm (canonicalMembers members)
    refine ⟨(plainMembers_iff _).mpr fun m member => kept m (sorted.mem_iff.mp member), ?_⟩
    rw [(sorted.map Prod.fst).nodup_iff, names_canonicalMembers]
    exact isPlain.2

theorem plainItems_canonical : ∀ items, plainItems items = true → plainItems (canonicalItems items) = true
  | [], _ => rfl
  | item :: rest, isPlain => by
    simp only [canonicalItems, plainItems, Bool.and_eq_true] at isPlain ⊢
    exact ⟨plain_canonical item isPlain.1, plainItems_canonical rest isPlain.2⟩

theorem plainMembers_canonical :
    ∀ members, plainMembers members = true → plainMembers (canonicalMembers members) = true
  | [], _ => rfl
  | (name, value) :: rest, isPlain => by
    simp only [canonicalMembers, plainMembers, Bool.and_eq_true] at isPlain ⊢
    exact ⟨⟨isPlain.1.1, plain_canonical value isPlain.1.2⟩, plainMembers_canonical rest isPlain.2⟩

end

end Json

namespace Jsonl

/-! The texts of the JSONL journal are bytes, as the file holds them. -/

abbrev Bytes := List UInt8

def utf8 (s : String) : Bytes := s.toByteArray.data.toList

def newline : UInt8 := 10

/-- EmberJson: what its parser reads in a text, and what it writes for a value. -/
structure Ember where
  parse : Bytes → Except String Json
  write : Json → Bytes

/-- Texts with a comma between them. -/
def separated : List Bytes → Bytes
  | [] => []
  | [item] => item
  | item :: rest => item ++ utf8 "," ++ separated rest

def arrayText (items : List Bytes) : Bytes := utf8 "[" ++ separated items ++ utf8 "]"

/-- An object text put together from its names and the texts of its members. -/
def objectText (members : List (String × Bytes)) : Bytes :=
  utf8 "\x7b" ++ separated (members.map fun m => utf8 ("\"" ++ m.1 ++ "\":") ++ m.2) ++ utf8 "\x7d"

namespace Ember

/-- `quote_json_string` -/
def quote (e : Ember) (value : String) : Bytes := e.write (.str value)

def canonicalJsonText (e : Ember) (text : Bytes) : Except String Bytes :=
  (e.parse text).map fun value => e.write value.canonical

mutual

/-- The text put together by hand for a value: its integers in decimal, its strings quoted. -/
def compact (e : Ember) : Json → Bytes
  | .int value => utf8 (toString value)
  | .arr items => arrayText (compactItems e items)
  | .obj members => objectText (compactMembers e members)
  | value => e.write value

def compactItems (e : Ember) : List Json → List Bytes
  | [] => []
  | item :: rest => compact e item :: compactItems e rest

def compactMembers (e : Ember) : List (String × Json) → List (String × Bytes)
  | [] => []
  | (name, value) :: rest => (name, compact e value) :: compactMembers e rest

end

/-- What the journal relies on: a value is read back from the text put together for it and
    from the text written for it, also with a newline after it; the written text is a line
    of its own; and a simple name is quoted as it is. -/
structure Faithful (e : Ember) : Prop where
  compact (value : Json) (isPlain : value.plain = true) : e.parse (e.compact value) = .ok value
  written (value : Json) (isPlain : value.plain = true) : e.parse (e.write value) = .ok value
  ended (value : Json) (isPlain : value.plain = true) : e.parse (e.write value ++ [newline]) = .ok value
  line (value : Json) (isPlain : value.plain = true) : e.write value ≠ [] ∧ newline ∉ e.write value
  quoted (name : String) (simple : Json.simpleName name = true) : e.quote name = utf8 ("\"" ++ name ++ "\"")

end Ember
end Jsonl
end Fala
