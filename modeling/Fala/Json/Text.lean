import Fala.Json.Value

namespace Fala

namespace Json

def quoted (value : String) : String :=
  let escaped := value.toList.map fun c =>
    if c = '\x22' then "\\\"" else if c = '\x5c' then "\\\\" else c.toString
  "\"" ++ String.join escaped ++ "\""

mutual

/-- A spelling that tells values apart; a float is spelled as its fraction. -/
def spell : Json → String
  | .null => "null"
  | .bool value => toString value
  | .int value => toString value
  | .uint value => toString value
  | .float value => toString value.num ++ "/" ++ toString value.den
  | .str value => quoted value
  | .arr items => "[" ++ spellItems items ++ "]"
  | .obj members => "\x7b" ++ spellMembers members ++ "\x7d"

def spellItems : List Json → String
  | [] => ""
  | item :: rest => spell item ++ "," ++ spellItems rest

def spellMembers : List (String × Json) → String
  | [] => ""
  | (name, value) :: rest => quoted name ++ ":" ++ spell value ++ "," ++ spellMembers rest

end

end Json

/-- The text of a JSON column or argument: what the printer writes for a value,
    or any other text, kept with what the parser reads in it. -/
inductive Text where
  | printed (value : Json)
  | other (spelling : String) (value : Option Json)
  deriving DecidableEq, Inhabited

namespace Text

def empty : Text := .other "" none

/-- `{}` -/
def braces : Text := .printed (.obj [])

def quote (value : String) : Text := .printed (.str value)

def number (value : Int) : Text := .printed (.int value)

def parse : Text → Option Json
  | .printed value => some value
  | .other _ value => value

@[simp] theorem parse_printed (value : Json) : (printed value).parse = some value := rfl

/-- `canonical_json_text` -/
def canonical (text : Text) : Option Text := text.parse.map fun value => .printed value.canonical

def printedMembers : List (String × Text) → Option (List (String × Json))
  | [] => some []
  | (name, .printed value) :: rest => (printedMembers rest).map ((name, value) :: ·)
  | (_, .other _ _) :: _ => none

def parsedMembers : List (String × Text) → Option (List (String × Json))
  | [] => some []
  | (name, text) :: rest => do
    let value ← text.parse
    let members ← parsedMembers rest
    return (name, value) :: members

def spelling : Text → String
  | .printed value => value.spell
  | .other spelling _ => spelling

/-- An object text put together from the texts of its members. Around a text
    that the printer did not write it is not the printer's either, and it parses
    when all of its members do. -/
def template (members : List (String × Text)) : Text :=
  match printedMembers members with
  | some values => .printed (.obj values)
  | none => .other (String.join (members.map fun m => Json.quoted m.1 ++ ":" ++ m.2.spelling ++ ","))
      ((parsedMembers members).map .obj)

theorem parsedMembers_of_printed {members : List (String × Text)} {values : List (String × Json)}
    (printed : printedMembers members = some values) : parsedMembers members = some values := by
  induction members generalizing values with
  | nil => exact printed
  | cons head rest ih =>
    obtain ⟨name, text⟩ := head
    cases text with
    | other spelling value => cases printed
    | printed value =>
      simp only [printedMembers, Option.map_eq_some_iff] at printed
      obtain ⟨tail, found, rfl⟩ := printed
      simp [parsedMembers, parse, ih found]

theorem parse_template (members : List (String × Text)) :
    (template members).parse = (parsedMembers members).map .obj := by
  unfold template
  cases printed : printedMembers members with
  | none => rfl
  | some values => simp [parse, parsedMembers_of_printed printed]

theorem canonical_some {text normalized : Text} (h : text.canonical = some normalized) :
    ∃ value, text.parse = some value ∧ normalized = .printed value.canonical := by
  simp only [canonical, Option.map_eq_some_iff] at h
  obtain ⟨value, parsed, rfl⟩ := h
  exact ⟨value, parsed, rfl⟩

theorem lookup_parsed {members : List (String × Text)} {values : List (String × Json)}
    {key : String} {text : Text} (parsed : parsedMembers members = some values)
    (listed : members.lookup key = some text) :
    ∃ value, text.parse = some value ∧ Json.lookup key values = some value := by
  induction members generalizing values with
  | nil => cases listed
  | cons head rest ih =>
    obtain ⟨name, here⟩ := head
    simp only [parsedMembers, Option.bind_eq_bind, Option.pure_def, Option.bind_eq_some_iff,
      Option.some.injEq] at parsed
    obtain ⟨value, read, later, tail, rfl⟩ := parsed
    rw [List.lookup_cons] at listed
    by_cases same : key = name
    · subst same
      rw [beq_self_eq_true] at listed
      cases listed
      exact ⟨value, read, by simp [Json.lookup]⟩
    · rw [beq_eq_false_iff_ne.mpr same] at listed
      obtain ⟨value', read', found⟩ := ih tail listed
      exact ⟨value', read', by simp [Json.lookup, Ne.symm same, found]⟩

theorem member_template {members : List (String × Text)} {text stored : Text}
    (read : (template members).canonical = some stored) (key : String)
    (listed : members.lookup key = some text) :
    ∃ value, text.parse = some value ∧
      stored.parse.bind (Json.member key) = some value.canonical := by
  obtain ⟨value, parsed, rfl⟩ := canonical_some read
  rw [parse_template] at parsed
  obtain ⟨values, parsed', rfl⟩ := Option.map_eq_some_iff.mp parsed
  obtain ⟨value, here, found⟩ := lookup_parsed parsed' listed
  refine ⟨value, here, ?_⟩
  rw [parse_printed, Option.bind_some, Json.member_canonical, Json.member, found, Option.map_some]

end Text
end Fala
