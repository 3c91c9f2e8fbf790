import Fala.Json.Value
import Mathlib.Algebra.Group.Nat.Defs

namespace Fala.Toml

/-! What is left of a text stands for the parser's index into it. -/

abbrev Text := List Char

/-- `TomlParser._error` -/
def fail {α : Type} (path message : String) : Except String α :=
  .error ("toml.parse at " ++ path ++ ": " ++ message)

def skipSpaces : Text → Text := List.dropWhile fun c => c = ' ' ∨ c = '\t'

def skipComment : Text → Text
  | '#' :: rest => rest.dropWhile (· ≠ '\n')
  | rest => rest

theorem skipSpaces_length (text : Text) : (skipSpaces text).length ≤ text.length :=
  (List.dropWhile_suffix _).length_le

theorem skipComment_length (text : Text) : (skipComment text).length ≤ text.length := by
  unfold skipComment
  split
  · exact Nat.le_succ_of_le (List.dropWhile_suffix _).length_le
  · exact Nat.le_refl _

/-- Blank lines are skipped with their spaces and comments; between the items of an array the same. -/
def skipBlankLines (text : Text) : Text :=
  match _left : skipComment (skipSpaces text) with
  | '\n' :: rest => skipBlankLines rest
  | rest => rest
termination_by text.length
decreasing_by
  have spaces := skipSpaces_length text
  have comment := skipComment_length (skipSpaces text)
  rw [_left, List.length_cons] at comment
  omega

def skipValueSpace : Text → Text := skipBlankLines

def expect (path token : String) (text : Text) : Except String Text :=
  if token.toList.isPrefixOf text then .ok (text.drop token.length)
  else fail path ("expected '" ++ token ++ "'")

/-- `TomlParser._hex`, with nothing for its -1. -/
def hex (c : Char) : Option Nat :=
  if '0' ≤ c ∧ c ≤ '9' then some (c.toNat - '0'.toNat)
  else if 'a' ≤ c ∧ c ≤ 'f' then some (c.toNat - 'a'.toNat + 10)
  else if 'A' ≤ c ∧ c ≤ 'F' then some (c.toNat - 'A'.toNat + 10)
  else none

section

variable (parse : String → Option Json) (path : String)

/-- The rest of a basic string: `json` is the text rebuilt so far, which EmberJson reads in the end. -/
def basicString (json : Text) : Text → Except String (String × Text)
  | [] => fail path "unterminated basic string"
  | '"' :: rest =>
    match parse (String.ofList (json ++ ['"'])) with
    | some (.str value) => .ok (value, rest)
    | _ => fail path "invalid basic string escape"
  | '\n' :: _ | '\r' :: _ => fail path "multiline strings are unsupported"
  | ['\\'] => fail path "unterminated escape"
  | '\\' :: 'u' :: a :: b :: c :: d :: rest =>
    if [a, b, c, d].all fun digit => (hex digit).isSome then basicString (json ++ ['\\', 'u', a, b, c, d]) rest
    else fail path "invalid unicode escape"
  | '\\' :: escaped :: rest =>
    if escaped ∈ ['b', 't', 'n', 'f', 'r', '"', '\\'] then basicString (json ++ ['\\', escaped]) rest
    else if escaped = 'u' then fail path "short unicode escape"
    else if escaped = 'U' then fail path "\\U unicode escapes are unsupported"
    else fail path "unsupported basic string escape"
  | c :: rest => basicString (json ++ [c]) rest

def parseBasicString (text : Text) : Except String (String × Text) := do
  let rest ← expect path "\"" text
  basicString parse path ['"'] rest

def literalString (taken : Text) : Text → Except String (String × Text)
  | [] => fail path "unterminated literal string"
  | '\'' :: rest => .ok (String.ofList taken, rest)
  | '\n' :: _ | '\r' :: _ => fail path "multiline strings are unsupported"
  | c :: rest => literalString (taken ++ [c]) rest

def parseLiteralString (text : Text) : Except String (String × Text) := do
  let rest ← expect path "'" text
  literalString path [] rest

def endsKey (c : Char) : Bool := c ∈ ['.', '=', ']', ',', '#', ' ', '\t', '\n', '\r']

def isBare (c : Char) : Bool :=
  ('a' ≤ c ∧ c ≤ 'z') ∨ ('A' ≤ c ∧ c ≤ 'Z') ∨ ('0' ≤ c ∧ c ≤ '9') ∨ c = '_' ∨ c = '-'

def bareKey (text : Text) : Except String (String × Text) :=
  let taken := text.takeWhile fun c => !endsKey c
  if !taken.all isBare then fail path "unsupported character in bare key"
  else if taken = [] then fail path "expected key"
  else .ok (String.ofList taken, text.drop taken.length)

def parseKeySegment (text : Text) : Except String (String × Text) :=
  match skipSpaces text with
  | '"' :: rest => parseBasicString parse path ('"' :: rest)
  | '\'' :: rest => parseLiteralString path ('\'' :: rest)
  | rest => bareKey path rest

end

theorem expect_length {path token : String} {text rest : Text} (read : expect path token text = .ok rest) :
    rest.length ≤ text.length := by
  unfold expect at read
  split at read
  · cases read
    rw [List.length_drop]
    exact Nat.sub_le ..
  · cases read

section

variable {parse : String → Option Json} {path : String}

theorem basicString_length {json text rest : Text} {value : String}
    (read : basicString parse path json text = .ok (value, rest)) : rest.length < text.length := by
  fun_induction basicString parse path json text
  all_goals simp_all [fail]
  all_goals omega

theorem literalString_length {taken text rest : Text} {value : String}
    (read : literalString path taken text = .ok (value, rest)) : rest.length < text.length := by
  fun_induction literalString path taken text
  all_goals simp_all [fail]
  omega

theorem parseBasicString_length {text rest : Text} {value : String}
    (read : parseBasicString parse path text = .ok (value, rest)) : rest.length < text.length := by
  unfold parseBasicString at read
  cases opened : expect path "\"" text with
  | error => rw [opened] at read; cases read
  | ok inner =>
    rw [opened] at read
    have closed := basicString_length read
    have entered := expect_length opened
    omega

theorem parseLiteralString_length {text rest : Text} {value : String}
    (read : parseLiteralString path text = .ok (value, rest)) : rest.length < text.length := by
  unfold parseLiteralString at read
  cases opened : expect path "'" text with
  | error => rw [opened] at read; cases read
  | ok inner =>
    rw [opened] at read
    have closed := literalString_length read
    have entered := expect_length opened
    omega

theorem bareKey_length {text rest : Text} {value : String} (read : bareKey path text = .ok (value, rest)) :
    rest.length < text.length := by
  unfold bareKey at read
  simp only at read
  split at read
  · cases read
  · split at read
    · cases read
    · rename_i some_taken
      cases read
      have whole := (List.takeWhile_prefix (l := text) fun c => !endsKey c).length_le
      have some_length := List.length_pos_of_ne_nil some_taken
      rw [List.length_drop]
      omega

theorem parseKeySegment_length {text rest : Text} {value : String}
    (read : parseKeySegment parse path text = .ok (value, rest)) : rest.length < text.length := by
  have spaces := skipSpaces_length text
  unfold parseKeySegment at read
  split at read
  · rename_i here
    rw [here] at spaces
    exact Nat.lt_of_lt_of_le (parseBasicString_length read) spaces
  · rename_i here
    rw [here] at spaces
    exact Nat.lt_of_lt_of_le (parseLiteralString_length read) spaces
  · exact Nat.lt_of_lt_of_le (bareKey_length read) spaces

end

section

variable (parse : String → Option Json) (path : String)

/-- The parts of a key that follow a first one. -/
def keyParts (parts : List String) (text : Text) : Except String (List String × Text) :=
  match _left : skipSpaces text with
  | '.' :: rest =>
    match _read : parseKeySegment parse path rest with
    | .error message => .error message
    | .ok (part, rest) => keyParts (parts ++ [part]) rest
  | rest => .ok (parts, rest)
termination_by text.length
decreasing_by
  have spaces := skipSpaces_length text
  have part := parseKeySegment_length _read
  rw [_left, List.length_cons] at spaces
  omega

/-- `TomlParser._parse_key_path` without a closing text. -/
def parseKeyPath (text : Text) : Except String (List String × Text) := do
  let (part, rest) ← parseKeySegment parse path text
  keyParts parse path [part] rest

/-- A key path with the equals sign and the spaces that follow it. -/
def parseAssigned (text : Text) : Except String (List String × Text) := do
  let (parts, rest) ← parseKeyPath parse path text
  let rest ← expect path "=" (skipSpaces rest)
  return (parts, skipSpaces rest)

/-- `TomlParser._parse_key_path` in a header, which a bracket has to follow. -/
def parseHeaderPath (text : Text) : Except String (List String × Text) := do
  let (parts, rest) ← parseKeyPath parse path text
  let rest := skipSpaces rest
  if rest.head? = some ']' then return (parts, rest)
  else fail path "expected ']' after table key"

end

section

variable {parse : String → Option Json} {path : String}

theorem keyParts_length {text rest : Text} {parts all : List String}
    (read : keyParts parse path parts text = .ok (all, rest)) : rest.length ≤ text.length := by
  fun_induction keyParts parse path parts text with
  | case1 => cases read
  | case2 parts text rest left part _ found ih =>
    have later := ih read
    have spaces := skipSpaces_length text
    have part := parseKeySegment_length found
    rw [left, List.length_cons] at spaces
    omega
  | case3 parts text =>
    cases read
    exact skipSpaces_length text

theorem parseKeyPath_length {text rest : Text} {parts : List String}
    (read : parseKeyPath parse path text = .ok (parts, rest)) : rest.length < text.length := by
  unfold parseKeyPath at read
  cases first : parseKeySegment parse path text with
  | error => rw [first] at read; cases read
  | ok result =>
    rw [first] at read
    have part := parseKeySegment_length first
    have later := keyParts_length read
    omega

theorem parseAssigned_length {text rest : Text} {parts : List String}
    (read : parseAssigned parse path text = .ok (parts, rest)) : rest.length < text.length := by
  unfold parseAssigned at read
  cases whole : parseKeyPath parse path text with
  | error => rw [whole] at read; cases read
  | ok result =>
    cases equals : expect path "=" (skipSpaces result.2) with
    | error => simp [whole, equals, bind, Except.bind] at read
    | ok left =>
      simp only [whole, equals, bind, Except.bind, pure, Except.pure] at read
      cases read
      have used := parseKeyPath_length whole
      have first := skipSpaces_length result.2
      have entered := expect_length equals
      have last := skipSpaces_length left
      omega

theorem parseHeaderPath_length {text rest : Text} {parts : List String}
    (read : parseHeaderPath parse path text = .ok (parts, rest)) : rest.length < text.length := by
  unfold parseHeaderPath at read
  cases whole : parseKeyPath parse path text with
  | error => rw [whole] at read; cases read
  | ok result =>
    rw [whole] at read
    have parts := parseKeyPath_length whole
    have spaces := skipSpaces_length result.2
    simp only [bind, Except.bind, pure, Except.pure] at read
    split at read
    · cases read
      omega
    · cases read

end

end Fala.Toml

namespace Fala.Toml

def signed (token : Text) : Bool := token.head? = some '+' ∨ token.head? = some '-'

def startsWith (text : String) (token : Text) : Bool := text.toList.isPrefixOf token

def doubled : Text → Bool
  | '_' :: '_' :: _ => true
  | _ :: rest => doubled rest
  | [] => false

def stripUnderscores (path : String) (token : Text) : Except String Text :=
  let start := if signed token then 1 else 0
  if token.head? = some '_' ∨ token.getLast? = some '_' ∨ doubled token then
    fail path "invalid numeric underscore placement"
  else if start + 2 < token.length ∧ (token[start + 1]?.any fun c => c ∈ ['x', 'X', 'o', 'O', 'b', 'B']) ∧
      token[start + 2]? = some '_' then
    fail path "invalid numeric underscore placement"
  else .ok (token.filter (· ≠ '_'))

/-- One digit of an amount, which has to stay below 2^64. -/
def addDigit (path : String) (base amount : Nat) (c : Char) : Except String Nat :=
  match hex c with
  | some digit =>
    if base ≤ digit then fail path "invalid integer digit"
    else if (2 ^ 64 - 1 - digit) / base < amount then fail path "integer overflow"
    else .ok (amount * base + digit)
  | none => fail path "invalid integer digit"

def parseIntegerBase (path : String) (token : Text) (base : Nat) : Except String Json := do
  let start := if signed token then 1 else 0
  if token.length ≤ start + 2 then fail path "invalid integer"
  else
    let amount ← (token.drop (start + 2)).foldlM (addDigit path base) 0
    if token.head? = some '-' then
      if 2 ^ 63 < amount then fail path "integer overflow" else return .int (-amount)
    else if amount < 2 ^ 63 then return .int amount
    else return .uint amount

section

variable (parse : String → Option Json) (path : String)

def parseDecimal (token : Text) : Except String Json :=
  match parse (String.ofList token) with
  | some (.int value) => .ok (.int value)
  | some (.uint value) => .ok (.uint value)
  | _ => fail path "invalid decimal integer"

def parseFloat (token : Text) : Except String Json :=
  match parse (String.ofList token) with
  | some (.float value) => .ok (.float value)
  | _ => fail path "invalid decimal float"

def parseNumber (token : Text) : Except String Json := do
  let clean ← stripUnderscores path token
  let signless := if signed clean then clean.drop 1 else clean
  if startsWith "0x" signless ∨ startsWith "0X" signless then parseIntegerBase path clean 16
  else if startsWith "0o" signless ∨ startsWith "0O" signless then parseIntegerBase path clean 8
  else if startsWith "0b" signless ∨ startsWith "0B" signless then parseIntegerBase path clean 2
  else if '.' ∈ clean ∨ 'e' ∈ clean ∨ 'E' ∈ clean then parseFloat parse path clean
  else if 1 < clean.length ∧ startsWith "0" signless then fail path "leading zero in decimal integer"
  else parseDecimal parse path (if clean.head? = some '+' then clean.drop 1 else clean)

def endsToken (c : Char) : Bool := c ∈ [',', ']', '}', '#', ' ', '\t', '\n', '\r']

def parseToken (token : Text) : Except String Json :=
  if token.length = 10 ∧ token[4]? = some '-' ∧ token[7]? = some '-' then
    fail path "date/time values are unsupported"
  else if token = "true".toList then .ok (.bool true)
  else if token = "false".toList then .ok (.bool false)
  else if token ∈ ["inf", "-inf", "+inf", "nan", "+nan", "-nan"].map String.toList then
    fail path "special float values are unsupported"
  else if ':' ∈ token then fail path "date/time values are unsupported"
  else parseNumber parse path token

def parseBare (text : Text) : Except String (Json × Text) := do
  let token := text.takeWhile fun c => !endsToken c
  if token = [] then fail path "expected value"
  else
    let value ← parseToken parse path token
    return (value, text.drop token.length)

def parseScalarValue (text : Text) : Except String (Json × Text) :=
  let text := skipSpaces text
  if startsWith "\"\"\"" text ∨ startsWith "'''" text then fail path "multiline strings are unsupported"
  else
    match text with
    | '"' :: _ => do
      let (value, rest) ← parseBasicString parse path text
      return (.str value, rest)
    | '\'' :: _ => do
      let (value, rest) ← parseLiteralString path text
      return (.str value, rest)
    | _ => parseBare parse path text

end

section

variable {parse : String → Option Json} {path : String}

theorem parseBare_length {text rest : Text} {value : Json} (read : parseBare parse path text = .ok (value, rest)) :
    rest.length < text.length := by
  unfold parseBare at read
  simp only [bind, Except.bind, pure, Except.pure] at read
  split at read
  · cases read
  · rename_i some_taken
    split at read
    · cases read
    · cases read
      have whole := (List.takeWhile_prefix (l := text) fun c => !endsToken c).length_le
      have some_length := List.length_pos_of_ne_nil some_taken
      rw [List.length_drop]
      omega

theorem parseScalarValue_length {text rest : Text} {value : Json}
    (read : parseScalarValue parse path text = .ok (value, rest)) : rest.length < text.length := by
  have spaces := skipSpaces_length text
  unfold parseScalarValue at read
  simp only [bind, Except.bind, pure, Except.pure] at read
  split at read
  · cases read
  · split at read
    · split at read
      · cases read
      · rename_i found
        cases read
        exact Nat.lt_of_lt_of_le (parseBasicString_length found) spaces
    · split at read
      · cases read
      · rename_i found
        cases read
        exact Nat.lt_of_lt_of_le (parseLiteralString_length found) spaces
    · exact Nat.lt_of_lt_of_le (parseBare_length read) spaces

end

end Fala.Toml
