import Fala.Text.Cursor
import Fala.Jsonl.Journal
import Fala.Toml.Parser

/-! The parser of `toml.mojo` byte by byte: every read of a text and every round of a loop is on record. -/

namespace Fala.Toml.Bytes
open Cursor
open Jsonl (Subscript)
open Cursor.Reader (position advance lift)

abbrev Byte := UInt8

def byte (c : Char) : Byte := c.toNat.toUInt8

def bytes (text : String) : List Byte := text.toList.map byte

def decode (text : List Byte) : String := (String.fromUTF8? ⟨text.toArray⟩).getD ""

/-- `TomlParser._hex`, with nothing for its -1. -/
def hex (c : Byte) : Option Nat := Toml.hex (Char.ofNat c.toNat)

/-- The place is not inside of a character. -/
def boundary (text : List Byte) (place : Nat) : Bool := text[place]?.all fun c => c &&& 0xc0 != 0x80

/-- A part of a text must not end inside of a character; what a byte of one comes to depends on the toolchain. -/
def cuts (subscript : Subscript) : Cuts Byte where
  unit text place := subscript = .yields || text[place]?.all fun c => c < 128
  part text start stop := boundary text start && boundary text stop

abbrev Scanner (α : Type) := Reader Byte α

section
variable (subscript : Subscript) (rounds : Nat) (path : String) (text : List Byte)

/-- `text[byte=i]` -/
def unitAt (text : List Byte) (place : Nat) : Scanner Byte := Reader.unitAt (cuts subscript) text place

/-- `text[byte=i:j]` -/
def slice (text : List Byte) (start stop : Nat) : Scanner (List Byte) := Reader.slice (cuts subscript) text start stop

/-- `TomlParser._error` -/
def error {α : Type} (message : String) : Scanner α := Reader.fail ("toml.parse at " ++ path ++ ": " ++ message)

/-- A `while` loop whose rounds have no rank. -/
def loop {σ α : Type} (body : σ → Scanner (Turn σ α)) (state : σ) : Scanner α :=
  Reader.loop (fun _ => 0) body rounds state

/-- `TomlParser._char`, with nothing at the end of the text. -/
def char : Scanner (Option Byte) := do
  let index ← position
  if text.length ≤ index then pure none
  else do
    let c ← unitAt subscript text index
    pure (some c)

def skipSpaces : Scanner Unit := loop rounds (fun _ => do
  let c ← char subscript text
  if c = some (byte ' ') ∨ c = some (byte '\t') then do
    advance 1
    pure (.again ())
  else pure (.done ())) ()

def commentBody : Scanner Unit := loop rounds (fun _ => do
  let c ← char subscript text
  if c ≠ none ∧ c ≠ some (byte '\n') then do
    advance 1
    pure (.again ())
  else pure (.done ())) ()

def skipComment : Scanner Unit := do
  let c ← char subscript text
  if c = some (byte '#') then commentBody subscript rounds text else pure ()

/-- A line break is taken, and the loop goes on. -/
def lineTurn : Scanner (Turn Unit Unit) := do
  let c ← char subscript text
  if c = some (byte '\n') then do
    advance 1
    pure (.again ())
  else pure (.done ())

def skipBlankLines : Scanner Unit := loop rounds (fun _ => do
  skipSpaces subscript rounds text
  skipComment subscript rounds text
  lineTurn subscript text) ()

/-- After a comment the line break is looked for twice. -/
def skipValueSpace : Scanner Unit := loop rounds (fun _ => do
  skipSpaces subscript rounds text
  let c ← char subscript text
  if c = some (byte '#') then do
    skipComment subscript rounds text
    let turn ← lineTurn subscript text
    match turn with
    | .again _ => pure (.again ())
    | .done _ => lineTurn subscript text
  else lineTurn subscript text) ()

def expect (token : String) : Scanner Unit := do
  let index ← position
  let found ← slice subscript text index (index + (bytes token).length)
  if found ≠ bytes token then error path ("expected '" ++ token ++ "'")
  else advance (bytes token).length

/-! Strings and keys. -/

variable (parse : List Byte → Option Json)

/-- The escape after a backslash: what it adds to the JSON text. -/
def escape : Scanner (List Byte) := do
  let escaped ← char subscript text
  match escaped with
  | none => error path "unterminated escape"
  | some c =>
    if c ∈ bytes "btnfr\"\\" then pure [byte '\\', c]
    else if c = byte 'u' then do
      let index ← position
      if text.length ≤ index + 4 then error path "short unicode escape"
      else do
        (List.range' 1 4).foldlM (fun _ offset => do
          let digit ← unitAt subscript text (index + offset)
          if hex digit = none then error path "invalid unicode escape" else pure ()) ()
        let spelled ← slice subscript text (index + 1) (index + 5)
        advance 4
        pure (bytes "\\u" ++ spelled)
    else if c = byte 'U' then error path "\\U unicode escapes are unsupported"
    else error path "unsupported basic string escape"

/-- A round of the loop of a basic string, with the JSON text so far and the start of the segment. -/
def basicTurn (state : List Byte × Nat) : Scanner (Turn (List Byte × Nat) String) := do
  let c ← char subscript text
  let index ← position
  if c = none then error path "unterminated basic string"
  else if c = some (byte '"') then do
    let segment ← slice subscript text state.2 index
    advance 1
    match parse (state.1 ++ segment ++ [byte '"']) with
    | some (.str value) => pure (.done value)
    | _ => error path "invalid basic string escape"
  else if c = some (byte '\n') ∨ c = some (byte '\r') then error path "multiline strings are unsupported"
  else if c = some (byte '\\') then do
    let segment ← slice subscript text state.2 index
    advance 1
    let added ← escape subscript path text
    advance 1
    let next ← position
    pure (.again (state.1 ++ segment ++ added, next))
  else do
    advance 1
    pure (.again state)

def parseBasicString : Scanner String := do
  expect subscript path text "\""
  let segment ← position
  loop rounds (basicTurn subscript path text parse) ([byte '"'], segment)

def literalTurn (start : Nat) : Scanner (Turn Unit String) := do
  let c ← char subscript text
  let index ← position
  if c = none then error path "unterminated literal string"
  else if c = some (byte '\'') then do
    let result ← slice subscript text start index
    advance 1
    pure (.done (decode result))
  else if c = some (byte '\n') ∨ c = some (byte '\r') then error path "multiline strings are unsupported"
  else do
    advance 1
    pure (.again ())

def parseLiteralString : Scanner String := do
  expect subscript path text "'"
  let start ← position
  loop rounds (fun _ => literalTurn subscript path text start) ()

def endsKey (c : Byte) : Bool := c ∈ bytes ".=],# \t\n\r"

def bareKey (c : Byte) : Bool :=
  (byte 'a' ≤ c && c ≤ byte 'z') || (byte 'A' ≤ c && c ≤ byte 'Z') || (byte '0' ≤ c && c ≤ byte '9') || c == byte '_' ||
    c == byte '-'

def bareTurn : Scanner (Turn Unit Unit) := do
  let c ← char subscript text
  match c with
  | none => pure (.done ())
  | some c =>
    if endsKey c then pure (.done ())
    else if bareKey c then do
      advance 1
      pure (.again ())
    else error path "unsupported character in bare key"

def parseBareKey : Scanner String := do
  let start ← position
  loop rounds (fun _ => bareTurn subscript path text) ()
  let index ← position
  if index = start then error path "expected key"
  else do
    let key ← slice subscript text start index
    pure (decode key)

def parseKeySegment : Scanner String := do
  skipSpaces subscript rounds text
  let c ← char subscript text
  if c = some (byte '"') then parseBasicString subscript rounds path text parse
  else if c = some (byte '\'') then parseLiteralString subscript rounds path text
  else parseBareKey subscript rounds path text

def keyTurn (parts : List String) : Scanner (Turn (List String) (List String)) := do
  skipSpaces subscript rounds text
  let c ← char subscript text
  if c = some (byte '.') then do
    advance 1
    let part ← parseKeySegment subscript rounds path text parse
    pure (.again (parts ++ [part]))
  else pure (.done parts)

/-- `TomlParser._parse_key_path` without a closing bracket. -/
def parseKeyPath : Scanner (List String) := do
  let first ← parseKeySegment subscript rounds path text parse
  loop rounds (keyTurn subscript rounds path text parse) [first]

/-- `TomlParser._parse_key_path` with the closing bracket of a header. -/
def parseHeaderPath : Scanner (List String) := do
  let parts ← parseKeyPath subscript rounds path text parse
  skipSpaces subscript rounds text
  let c ← char subscript text
  if c = some (byte ']') then pure parts else error path "expected ']' after table key"

/-! Numbers and other scalars. -/

variable (token : List Byte)

def signed : Nat := if token.head? = some (byte '+') ∨ token.head? = some (byte '-') then 1 else 0

def withoutUnderscores : Scanner (List Byte) :=
  (List.range token.length).foldlM (fun result i => do
    let c ← unitAt subscript token i
    if c ≠ byte '_' then pure (result ++ [c]) else pure result) []

/-- An underscore after the marker of a base. -/
def misplaced : Scanner Bool := do
  let start := signed token
  if start + 2 < token.length then do
    let marker ← unitAt subscript token (start + 1)
    if marker ∈ bytes "xXoObB" then do
      let c ← unitAt subscript token (start + 2)
      pure (decide (c = byte '_'))
    else pure false
  else pure false

def stripUnderscores : Scanner (List Byte) :=
  if token.head? = some (byte '_') ∨ token.getLast? = some (byte '_') ∨ bytes "__" <:+: token then
    error path "invalid numeric underscore placement"
  else do
    let refused ← misplaced subscript token
    if refused then error path "invalid numeric underscore placement" else withoutUnderscores subscript token

def parseIntegerBase (base : Nat) : Scanner Json := do
  let start := signed token
  if token.length ≤ start + 2 then error path "invalid integer"
  else do
    let digits ← slice subscript token (start + 2) token.length
    let amount ← (List.range digits.length).foldlM (fun amount i => do
      let c ← unitAt subscript digits i
      match hex c with
      | some digit =>
        if base ≤ digit then error path "invalid integer digit"
        else if (2 ^ 64 - 1 - digit) / base < amount then error path "integer overflow"
        else pure (amount * base + digit)
      | none => error path "invalid integer digit") 0
    if token.head? = some (byte '-') then
      if 2 ^ 63 < amount then error path "integer overflow" else pure (.int (-amount))
    else if amount < 2 ^ 63 then pure (.int amount) else pure (.uint amount)

def parseNumber : Scanner Json := do
  let clean ← stripUnderscores subscript path token
  let signless := clean.drop (signed clean)
  if (bytes "0x").isPrefixOf signless ∨ (bytes "0X").isPrefixOf signless then parseIntegerBase subscript path clean 16
  else if (bytes "0o").isPrefixOf signless ∨ (bytes "0O").isPrefixOf signless then parseIntegerBase subscript path clean 8
  else if (bytes "0b").isPrefixOf signless ∨ (bytes "0B").isPrefixOf signless then parseIntegerBase subscript path clean 2
  else if byte '.' ∈ clean ∨ byte 'e' ∈ clean ∨ byte 'E' ∈ clean then
    match parse clean with
    | some (.float value) => pure (.float value)
    | _ => error path "invalid decimal float"
  else if 1 < clean.length ∧ signless.head? = some (byte '0') then error path "leading zero in decimal integer"
  else
    match parse (if clean.head? = some (byte '+') then clean.drop 1 else clean) with
    | some (.int value) => pure (.int value)
    | some (.uint value) => pure (.uint value)
    | _ => error path "invalid decimal integer"

/-- A token with the dashes of a date. -/
def dated : Scanner Bool :=
  if token.length = 10 then do
    let year ← unitAt subscript token 4
    if year = byte '-' then do
      let month ← unitAt subscript token 7
      pure (decide (month = byte '-'))
    else pure false
  else pure false

def parseToken : Scanner Json := do
  let date ← dated subscript token
  if date then error path "date/time values are unsupported"
  else if token = bytes "true" then pure (.bool true)
  else if token = bytes "false" then pure (.bool false)
  else if token ∈ ["inf", "-inf", "+inf", "nan", "+nan", "-nan"].map bytes then
    error path "special float values are unsupported"
  else if byte ':' ∈ token then error path "date/time values are unsupported"
  else parseNumber subscript path parse token

def endsToken (c : Byte) : Bool := c ∈ bytes ",]\x7d# \t\n\r"

def tokenTurn : Scanner (Turn Unit Unit) := do
  let c ← char subscript text
  match c with
  | none => pure (.done ())
  | some c =>
    if endsToken c then pure (.done ())
    else do
      advance 1
      pure (.again ())

/-- Three quotes stand ahead. -/
def multiline : Scanner Bool := do
  let index ← position
  if index + 3 ≤ text.length then do
    let ahead ← slice subscript text index (index + 3)
    pure (decide (ahead = bytes "\"\"\"" ∨ ahead = bytes "'''"))
  else pure false

def parseBareValue : Scanner Json := do
  let start ← position
  loop rounds (fun _ => tokenTurn subscript text) ()
  let index ← position
  if index = start then error path "expected value"
  else do
    let token ← slice subscript text start index
    parseToken subscript path parse token

def parseScalarValue : Scanner Json := do
  skipSpaces subscript rounds text
  let c ← char subscript text
  let quotes ← multiline subscript text
  if quotes then error path "multiline strings are unsupported"
  else if c = some (byte '"') then do
    let value ← parseBasicString subscript rounds path text parse
    pure (.str value)
  else if c = some (byte '\'') then do
    let value ← parseLiteralString subscript rounds path text
    pure (.str value)
  else parseBareValue subscript rounds path text parse

end

/-! The stack of containers, and statements. -/

section
variable {V T R : Type} (b : Builder V T R) (subscript : Subscript) (rounds : Nat) (path : String) (text : List Byte)
variable (parse : List Byte → Option Json)

abbrev Round (V T : Type) := Turn (List (Frame V T)) V

/-- A completed value goes to the container around it, or it is the value read. -/
def deliver (resets : Bool) (value : V) : List (Frame V T) → Scanner (Round V T)
  | [] => pure (.done value)
  | parent :: outer => do
    let parent ← lift (parent.take b resets value)
    pure (.again (parent :: outer))

/-- A key and its sign, as they stand before a value. -/
def parseAssigned : Scanner (List String) := do
  let key ← parseKeyPath subscript rounds path text parse
  skipSpaces subscript rounds text
  expect subscript path text "="
  skipSpaces subscript rounds text
  pure key

def itemTurn (outer : List (Frame V T)) : Frame V T → Scanner (Round V T)
  | .array _ items => do
    skipValueSpace subscript rounds text
    let c ← char subscript text
    if c = some (byte ']') then do
      advance 1
      deliver b true (b.array items) outer
    else pure (.again (.array .value items :: outer))
  | .table _ object _ afterComma => do
    skipSpaces subscript rounds text
    let c ← char subscript text
    if c = some (byte '\n') ∨ c = some (byte '\r') ∨ c = some (byte '#') then
      error path "expected ',' or '\x7d' in inline table"
    else if afterComma ∧ c = some (byte '}') then error path "trailing comma in inline table is unsupported"
    else if c = some (byte '}') then do
      advance 1
      deliver b true (b.table object) outer
    else do
      let key ← parseAssigned subscript rounds path text parse
      pure (.again (.table .value object key false :: outer))

def valueTurn (outer : List (Frame V T)) (top : Frame V T) : Scanner (Round V T) := do
  skipSpaces subscript rounds text
  let c ← char subscript text
  if c = some (byte '[') then do
    advance 1
    pure (.again (.array .item [] :: top :: outer))
  else if c = some (byte '{') then do
    advance 1
    pure (.again (.table .item b.empty [] false :: top :: outer))
  else do
    let value ← parseScalarValue subscript rounds path text parse
    deliver b true (b.scalar value) (top :: outer)

def delimiterTurn (outer : List (Frame V T)) : Frame V T → Scanner (Round V T)
  | .array _ items => do
    skipValueSpace subscript rounds text
    let c ← char subscript text
    if c = some (byte ',') then do
      advance 1
      pure (.again (.array .item items :: outer))
    else if c = some (byte ']') then do
      advance 1
      deliver b false (b.array items) outer
    else error path "expected container delimiter"
  | .table _ object pending _ => do
    skipSpaces subscript rounds text
    let c ← char subscript text
    if c = some (byte ',') then do
      advance 1
      pure (.again (.table .item object pending true :: outer))
    else if c = some (byte '}') then do
      advance 1
      deliver b false (b.table object) outer
    else error path "expected ',' or '\x7d' in inline table"

/-- A round of the loop of `TomlParser._parse_value`. -/
def valueRound : List (Frame V T) → Scanner (Round V T)
  | [] => error path "empty container"
  | top :: outer =>
    match top.phase with
    | .item => itemTurn b subscript rounds path text parse outer top
    | .value => valueTurn b subscript rounds path text parse outer top
    | .delimiter => delimiterTurn b subscript rounds path text outer top

/-- A container before an item has a phase more to go than one before a value or a delimiter. -/
def rank : List (Frame V T) → Nat
  | [] => 0
  | top :: _ => if top.phase = .item then 1 else 0

def parseValue : Scanner V := do
  skipSpaces subscript rounds text
  let c ← char subscript text
  if c = some (byte '[') then do
    advance 1
    Reader.loop rank (valueRound b subscript rounds path text parse) rounds [.array .item []]
  else if c = some (byte '{') then do
    advance 1
    Reader.loop rank (valueRound b subscript rounds path text parse) rounds [.table .item b.empty [] false]
  else do
    let value ← parseScalarValue subscript rounds path text parse
    pure (b.scalar value)

def finishStatement : Scanner Unit := do
  skipSpaces subscript rounds text
  skipComment subscript rounds text
  let c ← char subscript text
  if c = some (byte '\n') then advance 1
  else if c ≠ none then error path "unexpected trailing input"
  else pure ()

/-- The path of a header, its closing brackets and the end of its line. -/
def headerLine (closing : String) : Scanner (List String) := do
  let parts ← parseHeaderPath subscript rounds path text parse
  expect subscript path text closing
  finishStatement subscript rounds path text
  pure parts

def parseHeader (root : R) : Scanner R := do
  let index ← position
  let opening ← slice subscript text index (index + 2)
  if opening = bytes "[[" then do
    advance 2
    let parts ← headerLine subscript rounds path text parse "]]"
    lift (b.arrayHeader root parts)
  else do
    expect subscript path text "["
    let parts ← headerLine subscript rounds path text parse "]"
    lift (b.header root parts)

def parseAssignment (root : R) : Scanner R := do
  let key ← parseAssigned subscript rounds path text parse
  let value ← parseValue b subscript rounds path text parse
  let root ← lift (b.assign root key value)
  finishStatement subscript rounds path text
  pure root

def statementTurn (root : R) : Scanner (Turn R R) := do
  skipBlankLines subscript rounds text
  let c ← char subscript text
  if c = none then pure (.done root)
  else if c = some (byte '[') then do
    let root ← parseHeader b subscript rounds path text parse root
    pure (.again root)
  else do
    let root ← parseAssignment b subscript rounds path text parse root
    pure (.again root)

/-- `TomlParser.parse` -/
def parseText (root : R) : Scanner R := loop rounds (statementTurn b subscript rounds path text parse) root

end

end Fala.Toml.Bytes
