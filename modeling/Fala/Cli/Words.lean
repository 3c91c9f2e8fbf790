import Mathlib.Data.List.Basic
import Mathlib.Data.List.Infix

/-! The command words of `cli.mojo` and `native_cli_parse.mojo`. -/

namespace Fala.Cli

abbrev Word := List Char

/-- The flags of `_word` and `_count`. -/
structure Scan where
  active : Bool := false
  quote : Option Char := none
  escaped : Bool := false
  jsonDepth : Nat := 0
  jsonString : Bool := false
  deriving DecidableEq

namespace Scan

/-- A character of a bracket group. -/
def inJson (s : Scan) (ch : Char) : Scan :=
  if ch = '\x22' then { s with active := true, jsonString := !s.jsonString }
  else if (s.jsonString = false ∧ ch = '{') ∨ (s.jsonString = false ∧ ch = '[') then
    { s with active := true, jsonDepth := s.jsonDepth + 1 }
  else if (s.jsonString = false ∧ ch = '}') ∨ (s.jsonString = false ∧ ch = ']') then
    { s with active := true, jsonDepth := s.jsonDepth - 1 }
  else { s with active := true }

end Scan

/-- The loop of `_word`: the token it returns, or nothing when it falls through. -/
def wordFrom (wanted : Nat) : List Char → Nat → Word → Scan → Option Word
  | [], current, token, s =>
    let token := if s.escaped then token ++ ['\x5c'] else token
    if s.active ∧ current = wanted then some token else none
  | ch :: rest, current, token, s =>
    if s.escaped then wordFrom wanted rest current (token ++ [ch]) { s with active := true, escaped := false }
    else if ch = '\x5c' ∧ s.quote ≠ some '\x27' then
      wordFrom wanted rest current (token ++ ['\x5c']) { s with escaped := true, active := true }
    else if 0 < s.jsonDepth then wordFrom wanted rest current (token ++ [ch]) (s.inJson ch)
    else if s.quote ≠ none then
      if s.quote = some ch then wordFrom wanted rest current token { s with quote := none, active := true }
      else wordFrom wanted rest current (token ++ [ch]) { s with active := true }
    else if ch = '{' ∨ ch = '[' then
      wordFrom wanted rest current (token ++ [ch]) { s with active := true, jsonDepth := 1, jsonString := false }
    else if ch = '\x27' ∨ ch = '\x22' then
      wordFrom wanted rest current token { s with quote := some ch, active := true }
    else if ch = ' ' ∨ ch = '\t' then
      if s.active then
        if current = wanted then some token
        else wordFrom wanted rest (current + 1) [] { s with active := false }
      else wordFrom wanted rest current token s
    else wordFrom wanted rest current (token ++ [ch]) { s with active := true }

def word (command : List Char) (wanted : Nat) : Word := (wordFrom wanted command 0 [] {}).getD []

/-- The loop of `_count`. -/
def countFrom : List Char → Nat → Scan → Nat
  | [], result, s => if s.active then result + 1 else result
  | ch :: rest, result, s =>
    if s.escaped then countFrom rest result { s with escaped := false, active := true }
    else if ch = '\x5c' ∧ s.quote ≠ some '\x27' then countFrom rest result { s with escaped := true, active := true }
    else if 0 < s.jsonDepth then countFrom rest result (s.inJson ch)
    else if s.quote ≠ none then
      if s.quote = some ch then countFrom rest result { s with quote := none, active := true }
      else countFrom rest result { s with active := true }
    else if ch = '{' ∨ ch = '[' then
      countFrom rest result { s with active := true, jsonDepth := 1, jsonString := false }
    else if ch = '\x27' ∨ ch = '\x22' then countFrom rest result { s with quote := some ch, active := true }
    else if ch = ' ' ∨ ch = '\t' then
      if s.active then countFrom rest (result + 1) { s with active := false }
      else countFrom rest result s
    else countFrom rest result { s with active := true }

def count (command : List Char) : Nat := countFrom command 0 {}

def shellQuote (value : Word) : List Char :=
  '\x27' :: (value.flatMap fun ch => if ch = '\x27' then ['\x27', '\x22', '\x27', '\x22', '\x27'] else [ch]) ++ ['\x27']

/-- The command that `main` joins from the arguments after the program's name. -/
def joined (args : List Word) : List Char :=
  (args.zipIdx 1).foldl (fun command arg =>
    let command := if command ≠ [] then command ++ [' '] else command
    if arg.2 ≤ 2 then command ++ arg.1 else command ++ shellQuote arg.1) []

/-- The words of a command: `_word` for every index below `_count`. -/
def tokens (command : List Char) : List Word := (List.range (count command)).map (word command)

/-- The result of a command: an envelope with an `ok` of its own, or lines of rows. -/
inductive Output where
  | envelope (before : List Char) (ok : Bool) (after : List Char)
  | lines (text : List Char)

namespace Output

def text : Output → List Char
  | .envelope before ok after => before ++ "\"ok\":".toList ++ (if ok then "true" else "false").toList ++ after
  | .lines text => text

def rootOk : Output → Option Bool
  | .envelope _ ok _ => some ok
  | .lines _ => none

end Output

/-- What `main` prints, and whether it raises. -/
def main (quote : String → List Char) (dispatch : List Char → Except String Output) (args : List Word) :
    List Char × Bool :=
  match dispatch (joined args) with
  | .error detail =>
    ("\x7b\"ok\":false,\"runtime\":\"mojo\",\"error\":\x7b\"type\":\"cli_failure\",\"message\":".toList ++ quote detail ++
      "\x7d\x7d".toList, true)
  | .ok output => (output.text, decide ("\"ok\":false".toList <:+: output.text))

/-! One reading of a command for both loops. -/

namespace Scan

def next (s : Scan) (ch : Char) : Scan :=
  if s.escaped then { s with active := true, escaped := false }
  else if ch = '\x5c' ∧ s.quote ≠ some '\x27' then { s with escaped := true, active := true }
  else if 0 < s.jsonDepth then s.inJson ch
  else if s.quote ≠ none then
    if s.quote = some ch then { s with quote := none, active := true } else { s with active := true }
  else if ch = '{' ∨ ch = '[' then { s with active := true, jsonDepth := 1, jsonString := false }
  else if ch = '\x27' ∨ ch = '\x22' then { s with quote := some ch, active := true }
  else if ch = ' ' ∨ ch = '\t' then { s with active := false }
  else { s with active := true }

/-- A character stands outside of every quote, bracket group and escape. -/
def outside (s : Scan) : Bool := !s.escaped && s.jsonDepth == 0 && s.quote == none

def separates (s : Scan) (ch : Char) : Bool := s.outside && (ch == ' ' || ch == '\t')

def opens (s : Scan) (ch : Char) : Bool := s.outside && (ch == '\x27' || ch == '\x22')

def closes (s : Scan) (ch : Char) : Bool := !s.escaped && s.jsonDepth == 0 && s.quote == some ch && ch != '\x5c'

/-- What a character adds to a token. -/
def kept (s : Scan) (ch : Char) : Word := if s.separates ch ∨ s.opens ch ∨ s.closes ch then [] else [ch]

section Steps
variable {s : Scan} {ch : Char}

theorem step_escaped (escaped : s.escaped = true) : s.next ch = { s with active := true, escaped := false } ∧
    s.kept ch = [ch] ∧ s.separates ch = false := by
  simp [next, kept, separates, opens, closes, outside, escaped]

theorem step_backslash (escaped : s.escaped = false) (backslash : ch = '\x5c' ∧ s.quote ≠ some '\x27') :
    s.next ch = { s with escaped := true, active := true } ∧ s.kept ch = [ch] ∧ s.separates ch = false := by
  simp [next, kept, separates, opens, closes, outside, escaped, backslash]

theorem step_json (escaped : s.escaped = false) (backslash : ¬(ch = '\x5c' ∧ s.quote ≠ some '\x27'))
    (deep : 0 < s.jsonDepth) : s.next ch = s.inJson ch ∧ s.kept ch = [ch] ∧ s.separates ch = false := by
  have other : s.jsonDepth ≠ 0 := by omega
  simp [next, kept, separates, opens, closes, outside, escaped, backslash, deep, other]

theorem step_closes (escaped : s.escaped = false) (flat : s.jsonDepth = 0) (plain : ch ≠ '\x5c')
    (closed : s.quote = some ch) :
    s.next ch = { s with quote := none, active := true } ∧ s.kept ch = [] ∧ s.separates ch = false := by
  simp [next, kept, separates, opens, closes, outside, escaped, flat, plain, closed]

theorem step_quoted (escaped : s.escaped = false) (backslash : ¬(ch = '\x5c' ∧ s.quote ≠ some '\x27'))
    (flat : s.jsonDepth = 0) (quoted : s.quote ≠ none) (other : s.quote ≠ some ch) :
    s.next ch = { s with active := true } ∧ s.kept ch = [ch] ∧ s.separates ch = false := by
  simp [next, kept, separates, opens, closes, outside, escaped, backslash, flat, quoted, other]

theorem step_bracket (bare : s.escaped = false ∧ s.jsonDepth = 0 ∧ s.quote = none) (bracket : ch = '{' ∨ ch = '[') :
    s.next ch = { s with active := true, jsonDepth := 1, jsonString := false } ∧ s.kept ch = [ch] ∧
      s.separates ch = false := by
  rcases bracket with rfl | rfl <;> simp [next, kept, separates, opens, closes, outside, bare]

theorem step_opens (bare : s.escaped = false ∧ s.jsonDepth = 0 ∧ s.quote = none) (quote : ch = '\x27' ∨ ch = '\x22') :
    s.next ch = { s with quote := some ch, active := true } ∧ s.kept ch = [] ∧ s.separates ch = false := by
  rcases quote with rfl | rfl <;> simp [next, kept, separates, opens, closes, outside, bare]

theorem step_space (bare : s.escaped = false ∧ s.jsonDepth = 0 ∧ s.quote = none) (space : ch = ' ' ∨ ch = '\t') :
    s.next ch = { s with active := false } ∧ s.kept ch = [] ∧ s.separates ch = true := by
  rcases space with rfl | rfl <;> simp [next, kept, separates, opens, closes, outside, bare]

theorem step_plain (bare : s.escaped = false ∧ s.jsonDepth = 0 ∧ s.quote = none) (plain : ch ≠ '\x5c')
    (bracket : ¬(ch = '{' ∨ ch = '[')) (quote : ¬(ch = '\x27' ∨ ch = '\x22')) (space : ¬(ch = ' ' ∨ ch = '\t')) :
    s.next ch = { s with active := true } ∧ s.kept ch = [ch] ∧ s.separates ch = false := by
  rw [not_or] at space
  simp [next, kept, separates, opens, closes, outside, bare, plain, bracket, quote, space]

end Steps

theorem mode (s : Scan) (ch : Char) :
    s.escaped = true ∨
    (s.escaped = false ∧ ch = '\x5c' ∧ s.quote ≠ some '\x27') ∨
    (s.escaped = false ∧ ¬(ch = '\x5c' ∧ s.quote ≠ some '\x27') ∧ 0 < s.jsonDepth) ∨
    (s.escaped = false ∧ s.jsonDepth = 0 ∧ ch ≠ '\x5c' ∧ s.quote = some ch) ∨
    (s.escaped = false ∧ ¬(ch = '\x5c' ∧ s.quote ≠ some '\x27') ∧ s.jsonDepth = 0 ∧ s.quote ≠ none ∧
      s.quote ≠ some ch) ∨
    ((s.escaped = false ∧ s.jsonDepth = 0 ∧ s.quote = none) ∧ ch ≠ '\x5c') := by
  by_cases escaped : s.escaped = true
  · exact .inl escaped
  have going : s.escaped = false := eq_false_of_ne_true escaped
  by_cases backslash : ch = '\x5c' ∧ s.quote ≠ some '\x27'
  · exact .inr (.inl ⟨going, backslash⟩)
  by_cases deep : 0 < s.jsonDepth
  · exact .inr (.inr (.inl ⟨going, backslash, deep⟩))
  have flat : s.jsonDepth = 0 := by omega
  by_cases unquoted : s.quote = none
  · have plain : ch ≠ '\x5c' := fun is => backslash ⟨is, by rw [unquoted]; exact nofun⟩
    exact .inr (.inr (.inr (.inr (.inr ⟨⟨going, flat, unquoted⟩, plain⟩))))
  by_cases closed : s.quote = some ch
  · have plain : ch ≠ '\x5c' := by
      intro is
      rw [is] at closed
      exact backslash ⟨is, by rw [closed]; decide⟩
    exact .inr (.inr (.inr (.inl ⟨going, flat, plain, closed⟩)))
  · exact .inr (.inr (.inr (.inr (.inl ⟨going, backslash, flat, unquoted, closed⟩))))

end Scan

/-- The words read so far, and the one in hand. -/
structure Reader where
  finished : List Word := []
  token : Word := []
  scan : Scan := {}

namespace Reader

def take (r : Reader) (ch : Char) : Reader :=
  if r.scan.active ∧ r.scan.separates ch then ⟨r.finished ++ [r.token], [], r.scan.next ch⟩
  else ⟨r.finished, r.token ++ r.scan.kept ch, r.scan.next ch⟩

def words (r : Reader) : List Word :=
  if r.scan.active then r.finished ++ [if r.scan.escaped then r.token ++ ['\x5c'] else r.token] else r.finished

end Reader

def read (text : List Char) : Reader := text.foldl Reader.take {}

theorem wordFrom_cons (wanted : Nat) (ch : Char) (rest : List Char) (current : Nat) (token : Word) (s : Scan) :
    wordFrom wanted (ch :: rest) current token s =
      if s.active ∧ s.separates ch then
        if current = wanted then some token else wordFrom wanted rest (current + 1) [] (s.next ch)
      else wordFrom wanted rest current (token ++ s.kept ch) (s.next ch) := by
  rcases s.mode ch with escaped | ⟨going, rfl, unquoted⟩ | ⟨going, backslash, deep⟩ | ⟨going, flat, plain, closed⟩ |
    ⟨going, backslash, flat, quoted, other⟩ | ⟨bare, plain⟩
  · have step := @Scan.step_escaped s ch escaped
    simp [wordFrom, escaped, step]
  · have step := Scan.step_backslash going ⟨rfl, unquoted⟩
    simp [wordFrom, going, unquoted, step]
  · have step := Scan.step_json going backslash deep
    simp [wordFrom, going, backslash, deep, step]
  · have step := Scan.step_closes going flat plain closed
    simp [wordFrom, going, flat, plain, closed, step]
  · have step := Scan.step_quoted going backslash flat quoted other
    simp [wordFrom, going, backslash, flat, quoted, other, step]
  by_cases bracket : ch = '{' ∨ ch = '['
  · have step := Scan.step_bracket bare bracket
    simp [wordFrom, bare, plain, bracket, step]
  by_cases quote : ch = '\x27' ∨ ch = '\x22'
  · have step := Scan.step_opens bare quote
    simp [wordFrom, bare, plain, bracket, quote, step]
  by_cases space : ch = ' ' ∨ ch = '\t'
  · have step := Scan.step_space bare space
    by_cases active : s.active
    · simp [wordFrom, bare, plain, bracket, quote, space, active, step]
    · have unchanged : { s with active := false } = s := by
        rw [← eq_false_of_ne_true active]
      rw [unchanged] at step
      simp [wordFrom, bare, plain, bracket, quote, space, active, step]
  · have step := Scan.step_plain bare plain bracket quote space
    simp [wordFrom, bare, plain, bracket, quote, space, step]

theorem countFrom_cons (ch : Char) (rest : List Char) (result : Nat) (s : Scan) :
    countFrom (ch :: rest) result s =
      if s.active ∧ s.separates ch then countFrom rest (result + 1) (s.next ch)
      else countFrom rest result (s.next ch) := by
  rcases s.mode ch with escaped | ⟨going, rfl, unquoted⟩ | ⟨going, backslash, deep⟩ | ⟨going, flat, plain, closed⟩ |
    ⟨going, backslash, flat, quoted, other⟩ | ⟨bare, plain⟩
  · have step := @Scan.step_escaped s ch escaped
    simp [countFrom, escaped, step]
  · have step := Scan.step_backslash going ⟨rfl, unquoted⟩
    simp [countFrom, going, unquoted, step]
  · have step := Scan.step_json going backslash deep
    simp [countFrom, going, backslash, deep, step]
  · have step := Scan.step_closes going flat plain closed
    simp [countFrom, going, flat, plain, closed, step]
  · have step := Scan.step_quoted going backslash flat quoted other
    simp [countFrom, going, backslash, flat, quoted, other, step]
  by_cases bracket : ch = '{' ∨ ch = '['
  · have step := Scan.step_bracket bare bracket
    simp [countFrom, bare, plain, bracket, step]
  by_cases quote : ch = '\x27' ∨ ch = '\x22'
  · have step := Scan.step_opens bare quote
    simp [countFrom, bare, plain, bracket, quote, step]
  by_cases space : ch = ' ' ∨ ch = '\t'
  · have step := Scan.step_space bare space
    by_cases active : s.active
    · simp [countFrom, bare, plain, bracket, quote, space, active, step]
    · have unchanged : { s with active := false } = s := by
        rw [← eq_false_of_ne_true active]
      rw [unchanged] at step
      simp [countFrom, bare, plain, bracket, quote, space, active, step]
  · have step := Scan.step_plain bare plain bracket quote space
    simp [countFrom, bare, plain, bracket, quote, space, step]

/-! The words of a reader. -/

theorem take_separator {r : Reader} {ch : Char} (ends : r.scan.active = true ∧ r.scan.separates ch = true) :
    r.take ch = ⟨r.finished ++ [r.token], [], r.scan.next ch⟩ := if_pos ends

theorem take_kept {r : Reader} {ch : Char} (goes : ¬(r.scan.active = true ∧ r.scan.separates ch = true)) :
    r.take ch = ⟨r.finished, r.token ++ r.scan.kept ch, r.scan.next ch⟩ := if_neg goes

theorem finished_words (text : List Char) (r : Reader) : r.finished <+: (text.foldl Reader.take r).words := by
  induction text generalizing r with
  | nil =>
    show r.finished <+: r.words
    rw [Reader.words]
    split
    · exact List.prefix_append _ _
    · exact List.prefix_refl _
  | cons ch rest ih =>
    have later := ih (r.take ch)
    by_cases ends : r.scan.active = true ∧ r.scan.separates ch = true
    · rw [take_separator ends] at later
      rw [List.foldl_cons, take_separator ends]
      exact (List.prefix_append _ _).trans later
    · rw [take_kept ends] at later
      rw [List.foldl_cons, take_kept ends]
      exact later

theorem wordFrom_eq {wanted : Nat} (text : List Char) (r : Reader) (open_ : r.finished.length ≤ wanted) :
    wordFrom wanted text r.finished.length r.token r.scan = (text.foldl Reader.take r).words[wanted]? := by
  induction text generalizing r with
  | nil =>
    rw [wordFrom, List.foldl_nil, Reader.words]
    by_cases active : r.scan.active = true
    · by_cases here : r.finished.length = wanted
      · simp [active, here]
      · have beyond : ∀ token, (r.finished ++ [token])[wanted]? = none := by
          intro token
          apply List.getElem?_eq_none
          rw [List.length_append, List.length_singleton]
          omega
        rw [if_pos active, beyond]
        simp [here]
    · simp [active, open_]
  | cons ch rest ih =>
    rw [wordFrom_cons, List.foldl_cons]
    by_cases ends : r.scan.active = true ∧ r.scan.separates ch = true
    · have grown : (r.finished ++ [r.token]).length = r.finished.length + 1 := List.length_append
      rw [if_pos ends, take_separator ends]
      by_cases here : r.finished.length = wanted
      · have kept := finished_words rest ⟨r.finished ++ [r.token], [], r.scan.next ch⟩
        have placed : (r.finished ++ [r.token])[wanted]? = some r.token := by
          rw [← here]
          exact List.getElem?_concat_length
        obtain ⟨later, whole⟩ := kept
        have inside : wanted < (r.finished ++ [r.token]).length := by omega
        rw [if_pos here, ← whole, List.getElem?_append_left inside, placed]
      · have later := ih ⟨r.finished ++ [r.token], [], r.scan.next ch⟩ (by rw [grown]; omega)
        rw [grown] at later
        rw [if_neg here]
        exact later
    · rw [if_neg ends, take_kept ends]
      exact ih ⟨r.finished, r.token ++ r.scan.kept ch, r.scan.next ch⟩ open_

theorem countFrom_eq (text : List Char) (r : Reader) :
    countFrom text r.finished.length r.scan = (text.foldl Reader.take r).words.length := by
  induction text generalizing r with
  | nil =>
    rw [countFrom, List.foldl_nil, Reader.words]
    by_cases active : r.scan.active = true
    · simp [active]
    · simp [active]
  | cons ch rest ih =>
    rw [countFrom_cons, List.foldl_cons]
    by_cases ends : r.scan.active = true ∧ r.scan.separates ch = true
    · have grown : (r.finished ++ [r.token]).length = r.finished.length + 1 := List.length_append
      have later := ih ⟨r.finished ++ [r.token], [], r.scan.next ch⟩
      rw [grown] at later
      rw [if_pos ends, take_separator ends]
      exact later
    · rw [if_neg ends, take_kept ends]
      exact ih ⟨r.finished, r.token ++ r.scan.kept ch, r.scan.next ch⟩

/-- The loop of `_word` finds what the loop of `_count` counts. -/
theorem word_found (command : List Char) (wanted : Nat) :
    wordFrom wanted command 0 [] {} = (read command).words[wanted]? := wordFrom_eq command {} (Nat.zero_le _)

theorem count_eq (command : List Char) : count command = (read command).words.length := countFrom_eq command {}

theorem tokens_eq (command : List Char) : tokens command = (read command).words := by
  rw [tokens, count_eq]
  apply List.ext_getElem?
  intro i
  by_cases less : i < (read command).words.length
  · simp [word, word_found, less]
  · simp [less]

end Fala.Cli
