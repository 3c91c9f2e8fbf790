import Fala.Json.Schema
import Fala.Toml.Lexical

namespace Fala.Toml

open Schema (bind_ok)

/-- Where the parser puts what it reads: values of type `V`, inline tables of type `T` and a document of
    type `R` under way. -/
structure Builder (V T R : Type) where
  scalar : Json → V
  array : List V → V
  table : T → V
  empty : T
  put : T → List String → V → Except String T
  header : R → List String → Except String R
  arrayHeader : R → List String → Except String R
  assign : R → List String → V → Except String R

/-- The states 0, 2 and 1 of a container: before an item, before a value, after a value. -/
inductive Phase where
  | item
  | value
  | delimiter
  deriving DecidableEq

/-- An entry of `frames` with those of `kinds`, `states`, `pending` and `after_comma`. -/
inductive Frame (V T : Type) where
  | array (phase : Phase) (items : List V)
  | table (phase : Phase) (object : T) (pending : List String) (afterComma : Bool)

def Frame.phase {V T : Type} : Frame V T → Phase
  | .array phase _ => phase
  | .table phase _ _ _ => phase

inductive Progress (V T : Type) where
  | more (rest : Text) (frames : List (Frame V T))
  | done (value : V) (rest : Text)

section

variable {V T R : Type} (b : Builder V T R) (parse : String → Option Json) (path : String)

def Frame.take (resets : Bool) (value : V) : Frame V T → Except String (Frame V T)
  | .array _ items => .ok (.array .delimiter (items ++ [value]))
  | .table _ object pending afterComma => do
    let object ← b.put object pending value
    return .table .delimiter object [] (!resets && afterComma)

/-- A completed value goes to the container around it, or it is the value read. -/
def deliver (resets : Bool) (value : V) (rest : Text) : List (Frame V T) → Except String (Progress V T)
  | [] => .ok (.done value rest)
  | parent :: outer => do
    let parent ← parent.take b resets value
    return .more rest (parent :: outer)

def itemStep (text : Text) (outer : List (Frame V T)) : Frame V T → Except String (Progress V T)
  | .array _ items =>
    match skipValueSpace text with
    | ']' :: rest => deliver b true (b.array items) rest outer
    | rest => .ok (.more rest (.array .value items :: outer))
  | .table _ object _ afterComma =>
    match skipSpaces text with
    | '\n' :: _ | '\r' :: _ | '#' :: _ => fail path "expected ',' or '\x7d' in inline table"
    | '}' :: rest =>
      if afterComma then fail path "trailing comma in inline table is unsupported"
      else deliver b true (b.table object) rest outer
    | text => do
      let (key, rest) ← parseAssigned parse path text
      return .more rest (.table .value object key false :: outer)

def valueStep (text : Text) (outer : List (Frame V T)) (top : Frame V T) : Except String (Progress V T) :=
  match skipSpaces text with
  | '[' :: rest => .ok (.more rest (.array .item [] :: top :: outer))
  | '{' :: rest => .ok (.more rest (.table .item b.empty [] false :: top :: outer))
  | text => do
    let (value, rest) ← parseScalarValue parse path text
    deliver b true (b.scalar value) rest (top :: outer)

def delimiterStep (text : Text) (outer : List (Frame V T)) : Frame V T → Except String (Progress V T)
  | .array _ items =>
    match skipValueSpace text with
    | ',' :: rest => .ok (.more rest (.array .item items :: outer))
    | ']' :: rest => deliver b false (b.array items) rest outer
    | _ => fail path "expected container delimiter"
  | .table _ object pending _ =>
    match skipSpaces text with
    | ',' :: rest => .ok (.more rest (.table .item object pending true :: outer))
    | '}' :: rest => deliver b false (b.table object) rest outer
    | _ => fail path "expected ',' or '\x7d' in inline table"

/-- A round of the loop of `TomlParser._parse_value`. -/
def step (text : Text) : List (Frame V T) → Except String (Progress V T)
  | [] => fail path "empty container"
  | top :: outer =>
    match top.phase with
    | .item => itemStep b parse path text outer top
    | .value => valueStep b parse path text outer top
    | .delimiter => delimiterStep b path text outer top

/-- What a round uses up: of the text, or of a container's phases before its next value. -/
def size (text : Text) : List (Frame V T) → Nat
  | [] => 2 * text.length
  | top :: _ => 2 * text.length + if top.phase = .item then 1 else 0

def Progress.size : Progress V T → Nat
  | .more rest frames => Toml.size rest frames
  | .done _ rest => 2 * rest.length

end

theorem skipBlankLines_length (text : Text) : (skipBlankLines text).length ≤ text.length := by
  have spaces := skipSpaces_length text
  have comment := skipComment_length (skipSpaces text)
  fun_induction skipBlankLines text with
  | case1 text rest left ih =>
    have inner := ih (skipSpaces_length rest) (skipComment_length (skipSpaces rest))
    rw [left, List.length_cons] at comment
    omega
  | case2 => omega

section

variable {V T R : Type} {b : Builder V T R} {parse : String → Option Json} {path : String}

theorem Frame.take_phase {frame taken : Frame V T} {resets : Bool} {value : V}
    (took : frame.take b resets value = .ok taken) : taken.phase = .delimiter := by
  cases frame with
  | array => cases took; rfl
  | table _ object pending =>
    simp only [Frame.take, bind_ok, pure, Except.pure, Except.ok.injEq] at took
    obtain ⟨object, _, rfl⟩ := took
    rfl

theorem deliver_size {resets : Bool} {value : V} {text : Text} {outer : List (Frame V T)} {next : Progress V T}
    (went : deliver b resets value text outer = .ok next) : next.size = 2 * text.length := by
  cases outer with
  | nil => cases went; rfl
  | cons parent outer =>
    cases took : parent.take b resets value with
    | error => rw [deliver, took] at went; cases went
    | ok taken =>
      rw [deliver, took] at went
      cases went
      simp [Progress.size, size, Frame.take_phase took]

theorem itemStep_size {text : Text} {outer : List (Frame V T)} {top : Frame V T} {next : Progress V T}
    (went : itemStep b parse path text outer top = .ok next) : next.size ≤ 2 * text.length := by
  have spaces := skipSpaces_length text
  have space := skipBlankLines_length text
  cases top with
  | array _ items =>
    simp only [itemStep, skipValueSpace] at went
    split at went
    · rename_i left
      have shorter := deliver_size went
      rw [left, List.length_cons] at space
      omega
    · cases went
      simp only [Progress.size, size, Frame.phase, reduceCtorEq, if_false]
      omega
  | table _ object _ afterComma =>
    simp only [itemStep] at went
    split at went
    · cases went
    · cases went
    · cases went
    · rename_i left
      split at went
      · cases went
      · have shorter := deliver_size went
        rw [left, List.length_cons] at spaces
        omega
    · simp only [bind_ok, Prod.exists, pure, Except.pure, Except.ok.injEq] at went
      obtain ⟨parts, left, key, rfl⟩ := went
      have used := parseAssigned_length key
      simp only [Progress.size, size, Frame.phase, reduceCtorEq, if_false]
      omega

theorem valueStep_size {text : Text} {outer : List (Frame V T)} {top : Frame V T} {next : Progress V T}
    (went : valueStep b parse path text outer top = .ok next) : next.size < 2 * text.length := by
  have spaces := skipSpaces_length text
  unfold valueStep at went
  split at went
  · rename_i left
    cases went
    rw [left, List.length_cons] at spaces
    simp only [Progress.size, size, Frame.phase, if_true]
    omega
  · rename_i left
    cases went
    rw [left, List.length_cons] at spaces
    simp only [Progress.size, size, Frame.phase, if_true]
    omega
  · simp only [bind_ok, Prod.exists] at went
    obtain ⟨value, rest, scalar, went⟩ := went
    have used := parseScalarValue_length scalar
    have shorter := deliver_size went
    omega

theorem delimiterStep_size {text : Text} {outer : List (Frame V T)} {top : Frame V T} {next : Progress V T}
    (went : delimiterStep b path text outer top = .ok next) : next.size < 2 * text.length := by
  have spaces := skipSpaces_length text
  have space := skipBlankLines_length text
  cases top with
  | array _ items =>
    simp only [delimiterStep, skipValueSpace] at went
    split at went
    · rename_i left
      cases went
      rw [left, List.length_cons] at space
      simp only [Progress.size, size, Frame.phase, if_true]
      omega
    · rename_i left
      have shorter := deliver_size went
      rw [left, List.length_cons] at space
      omega
    · cases went
  | table _ object pending =>
    simp only [delimiterStep] at went
    split at went
    · rename_i left
      cases went
      rw [left, List.length_cons] at spaces
      simp only [Progress.size, size, Frame.phase, if_true]
      omega
    · rename_i left
      have shorter := deliver_size went
      rw [left, List.length_cons] at spaces
      omega
    · cases went

theorem step_size {text : Text} {frames : List (Frame V T)} {next : Progress V T}
    (went : step b parse path text frames = .ok next) : next.size < size text frames := by
  cases frames with
  | nil => cases went
  | cons top outer =>
    simp only [step] at went
    cases phase : top.phase with
    | item =>
      rw [phase] at went
      have shorter := itemStep_size went
      have held : size text (top :: outer) = 2 * text.length + 1 := by simp [size, phase]
      omega
    | value =>
      rw [phase] at went
      have held : size text (top :: outer) = 2 * text.length := by simp [size, phase]
      rw [held]
      exact valueStep_size went
    | delimiter =>
      rw [phase] at went
      have held : size text (top :: outer) = 2 * text.length := by simp [size, phase]
      rw [held]
      exact delimiterStep_size went

end

section

variable {V T R : Type} (b : Builder V T R) (parse : String → Option Json) (path : String)

/-- The loop of `TomlParser._parse_value`. -/
def loop (text : Text) (frames : List (Frame V T)) : Except String (V × Text) :=
  match _went : step b parse path text frames with
  | .error message => .error message
  | .ok (.done value rest) => .ok (value, rest)
  | .ok (.more rest frames) => loop rest frames
termination_by size text frames
decreasing_by exact step_size _went

def parseValue (text : Text) : Except String (V × Text) :=
  match skipSpaces text with
  | '[' :: rest => loop b parse path rest [.array .item []]
  | '{' :: rest => loop b parse path rest [.table .item b.empty [] false]
  | text => do
    let (value, rest) ← parseScalarValue parse path text
    return (b.scalar value, rest)

def finishStatement (text : Text) : Except String Text :=
  match skipComment (skipSpaces text) with
  | [] => .ok []
  | '\n' :: rest => .ok rest
  | _ => fail path "unexpected trailing input"

/-- The path of a header, its closing brackets and the end of its line. -/
def headerLine (closing : String) (text : Text) : Except String (List String × Text) := do
  let (parts, rest) ← parseHeaderPath parse path text
  let rest ← expect path closing rest
  return (parts, ← finishStatement path rest)

def parseHeader (root : R) (text : Text) : Except String (R × Text) :=
  if startsWith "[[" text then do
    let (parts, rest) ← headerLine parse path "]]" (text.drop 2)
    return (← b.arrayHeader root parts, rest)
  else do
    let rest ← expect path "[" text
    let (parts, rest) ← headerLine parse path "]" rest
    return (← b.header root parts, rest)

def parseAssignment (root : R) (text : Text) : Except String (R × Text) := do
  let (key, rest) ← parseAssigned parse path text
  let (value, rest) ← parseValue b parse path rest
  let root ← b.assign root key value
  return (root, ← finishStatement path rest)

def parseStatement (root : R) (text : Text) : Except String (R × Text) :=
  if text.head? = some '[' then parseHeader b parse path root text else parseAssignment b parse path root text

end

section

variable {V T R : Type} {b : Builder V T R} {parse : String → Option Json} {path : String}

theorem loop_length {text rest : Text} {frames : List (Frame V T)} {value : V}
    (read : loop b parse path text frames = .ok (value, rest)) : 2 * rest.length < size text frames := by
  fun_induction loop b parse path text frames with
  | case1 => cases read
  | case2 text frames _ _ went =>
    cases read
    exact step_size went
  | case3 text frames left frames' went ih =>
    have later := ih read
    have shorter : size left frames' < size text frames := step_size went
    omega

theorem parseValue_length {text rest : Text} {value : V} (read : parseValue b parse path text = .ok (value, rest)) :
    rest.length ≤ text.length := by
  have spaces := skipSpaces_length text
  unfold parseValue at read
  split at read
  · rename_i left
    have shorter := loop_length read
    rw [left, List.length_cons] at spaces
    simp only [size, Frame.phase, if_true] at shorter
    omega
  · rename_i left
    have shorter := loop_length read
    rw [left, List.length_cons] at spaces
    simp only [size, Frame.phase, if_true] at shorter
    omega
  · cases scalar : parseScalarValue parse path (skipSpaces text) with
    | error => rw [scalar] at read; cases read
    | ok found =>
      rw [scalar] at read
      cases read
      have used := parseScalarValue_length scalar
      omega

theorem finishStatement_length {text rest : Text} (read : finishStatement path text = .ok rest) :
    rest.length ≤ text.length := by
  have spaces := skipSpaces_length text
  have comment := skipComment_length (skipSpaces text)
  unfold finishStatement at read
  split at read
  · cases read
    exact Nat.zero_le _
  · rename_i left
    cases read
    rw [left, List.length_cons] at comment
    omega
  · cases read

theorem headerLine_length {closing : String} {text rest : Text} {parts : List String}
    (read : headerLine parse path closing text = .ok (parts, rest)) : rest.length < text.length := by
  unfold headerLine at read
  simp only [bind_ok, Except.ok.injEq, Prod.exists, pure, Except.pure, Prod.mk.injEq] at read
  obtain ⟨_, _, key, _, closed, _, line, rfl, rfl⟩ := read
  have used := parseHeaderPath_length key
  have bracket := expect_length closed
  have ended := finishStatement_length line
  omega

theorem parseHeader_length {text rest : Text} {root grown : R}
    (read : parseHeader b parse path root text = .ok (grown, rest)) : rest.length < text.length := by
  unfold parseHeader at read
  split at read
  · simp only [bind_ok, Except.ok.injEq, Prod.exists, pure, Except.pure, Prod.mk.injEq] at read
    obtain ⟨_, _, line, _, _, rfl, rfl⟩ := read
    have used := headerLine_length line
    rw [List.length_drop] at used
    omega
  · simp only [bind_ok, Except.ok.injEq, Prod.exists, pure, Except.pure, Prod.mk.injEq] at read
    obtain ⟨_, opened, _, _, line, _, _, rfl, rfl⟩ := read
    have entered := expect_length opened
    have used := headerLine_length line
    omega

theorem parseAssignment_length {text rest : Text} {root grown : R}
    (read : parseAssignment b parse path root text = .ok (grown, rest)) : rest.length < text.length := by
  unfold parseAssignment at read
  simp only [bind_ok, Except.ok.injEq, Prod.exists, pure, Except.pure, Prod.mk.injEq] at read
  obtain ⟨parts, left, key, value, after, valued, _, _, _, finished, rfl, rfl⟩ := read
  have used := parseAssigned_length key
  have taken := parseValue_length valued
  have line := finishStatement_length finished
  omega

theorem parseStatement_length {text rest : Text} {root grown : R}
    (read : parseStatement b parse path root text = .ok (grown, rest)) : rest.length < text.length := by
  unfold parseStatement at read
  split at read
  · exact parseHeader_length read
  · exact parseAssignment_length read

end

section

variable {V T R : Type} (b : Builder V T R) (parse : String → Option Json) (path : String)

/-- The loop of `TomlParser.parse`. -/
def parseStatements (root : R) (text : Text) : Except String R :=
  match _left : skipBlankLines text with
  | [] => .ok root
  | c :: rest =>
    match _read : parseStatement b parse path root (c :: rest) with
    | .error message => .error message
    | .ok (root, rest) => parseStatements root rest
termination_by text.length
decreasing_by
  have blank := skipBlankLines_length text
  have shorter := parseStatement_length _read
  rw [_left] at blank
  omega

end

end Fala.Toml
