import Fala.Toml.Bytes
import Fala.Toml.Reading

/-! Every loop of the parser comes to an end, and every read stays within its text. -/

namespace Fala.Toml.Bytes
open Cursor
open Jsonl (Subscript)
open Cursor.Reader (position advance lift)

/-- Every byte is a character by itself. -/
def Ascii (text : List Byte) : Prop := ∀ c ∈ text, c < 128

theorem boundary_ascii {text : List Byte} (ascii : Ascii text) (place : Nat) : boundary text place = true := by
  have first : ∀ c : BitVec 8, c < 128 → c &&& 0xc0 ≠ 0x80 := by decide
  rw [boundary]
  cases at_ : text[place]? with
  | none => rfl
  | some c =>
    have other : c &&& 0xc0 ≠ 0x80 := fun same =>
      first c.toBitVec (ascii c (List.mem_of_getElem? at_)) (congrArg UInt8.toBitVec same)
    exact bne_iff_ne.mpr other

section
variable {subscript : Subscript} {rounds cursor : Nat} {path : String} {text : List Byte} {parse : List Byte → Option Json}

/-- A `while` loop ends when every round that goes on moves the cursor. -/
theorem loop_sound {τ α : Type} {body : τ → Scanner (Turn τ α)} {state : τ} {invariant : τ → Prop}
    {post : α → Nat → Prop} (turn : ∀ state cursor, cursor ≤ text.length → invariant state →
      Sound (cuts subscript) (Ascii text) text.length (body state) cursor
        (Turn.After (fun next moved => invariant next ∧ cursor < moved) post))
    (enough : 2 * text.length + 1 < rounds) (inside : cursor ≤ text.length) (starts : invariant state) :
    Sound (cuts subscript) (Ascii text) text.length (loop rounds body state) cursor post := by
  apply @sound_loop _ _ _ _ _ _ _ (fun _ => 0) body 0 rounds state invariant
  · exact fun _ => Nat.le_refl _
  · intro state cursor inside starts
    apply (turn state cursor inside starts).weaken
    intro next moved _ _ holds
    cases next with
    | done a => exact holds
    | again next => exact ⟨holds.1, .inl holds.2⟩
  · omega
  · exact inside
  · exact starts

theorem while_sound {τ α : Type} {body : τ → Scanner (Turn τ α)} {state : τ} {post : α → Nat → Prop}
    (turn : ∀ state cursor, cursor ≤ text.length →
      Sound (cuts subscript) (Ascii text) text.length (body state) cursor (Turn.After (fun _ moved => cursor < moved) post))
    (enough : 2 * text.length + 1 < rounds) (inside : cursor ≤ text.length) :
    Sound (cuts subscript) (Ascii text) text.length (loop rounds body state) cursor post := by
  apply @loop_sound _ _ _ _ _ _ _ _ (fun _ => True) _ _ enough inside trivial
  intro state cursor inside _
  apply (turn state cursor inside).weaken
  intro next moved _ _ holds
  cases next with
  | done a => exact holds
  | again next => exact ⟨trivial, holds⟩

theorem error_sound {α : Type} {limit : Nat} {message : String} {post : α → Nat → Prop} :
    Sound (cuts subscript) plain limit (error path message : Scanner α) cursor post := sound_fail

theorem unitAt_sound {limit : Nat} {plain : Prop} {token : List Byte} {place : Nat} (inside : cursor ≤ limit)
    (read : place < token.length) (ascii : plain → Ascii token) :
    Sound (cuts subscript) plain limit (unitAt subscript token place) cursor
      fun c moved => c = token.getD place default ∧ cursor = moved := by
  apply sound_unitAt inside read
  intro is
  show (decide (subscript = .yields) || token[place]?.all fun c => decide (c < 128)) = true
  rw [List.getElem?_eq_getElem read, Option.all_some, decide_eq_true (ascii is _ (List.getElem_mem read)), Bool.or_true]

theorem slice_sound {limit : Nat} {plain : Prop} {token : List Byte} {start stop : Nat} (inside : cursor ≤ limit)
    (begins : start ≤ token.length) (ascii : plain → Ascii token) :
    Sound (cuts subscript) plain limit (slice subscript token start stop) cursor
      fun part moved => part = (token.take stop).drop start ∧ cursor = moved := by
  apply sound_slice inside begins
  intro is
  show (boundary token start && boundary token stop) = true
  rw [boundary_ascii (ascii is), boundary_ascii (ascii is), Bool.and_true]

theorem char_sound (inside : cursor ≤ text.length) :
    Sound (cuts subscript) (Ascii text) text.length (char subscript text) cursor fun c moved => cursor = moved ∧ (c = none ∨ cursor < text.length) := by
  apply sound_bind (sound_position inside)
  rintro _ _ _ _ ⟨rfl, rfl⟩
  by_cases finished : text.length ≤ cursor
  · rw [if_pos finished]
    exact sound_pure inside ⟨rfl, .inl rfl⟩
  · have room : cursor < text.length := by omega
    rw [if_neg finished]
    apply sound_bind (unitAt_sound inside room id)
    rintro c _ _ _ ⟨_, rfl⟩
    exact sound_pure inside ⟨rfl, .inr room⟩

theorem room_of_char {c : Option Byte} {x : Byte} (is : c = some x) (read : c = none ∨ cursor < text.length) :
    cursor + 1 ≤ text.length := by
  rcases read with none_ | room
  · rw [none_] at is
    exact nomatch is
  · exact room

theorem again_sound {τ α : Type} {state : τ} {post : α → Nat → Prop} {start : Nat} (room : cursor + 1 ≤ text.length)
    (from_ : start ≤ cursor) : Sound (cuts subscript) (Ascii text) text.length (do advance 1; pure (.again state) : Scanner (Turn τ α)) cursor
      (Turn.After (fun _ moved => start < moved) post) := by
  apply sound_bind (sound_advance room)
  rintro _ _ _ _ rfl
  apply sound_pure room
  show start < cursor + 1
  omega

/-! Spaces and comments. -/

theorem skipSpaces_sound (enough : 2 * text.length + 1 < rounds) (inside : cursor ≤ text.length) :
    Sound (cuts subscript) (Ascii text) text.length (skipSpaces subscript rounds text) cursor fun _ _ => True := by
  apply while_sound _ enough inside
  intro _ cursor inside
  apply sound_bind (char_sound inside)
  rintro c _ _ _ ⟨rfl, read⟩
  by_cases space : c = some (byte ' ') ∨ c = some (byte '\t')
  · have room : cursor + 1 ≤ text.length := space.elim (room_of_char · read) (room_of_char · read)
    rw [if_pos space]
    exact again_sound room (Nat.le_refl _)
  · rw [if_neg space]
    exact sound_pure inside trivial

theorem commentBody_sound (enough : 2 * text.length + 1 < rounds) (inside : cursor ≤ text.length) :
    Sound (cuts subscript) (Ascii text) text.length (commentBody subscript rounds text) cursor fun _ _ => True := by
  apply while_sound _ enough inside
  intro _ cursor inside
  apply sound_bind (char_sound inside)
  rintro c _ _ _ ⟨rfl, read⟩
  by_cases going : c ≠ none ∧ c ≠ some (byte '\n')
  · have room : cursor + 1 ≤ text.length := read.resolve_left going.1
    rw [if_pos going]
    exact again_sound room (Nat.le_refl _)
  · rw [if_neg going]
    exact sound_pure inside trivial

theorem skipComment_sound (enough : 2 * text.length + 1 < rounds) (inside : cursor ≤ text.length) :
    Sound (cuts subscript) (Ascii text) text.length (skipComment subscript rounds text) cursor fun _ _ => True := by
  apply sound_bind (char_sound inside)
  rintro c _ _ _ ⟨rfl, read⟩
  by_cases comment : c = some (byte '#')
  · rw [if_pos comment]
    exact commentBody_sound enough inside
  · rw [if_neg comment]
    exact sound_pure inside trivial

theorem lineTurn_sound {start : Nat} (inside : cursor ≤ text.length) (from_ : start ≤ cursor) :
    Sound (cuts subscript) (Ascii text) text.length (lineTurn subscript text) cursor (Turn.After (fun _ moved => start < moved) fun _ _ => True) := by
  apply sound_bind (char_sound inside)
  rintro c _ _ _ ⟨rfl, read⟩
  by_cases line : c = some (byte '\n')
  · rw [if_pos line]
    exact again_sound (room_of_char line read) from_
  · rw [if_neg line]
    exact sound_pure inside trivial

theorem skipBlankLines_sound (enough : 2 * text.length + 1 < rounds) (inside : cursor ≤ text.length) :
    Sound (cuts subscript) (Ascii text) text.length (skipBlankLines subscript rounds text) cursor fun _ _ => True := by
  apply while_sound _ enough inside
  intro _ cursor inside
  apply sound_bind (skipSpaces_sound enough inside)
  intro _ spaced on inside _
  apply sound_bind (skipComment_sound enough inside)
  intro _ moved further inside _
  exact lineTurn_sound inside (Nat.le_trans on further)

theorem skipValueSpace_sound (enough : 2 * text.length + 1 < rounds) (inside : cursor ≤ text.length) :
    Sound (cuts subscript) (Ascii text) text.length (skipValueSpace subscript rounds text) cursor fun _ _ => True := by
  apply while_sound _ enough inside
  intro _ cursor inside
  apply sound_bind (skipSpaces_sound enough inside)
  intro _ spaced on inside _
  apply sound_bind (char_sound inside)
  rintro c _ _ _ ⟨rfl, read⟩
  by_cases comment : c = some (byte '#')
  · rw [if_pos comment]
    apply sound_bind (skipComment_sound enough inside)
    intro _ passed further inside _
    apply sound_bind (lineTurn_sound inside (Nat.le_trans on further))
    intro turn moved _ within line
    cases turn with
    | again => exact sound_pure within line
    | done => exact lineTurn_sound within (by omega)
  · rw [if_neg comment]
    exact lineTurn_sound inside on

theorem expect_sound (token : String) (inside : cursor ≤ text.length) :
    Sound (cuts subscript) (Ascii text) text.length (expect subscript path text token) cursor fun _ moved => cursor + (bytes token).length = moved := by
  apply sound_bind (sound_position inside)
  rintro _ _ _ _ ⟨rfl, rfl⟩
  apply sound_bind (slice_sound inside inside id)
  rintro found _ _ _ ⟨cut, rfl⟩
  by_cases other : found ≠ bytes token
  · rw [if_pos other]
    exact error_sound
  · have same : (text.take (cursor + (bytes token).length)).drop cursor = bytes token := cut.symm.trans (not_not.mp other)
    have long := congrArg List.length same
    rw [List.length_drop, List.length_take] at long
    rw [if_neg other]
    exact sound_advance (by omega)

/-! Strings and keys. -/

theorem escape_sound (inside : cursor ≤ text.length) :
    Sound (cuts subscript) (Ascii text) text.length (escape subscript path text) cursor fun _ moved => moved < text.length := by
  apply sound_bind (char_sound inside)
  rintro escaped _ _ _ ⟨rfl, read⟩
  cases escaped with
  | none => exact error_sound
  | some c =>
    have room : cursor < text.length := room_of_char rfl read
    show Sound (cuts subscript) (Ascii text) text.length (if c ∈ bytes "btnfr\"\\" then _ else _) cursor _
    by_cases simple : c ∈ bytes "btnfr\"\\"
    · rw [if_pos simple]
      exact sound_pure inside room
    rw [if_neg simple]
    by_cases unicode : c = byte 'u'
    · rw [if_pos unicode]
      apply sound_bind (sound_position inside)
      rintro _ _ _ _ ⟨rfl, rfl⟩
      by_cases short : text.length ≤ cursor + 4
      · rw [if_pos short]
        exact error_sound
      rw [if_neg short]
      have digits : Sound (cuts subscript) (Ascii text) text.length ((List.range' 1 4).foldlM (fun _ offset => do
          let digit ← unitAt subscript text (cursor + offset)
          if hex digit = none then error path "invalid unicode escape" else pure ()) ()) cursor
            fun _ moved => True ∧ cursor = moved := by
        apply sound_foldlM inside trivial
        intro offset listed _ _
        have range := List.mem_range'_1.mp listed
        apply sound_bind (unitAt_sound inside (by omega) id)
        rintro digit _ _ _ ⟨_, rfl⟩
        by_cases invalid : hex digit = none
        · rw [if_pos invalid]
          exact error_sound
        · rw [if_neg invalid]
          exact sound_pure inside ⟨trivial, rfl⟩
      apply sound_bind digits
      rintro _ _ _ _ ⟨_, rfl⟩
      apply sound_bind (slice_sound inside (by omega) id)
      rintro spelled _ _ _ ⟨_, rfl⟩
      apply sound_bind (sound_advance (by omega))
      rintro _ _ _ within rfl
      exact sound_pure within (by omega)
    rw [if_neg unicode]
    by_cases long : c = byte 'U'
    · rw [if_pos long]
      exact error_sound
    · rw [if_neg long]
      exact error_sound

theorem basicTurn_sound (state : List Byte × Nat) (inside : cursor ≤ text.length) (segment : state.2 ≤ text.length) :
    Sound (cuts subscript) (Ascii text) text.length (basicTurn subscript path text parse state) cursor
      (Turn.After (fun next moved => next.2 ≤ text.length ∧ cursor < moved) fun _ _ => True) := by
  apply sound_bind (char_sound inside)
  rintro c _ _ _ ⟨rfl, read⟩
  apply sound_bind (sound_position inside)
  rintro _ _ _ _ ⟨rfl, rfl⟩
  by_cases finished : c = none
  · rw [if_pos finished]
    exact error_sound
  rw [if_neg finished]
  have room : cursor + 1 ≤ text.length := read.resolve_left finished
  by_cases closing : c = some (byte '"')
  · rw [if_pos closing]
    apply sound_bind (slice_sound inside segment id)
    rintro taken _ _ _ ⟨_, rfl⟩
    apply sound_bind (sound_advance room)
    rintro _ _ _ within rfl
    split
    · exact sound_pure within trivial
    · exact error_sound
  rw [if_neg closing]
  by_cases line : c = some (byte '\n') ∨ c = some (byte '\r')
  · rw [if_pos line]
    exact error_sound
  rw [if_neg line]
  by_cases backslash : c = some (byte '\\')
  · rw [if_pos backslash]
    apply sound_bind (slice_sound inside segment id)
    rintro taken _ _ _ ⟨_, rfl⟩
    apply sound_bind (sound_advance room)
    rintro _ _ _ within rfl
    apply sound_bind (escape_sound within)
    intro added escaped on within less
    apply sound_bind (sound_advance less)
    rintro _ _ _ within rfl
    apply sound_bind (sound_position within)
    rintro _ _ _ _ ⟨rfl, rfl⟩
    exact sound_pure within ⟨within, by omega⟩
  · rw [if_neg backslash]
    apply sound_bind (sound_advance room)
    rintro _ _ _ within rfl
    exact sound_pure within ⟨segment, Nat.lt_succ_self cursor⟩

theorem loop_moves {τ α : Type} {body : τ → Scanner (Turn τ α)} {state : τ} {start : Nat}
    (turn : ∀ state cursor, cursor ≤ text.length →
      Sound (cuts subscript) (Ascii text) text.length (body state) cursor (Turn.After (fun _ moved => cursor < moved) fun _ _ => True))
    (enough : 2 * text.length + 1 < rounds) (inside : cursor ≤ text.length) (from_ : start < cursor) :
    Sound (cuts subscript) (Ascii text) text.length (loop rounds body state) cursor fun _ moved => start < moved := by
  apply (while_sound turn enough inside).weaken
  intro _ moved on _ _
  exact Nat.lt_of_lt_of_le from_ on

theorem parseBasicString_sound (enough : 2 * text.length + 1 < rounds) (inside : cursor ≤ text.length) :
    Sound (cuts subscript) (Ascii text) text.length (parseBasicString subscript rounds path text parse) cursor fun _ moved => cursor < moved := by
  apply sound_bind (expect_sound "\"" inside)
  rintro _ _ _ within rfl
  apply sound_bind (sound_position within)
  rintro _ _ _ _ ⟨rfl, rfl⟩
  have body : Sound (cuts subscript) (Ascii text) text.length
      (loop rounds (basicTurn subscript path text parse) ([byte '"'], cursor + (bytes "\"").length))
      (cursor + (bytes "\"").length) fun _ _ => True :=
    loop_sound (fun state cursor inside segment => basicTurn_sound state inside segment) enough within within
  apply body.weaken
  intro _ moved on _ _
  exact Nat.lt_of_lt_of_le (Nat.lt_succ_self cursor) on

theorem literalTurn_sound {start : Nat} (begins : start ≤ text.length) (inside : cursor ≤ text.length) :
    Sound (cuts subscript) (Ascii text) text.length (literalTurn subscript path text start) cursor
      (Turn.After (fun _ moved => cursor < moved) fun _ _ => True) := by
  apply sound_bind (char_sound inside)
  rintro c _ _ _ ⟨rfl, read⟩
  apply sound_bind (sound_position inside)
  rintro _ _ _ _ ⟨rfl, rfl⟩
  by_cases finished : c = none
  · rw [if_pos finished]
    exact error_sound
  rw [if_neg finished]
  have room : cursor + 1 ≤ text.length := read.resolve_left finished
  by_cases closing : c = some (byte '\'')
  · rw [if_pos closing]
    apply sound_bind (slice_sound inside begins id)
    rintro result _ _ _ ⟨_, rfl⟩
    apply sound_bind (sound_advance room)
    rintro _ _ _ within rfl
    exact sound_pure within trivial
  rw [if_neg closing]
  by_cases line : c = some (byte '\n') ∨ c = some (byte '\r')
  · rw [if_pos line]
    exact error_sound
  · rw [if_neg line]
    exact again_sound room (Nat.le_refl _)

theorem parseLiteralString_sound (enough : 2 * text.length + 1 < rounds) (inside : cursor ≤ text.length) :
    Sound (cuts subscript) (Ascii text) text.length (parseLiteralString subscript rounds path text) cursor fun _ moved => cursor < moved := by
  apply sound_bind (expect_sound "'" inside)
  rintro _ _ _ within rfl
  apply sound_bind (sound_position within)
  rintro _ _ _ _ ⟨rfl, rfl⟩
  exact loop_moves (fun _ cursor inside => literalTurn_sound within inside) enough within (Nat.lt_succ_self cursor)

theorem bareTurn_sound (inside : cursor ≤ text.length) :
    Sound (cuts subscript) (Ascii text) text.length (bareTurn subscript path text) cursor (Turn.After (fun _ moved => cursor < moved) fun _ _ => True) := by
  apply sound_bind (char_sound inside)
  rintro c _ _ _ ⟨rfl, read⟩
  cases c with
  | none => exact sound_pure inside trivial
  | some c =>
    show Sound (cuts subscript) (Ascii text) text.length (if endsKey c then _ else _) cursor _
    by_cases ends : endsKey c
    · rw [if_pos ends]
      exact sound_pure inside trivial
    rw [if_neg ends]
    by_cases plain : bareKey c
    · rw [if_pos plain]
      exact again_sound (room_of_char rfl read) (Nat.le_refl _)
    · rw [if_neg plain]
      exact error_sound

theorem parseBareKey_sound (enough : 2 * text.length + 1 < rounds) (inside : cursor ≤ text.length) :
    Sound (cuts subscript) (Ascii text) text.length (parseBareKey subscript rounds path text) cursor fun _ moved => cursor < moved := by
  apply sound_bind (sound_position inside)
  rintro _ _ _ _ ⟨rfl, rfl⟩
  apply sound_bind (while_sound (fun _ cursor inside => bareTurn_sound inside) enough inside)
  intro _ moved on within _
  apply sound_bind (sound_position within)
  rintro _ _ _ _ ⟨rfl, rfl⟩
  by_cases still : moved = cursor
  · rw [if_pos still]
    exact error_sound
  · rw [if_neg still]
    apply sound_bind (slice_sound within inside id)
    rintro key _ _ _ ⟨_, rfl⟩
    exact sound_pure within (by omega)

theorem parseKeySegment_sound (enough : 2 * text.length + 1 < rounds) (inside : cursor ≤ text.length) :
    Sound (cuts subscript) (Ascii text) text.length (parseKeySegment subscript rounds path text parse) cursor fun _ moved => cursor < moved := by
  apply sound_bind (skipSpaces_sound enough inside)
  intro _ spaced on within _
  apply sound_bind (char_sound within)
  rintro c _ _ _ ⟨rfl, _⟩
  by_cases basic : c = some (byte '"')
  · rw [if_pos basic]
    exact (parseBasicString_sound enough within).weaken fun _ _ _ _ less => Nat.lt_of_le_of_lt on less
  rw [if_neg basic]
  by_cases literal : c = some (byte '\'')
  · rw [if_pos literal]
    exact (parseLiteralString_sound enough within).weaken fun _ _ _ _ less => Nat.lt_of_le_of_lt on less
  · rw [if_neg literal]
    exact (parseBareKey_sound enough within).weaken fun _ _ _ _ less => Nat.lt_of_le_of_lt on less

theorem keyTurn_sound (parts : List String) (enough : 2 * text.length + 1 < rounds) (inside : cursor ≤ text.length) :
    Sound (cuts subscript) (Ascii text) text.length (keyTurn subscript rounds path text parse parts) cursor
      (Turn.After (fun _ moved => cursor < moved) fun _ _ => True) := by
  apply sound_bind (skipSpaces_sound enough inside)
  intro _ spaced on within _
  apply sound_bind (char_sound within)
  rintro c _ _ _ ⟨rfl, read⟩
  by_cases dot : c = some (byte '.')
  · rw [if_pos dot]
    apply sound_bind (sound_advance (room_of_char dot read))
    rintro _ _ _ within rfl
    apply sound_bind (parseKeySegment_sound enough within)
    intro part moved _ within less
    apply sound_pure within
    show cursor < moved
    omega
  · rw [if_neg dot]
    exact sound_pure within trivial

theorem parseKeyPath_sound (enough : 2 * text.length + 1 < rounds) (inside : cursor ≤ text.length) :
    Sound (cuts subscript) (Ascii text) text.length (parseKeyPath subscript rounds path text parse) cursor fun _ moved => cursor < moved := by
  apply sound_bind (parseKeySegment_sound enough inside)
  intro first moved _ within less
  exact loop_moves (fun parts cursor inside => keyTurn_sound parts enough inside) enough within less

theorem parseHeaderPath_sound (enough : 2 * text.length + 1 < rounds) (inside : cursor ≤ text.length) :
    Sound (cuts subscript) (Ascii text) text.length (parseHeaderPath subscript rounds path text parse) cursor fun _ _ => True := by
  apply sound_bind (parseKeyPath_sound enough inside)
  intro parts moved _ within _
  apply sound_bind (skipSpaces_sound enough within)
  intro _ spaced _ within _
  apply sound_bind (char_sound within)
  rintro c _ _ _ ⟨rfl, _⟩
  by_cases closing : c = some (byte ']')
  · rw [if_pos closing]
    exact sound_pure within trivial
  · rw [if_neg closing]
    exact error_sound

/-! Numbers and other scalars: a token is read within itself. -/

section
variable {limit : Nat} {plain : Prop} {token : List Byte}

theorem withoutUnderscores_sound (inside : cursor ≤ limit) (ascii : plain → Ascii token) :
    Sound (cuts subscript) plain limit (withoutUnderscores subscript token) cursor
      fun clean moved => (plain → Ascii clean) ∧ cursor = moved := by
  apply sound_foldlM inside fun _ _ none_ => absurd none_ List.not_mem_nil
  intro i listed result kept
  have less := List.mem_range.mp listed
  apply sound_bind (unitAt_sound inside less ascii)
  rintro c _ _ _ ⟨is, rfl⟩
  by_cases taken : c ≠ byte '_'
  · rw [if_pos taken]
    refine sound_pure inside ⟨fun holds x member => ?_, rfl⟩
    rcases List.mem_append.mp member with early | late
    · exact kept holds x early
    · rw [List.mem_singleton.mp late, is, List.getD_eq_getElem?_getD, List.getElem?_eq_getElem less, Option.getD_some]
      exact ascii holds _ (List.getElem_mem less)
  · rw [if_neg taken]
    exact sound_pure inside ⟨kept, rfl⟩

theorem misplaced_sound (inside : cursor ≤ limit) (ascii : plain → Ascii token) :
    Sound (cuts subscript) plain limit (misplaced subscript token) cursor fun _ moved => cursor = moved := by
  show Sound (cuts subscript) plain limit (if signed token + 2 < token.length then _ else _) cursor _
  by_cases long : signed token + 2 < token.length
  · rw [if_pos long]
    apply sound_bind (unitAt_sound inside (by omega) ascii)
    rintro marker _ _ _ ⟨_, rfl⟩
    by_cases based : marker ∈ bytes "xXoObB"
    · rw [if_pos based]
      apply sound_bind (unitAt_sound inside long ascii)
      rintro c _ _ _ ⟨_, rfl⟩
      exact sound_pure inside rfl
    · rw [if_neg based]
      exact sound_pure inside rfl
  · rw [if_neg long]
    exact sound_pure inside rfl

theorem stripUnderscores_sound (inside : cursor ≤ limit) (ascii : plain → Ascii token) :
    Sound (cuts subscript) plain limit (stripUnderscores subscript path token) cursor
      fun clean moved => (plain → Ascii clean) ∧ cursor = moved := by
  rw [stripUnderscores]
  split
  · exact error_sound
  · apply sound_bind (misplaced_sound inside ascii)
    rintro refused _ _ _ rfl
    by_cases is : refused = true
    · rw [if_pos is]
      exact error_sound
    · rw [if_neg is]
      exact withoutUnderscores_sound inside ascii

theorem Ascii.part {text : List Byte} (ascii : Ascii text) (start stop : Nat) : Ascii ((text.take stop).drop start) :=
  fun c member => ascii c (List.mem_of_mem_take (List.mem_of_mem_drop member))

theorem parseIntegerBase_sound (base : Nat) (inside : cursor ≤ limit) (ascii : plain → Ascii token) :
    Sound (cuts subscript) plain limit (parseIntegerBase subscript path token base) cursor fun _ _ => True := by
  show Sound (cuts subscript) plain limit (if token.length ≤ signed token + 2 then _ else _) cursor _
  by_cases short : token.length ≤ signed token + 2
  · rw [if_pos short]
    exact error_sound
  rw [if_neg short]
  apply sound_bind (slice_sound inside (by omega) ascii)
  rintro digits _ _ _ ⟨cut, rfl⟩
  have digits_ascii : plain → Ascii digits := fun holds => by
    rw [cut]
    exact (ascii holds).part _ _
  refine sound_bind (show Sound (cuts subscript) plain limit _ cursor fun _ moved => True ∧ cursor = moved from ?_) ?_
  · apply sound_foldlM inside trivial
    intro i listed amount _
    apply sound_bind (unitAt_sound inside (List.mem_range.mp listed) digits_ascii)
    rintro c _ _ _ ⟨_, rfl⟩
    split
    · split_ifs
      · exact error_sound
      · exact error_sound
      · exact sound_pure inside ⟨trivial, rfl⟩
    · exact error_sound
  · rintro amount _ _ _ ⟨_, rfl⟩
    split_ifs
    · exact error_sound
    · exact sound_pure inside trivial
    · exact sound_pure inside trivial
    · exact sound_pure inside trivial

theorem parseNumber_sound (inside : cursor ≤ limit) (ascii : plain → Ascii token) :
    Sound (cuts subscript) plain limit (parseNumber subscript path parse token) cursor fun _ _ => True := by
  apply sound_bind (stripUnderscores_sound inside ascii)
  rintro clean _ _ _ ⟨clean_ascii, rfl⟩
  generalize parse (if clean.head? = some (byte '+') then clean.drop 1 else clean) = decimal
  dsimp only
  split_ifs
  · exact parseIntegerBase_sound 16 inside clean_ascii
  · exact parseIntegerBase_sound 8 inside clean_ascii
  · exact parseIntegerBase_sound 2 inside clean_ascii
  · split
    · exact sound_pure inside trivial
    · exact error_sound
  · exact error_sound
  · split
    · exact sound_pure inside trivial
    · exact sound_pure inside trivial
    · exact error_sound

theorem dated_sound (inside : cursor ≤ limit) (ascii : plain → Ascii token) :
    Sound (cuts subscript) plain limit (dated subscript token) cursor fun _ moved => cursor = moved := by
  rw [dated]
  by_cases ten : token.length = 10
  · rw [if_pos ten]
    apply sound_bind (unitAt_sound inside (by omega) ascii)
    rintro year _ _ _ ⟨_, rfl⟩
    by_cases dash : year = byte '-'
    · rw [if_pos dash]
      apply sound_bind (unitAt_sound inside (by omega) ascii)
      rintro month _ _ _ ⟨_, rfl⟩
      exact sound_pure inside rfl
    · rw [if_neg dash]
      exact sound_pure inside rfl
  · rw [if_neg ten]
    exact sound_pure inside rfl

theorem parseToken_sound (inside : cursor ≤ limit) (ascii : plain → Ascii token) :
    Sound (cuts subscript) plain limit (parseToken subscript path parse token) cursor fun _ _ => True := by
  apply sound_bind (dated_sound inside ascii)
  rintro date _ _ _ rfl
  split_ifs
  · exact error_sound
  · exact sound_pure inside trivial
  · exact sound_pure inside trivial
  · exact error_sound
  · exact error_sound
  · exact parseNumber_sound inside ascii

end

theorem tokenTurn_sound (inside : cursor ≤ text.length) :
    Sound (cuts subscript) (Ascii text) text.length (tokenTurn subscript text) cursor (Turn.After (fun _ moved => cursor < moved) fun _ _ => True) := by
  apply sound_bind (char_sound inside)
  rintro c _ _ _ ⟨rfl, read⟩
  cases c with
  | none => exact sound_pure inside trivial
  | some c =>
    show Sound (cuts subscript) (Ascii text) text.length (if endsToken c then _ else _) cursor _
    by_cases ends : endsToken c
    · rw [if_pos ends]
      exact sound_pure inside trivial
    · rw [if_neg ends]
      exact again_sound (room_of_char rfl read) (Nat.le_refl _)

theorem multiline_sound (inside : cursor ≤ text.length) :
    Sound (cuts subscript) (Ascii text) text.length (multiline subscript text) cursor fun _ moved => cursor = moved := by
  apply sound_bind (sound_position inside)
  rintro _ _ _ _ ⟨rfl, rfl⟩
  by_cases long : cursor + 3 ≤ text.length
  · rw [if_pos long]
    apply sound_bind (slice_sound inside inside id)
    rintro ahead _ _ _ ⟨_, rfl⟩
    exact sound_pure inside rfl
  · rw [if_neg long]
    exact sound_pure inside rfl

theorem parseBareValue_sound (enough : 2 * text.length + 1 < rounds) (inside : cursor ≤ text.length) :
    Sound (cuts subscript) (Ascii text) text.length (parseBareValue subscript rounds path text parse) cursor fun _ moved => cursor < moved := by
  apply sound_bind (sound_position inside)
  rintro _ _ _ _ ⟨rfl, rfl⟩
  apply sound_bind (while_sound (fun _ cursor inside => tokenTurn_sound inside) enough inside)
  intro _ moved on within _
  apply sound_bind (sound_position within)
  rintro _ _ _ _ ⟨rfl, rfl⟩
  by_cases still : moved = cursor
  · rw [if_pos still]
    exact error_sound
  · rw [if_neg still]
    apply sound_bind (slice_sound within inside id)
    rintro token _ _ _ ⟨cut, rfl⟩
    have token_ascii : Ascii text → Ascii token := fun ascii => by
      rw [cut]
      exact ascii.part _ _
    apply (parseToken_sound within token_ascii).weaken
    intro _ later further _ _
    omega

theorem parseScalarValue_sound (enough : 2 * text.length + 1 < rounds) (inside : cursor ≤ text.length) :
    Sound (cuts subscript) (Ascii text) text.length (parseScalarValue subscript rounds path text parse) cursor fun _ moved => cursor < moved := by
  apply sound_bind (skipSpaces_sound enough inside)
  intro _ spaced on within _
  apply sound_bind (char_sound within)
  rintro c _ _ _ ⟨rfl, _⟩
  apply sound_bind (multiline_sound within)
  rintro quotes _ _ _ rfl
  by_cases refused : quotes = true
  · rw [if_pos refused]
    exact error_sound
  rw [if_neg refused]
  by_cases basic : c = some (byte '"')
  · rw [if_pos basic]
    apply sound_bind (parseBasicString_sound enough within)
    intro value moved _ within less
    exact sound_pure within (Nat.lt_of_le_of_lt on less)
  rw [if_neg basic]
  by_cases literal : c = some (byte '\'')
  · rw [if_pos literal]
    apply sound_bind (parseLiteralString_sound enough within)
    intro value moved _ within less
    exact sound_pure within (Nat.lt_of_le_of_lt on less)
  · rw [if_neg literal]
    exact (parseBareValue_sound enough within).weaken fun _ _ _ _ less => Nat.lt_of_le_of_lt on less

theorem parseAssigned_sound (enough : 2 * text.length + 1 < rounds) (inside : cursor ≤ text.length) :
    Sound (cuts subscript) (Ascii text) text.length (parseAssigned subscript rounds path text parse) cursor fun _ moved => cursor < moved := by
  apply sound_bind (parseKeyPath_sound enough inside)
  intro key keyed _ within less
  apply sound_bind (skipSpaces_sound enough within)
  intro _ spaced on within _
  apply sound_bind (expect_sound "=" within)
  rintro _ _ _ within rfl
  apply sound_bind (skipSpaces_sound enough within)
  intro _ moved further within _
  exact sound_pure within (by omega)

theorem finishStatement_sound (enough : 2 * text.length + 1 < rounds) (inside : cursor ≤ text.length) :
    Sound (cuts subscript) (Ascii text) text.length (finishStatement subscript rounds path text) cursor fun _ _ => True := by
  apply sound_bind (skipSpaces_sound enough inside)
  intro _ spaced _ within _
  apply sound_bind (skipComment_sound enough within)
  intro _ passed _ within _
  apply sound_bind (char_sound within)
  rintro c _ _ _ ⟨rfl, read⟩
  by_cases line : c = some (byte '\n')
  · rw [if_pos line]
    exact (sound_advance (room_of_char line read)).weaken fun _ _ _ _ _ => trivial
  rw [if_neg line]
  by_cases trailing : c ≠ none
  · rw [if_pos trailing]
    exact error_sound
  · rw [if_neg trailing]
    exact sound_pure within trivial

theorem headerLine_sound (closing : String) (enough : 2 * text.length + 1 < rounds) (inside : cursor ≤ text.length) :
    Sound (cuts subscript) (Ascii text) text.length (headerLine subscript rounds path text parse closing) cursor fun _ _ => True := by
  apply sound_bind (parseHeaderPath_sound enough inside)
  intro parts keyed _ within _
  apply sound_bind (expect_sound closing within)
  intro _ closed _ within _
  apply sound_bind (finishStatement_sound enough within)
  intro _ moved _ within _
  exact sound_pure within trivial

end

/-! The stack of containers, and statements. -/

section
variable {V T R : Type} {b : Builder V T R} {subscript : Subscript} {rounds cursor : Nat} {path : String} {text : List Byte}
variable {parse : List Byte → Option Json}

theorem deliver_sound {resets : Bool} {value : V} {outer : List (Frame V T)} {limit start : Nat} {plain : Prop} (inside : cursor ≤ limit)
    (from_ : start < cursor) (state : List (Frame V T)) : Sound (cuts subscript) plain limit (deliver b resets value outer) cursor
      (Turn.After (fun next moved => True ∧ (start < moved ∨ start = moved ∧ rank next < rank state)) fun _ _ => True) := by
  cases outer with
  | nil => exact sound_pure inside trivial
  | cons parent outer =>
    have lifted : Sound (cuts subscript) plain limit (lift (parent.take b resets value)) cursor fun _ _ => True :=
      sound_lift inside fun _ _ => trivial
    apply sound_bind lifted
    intro taken moved on within _
    exact sound_pure within ⟨trivial, .inl (Nat.lt_of_lt_of_le from_ on)⟩

theorem itemTurn_sound (outer : List (Frame V T)) {top : Frame V T} (item : top.phase = .item)
    (enough : 2 * text.length + 1 < rounds) (inside : cursor ≤ text.length) :
    Sound (cuts subscript) (Ascii text) text.length (itemTurn b subscript rounds path text parse outer top) cursor
      (Turn.After (fun next moved => True ∧ (cursor < moved ∨ cursor = moved ∧ rank next < rank (top :: outer)))
        fun _ _ => True) := by
  have highest : rank (top :: outer) = 1 := if_pos item
  cases top with
  | array phase items =>
    apply sound_bind (skipValueSpace_sound enough inside)
    intro _ spaced on within _
    apply sound_bind (char_sound within)
    rintro c _ _ _ ⟨rfl, read⟩
    by_cases closing : c = some (byte ']')
    · rw [if_pos closing]
      apply sound_bind (sound_advance (room_of_char closing read))
      rintro _ _ _ within rfl
      exact deliver_sound within (Nat.lt_succ_of_le on) _
    · rw [if_neg closing]
      apply sound_pure within
      refine ⟨trivial, ?_⟩
      rw [highest]
      by_cases still : cursor = spaced
      · exact .inr ⟨still, Nat.zero_lt_one⟩
      · exact .inl (by omega)
  | table phase object pending afterComma =>
    apply sound_bind (skipSpaces_sound enough inside)
    intro _ spaced on within _
    apply sound_bind (char_sound within)
    rintro c _ _ _ ⟨rfl, read⟩
    by_cases line : c = some (byte '\n') ∨ c = some (byte '\r') ∨ c = some (byte '#')
    · rw [if_pos line]
      exact error_sound
    rw [if_neg line]
    by_cases trailing : afterComma ∧ c = some (byte '}')
    · rw [if_pos trailing]
      exact error_sound
    rw [if_neg trailing]
    by_cases closing : c = some (byte '}')
    · rw [if_pos closing]
      apply sound_bind (sound_advance (room_of_char closing read))
      rintro _ _ _ within rfl
      exact deliver_sound within (Nat.lt_succ_of_le on) _
    · rw [if_neg closing]
      apply sound_bind (parseAssigned_sound enough within)
      intro key moved _ within less
      exact sound_pure within ⟨trivial, .inl (Nat.lt_of_le_of_lt on less)⟩

theorem valueTurn_sound (outer : List (Frame V T)) (top : Frame V T) (enough : 2 * text.length + 1 < rounds)
    (inside : cursor ≤ text.length) : Sound (cuts subscript) (Ascii text) text.length (valueTurn b subscript rounds path text parse outer top) cursor
      (Turn.After (fun next moved => True ∧ (cursor < moved ∨ cursor = moved ∧ rank next < rank (top :: outer)))
        fun _ _ => True) := by
  apply sound_bind (skipSpaces_sound enough inside)
  intro _ spaced on within _
  apply sound_bind (char_sound within)
  rintro c _ _ _ ⟨rfl, read⟩
  by_cases bracket : c = some (byte '[')
  · rw [if_pos bracket]
    apply sound_bind (sound_advance (room_of_char bracket read))
    rintro _ _ _ within rfl
    exact sound_pure within ⟨trivial, .inl (Nat.lt_succ_of_le on)⟩
  rw [if_neg bracket]
  by_cases brace : c = some (byte '{')
  · rw [if_pos brace]
    apply sound_bind (sound_advance (room_of_char brace read))
    rintro _ _ _ within rfl
    exact sound_pure within ⟨trivial, .inl (Nat.lt_succ_of_le on)⟩
  · rw [if_neg brace]
    apply sound_bind (parseScalarValue_sound enough within)
    intro value moved _ within less
    exact deliver_sound within (Nat.lt_of_le_of_lt on less) _

theorem delimiterTurn_sound (outer : List (Frame V T)) (top : Frame V T) (enough : 2 * text.length + 1 < rounds)
    (inside : cursor ≤ text.length) : Sound (cuts subscript) (Ascii text) text.length (delimiterTurn b subscript rounds path text outer top) cursor
      (Turn.After (fun next moved => True ∧ (cursor < moved ∨ cursor = moved ∧ rank next < rank (top :: outer)))
        fun _ _ => True) := by
  cases top with
  | array phase items =>
    apply sound_bind (skipValueSpace_sound enough inside)
    intro _ spaced on within _
    apply sound_bind (char_sound within)
    rintro c _ _ _ ⟨rfl, read⟩
    by_cases comma : c = some (byte ',')
    · rw [if_pos comma]
      apply sound_bind (sound_advance (room_of_char comma read))
      rintro _ _ _ within rfl
      exact sound_pure within ⟨trivial, .inl (Nat.lt_succ_of_le on)⟩
    rw [if_neg comma]
    by_cases closing : c = some (byte ']')
    · rw [if_pos closing]
      apply sound_bind (sound_advance (room_of_char closing read))
      rintro _ _ _ within rfl
      exact deliver_sound within (Nat.lt_succ_of_le on) _
    · rw [if_neg closing]
      exact error_sound
  | table phase object pending afterComma =>
    apply sound_bind (skipSpaces_sound enough inside)
    intro _ spaced on within _
    apply sound_bind (char_sound within)
    rintro c _ _ _ ⟨rfl, read⟩
    by_cases comma : c = some (byte ',')
    · rw [if_pos comma]
      apply sound_bind (sound_advance (room_of_char comma read))
      rintro _ _ _ within rfl
      exact sound_pure within ⟨trivial, .inl (Nat.lt_succ_of_le on)⟩
    rw [if_neg comma]
    by_cases closing : c = some (byte '}')
    · rw [if_pos closing]
      apply sound_bind (sound_advance (room_of_char closing read))
      rintro _ _ _ within rfl
      exact deliver_sound within (Nat.lt_succ_of_le on) _
    · rw [if_neg closing]
      exact error_sound

theorem valueRound_sound (frames : List (Frame V T)) (enough : 2 * text.length + 1 < rounds)
    (inside : cursor ≤ text.length) : Sound (cuts subscript) (Ascii text) text.length (valueRound b subscript rounds path text parse frames) cursor
      (Turn.After (fun next moved => True ∧ (cursor < moved ∨ cursor = moved ∧ rank next < rank frames))
        fun _ _ => True) := by
  cases frames with
  | nil => exact error_sound
  | cons top outer =>
    rw [valueRound]
    cases phase : top.phase with
    | item => exact itemTurn_sound outer phase enough inside
    | value => exact valueTurn_sound outer top enough inside
    | delimiter => exact delimiterTurn_sound outer top enough inside

theorem rank_le (frames : List (Frame V T)) : rank frames ≤ 1 := by
  cases frames with
  | nil => exact Nat.zero_le 1
  | cons top outer =>
    rw [rank]
    split
    · exact Nat.le_refl 1
    · exact Nat.zero_le 1

theorem frames_sound (frames : List (Frame V T)) (enough : 2 * text.length + 1 < rounds) (inside : cursor ≤ text.length) :
    Sound (cuts subscript) (Ascii text) text.length (Reader.loop rank (valueRound b subscript rounds path text parse) rounds frames) cursor fun _ _ => True := by
  have bound := rank_le frames
  apply @sound_loop _ _ _ _ _ _ _ rank (valueRound b subscript rounds path text parse) 1 rounds frames (fun _ => True)
  · exact rank_le
  · exact fun frames cursor inside _ => valueRound_sound frames enough inside
  · omega
  · exact inside
  · trivial

theorem parseValue_sound (enough : 2 * text.length + 1 < rounds) (inside : cursor ≤ text.length) :
    Sound (cuts subscript) (Ascii text) text.length (parseValue b subscript rounds path text parse) cursor fun _ _ => True := by
  apply sound_bind (skipSpaces_sound enough inside)
  intro _ spaced on within _
  apply sound_bind (char_sound within)
  rintro c _ _ _ ⟨rfl, read⟩
  by_cases bracket : c = some (byte '[')
  · rw [if_pos bracket]
    apply sound_bind (sound_advance (room_of_char bracket read))
    rintro _ _ _ within rfl
    exact frames_sound _ enough within
  rw [if_neg bracket]
  by_cases brace : c = some (byte '{')
  · rw [if_pos brace]
    apply sound_bind (sound_advance (room_of_char brace read))
    rintro _ _ _ within rfl
    exact frames_sound _ enough within
  · rw [if_neg brace]
    apply sound_bind (parseScalarValue_sound enough within)
    intro value moved _ within _
    exact sound_pure within trivial

theorem parseHeader_sound (root : R) (enough : 2 * text.length + 1 < rounds) (inside : cursor ≤ text.length)
    (opens : cursor < text.length) :
    Sound (cuts subscript) (Ascii text) text.length (parseHeader b subscript rounds path text parse root) cursor fun _ moved => cursor < moved := by
  apply sound_bind (sound_position inside)
  rintro _ _ _ _ ⟨rfl, rfl⟩
  apply sound_bind (slice_sound inside inside id)
  rintro opening _ _ _ ⟨cut, rfl⟩
  by_cases double : opening = bytes "[["
  · have two : (bytes "[[").length = 2 := rfl
    have long := congrArg List.length (cut.symm.trans double)
    rw [List.length_drop, List.length_take, two] at long
    rw [if_pos double]
    apply sound_bind (sound_advance (by omega))
    rintro _ _ _ within rfl
    apply sound_bind (headerLine_sound "]]" enough within)
    intro parts moved on within _
    exact (sound_lift within fun _ _ => by omega)
  · rw [if_neg double]
    apply sound_bind (expect_sound "[" inside)
    intro _ moved _ within is
    have one : (bytes "[").length = 1 := rfl
    apply sound_bind (headerLine_sound "]" enough within)
    intro parts later on within _
    exact (sound_lift within fun _ _ => by omega)

theorem parseAssignment_sound (root : R) (enough : 2 * text.length + 1 < rounds) (inside : cursor ≤ text.length) :
    Sound (cuts subscript) (Ascii text) text.length (parseAssignment b subscript rounds path text parse root) cursor fun _ moved => cursor < moved := by
  apply sound_bind (parseAssigned_sound enough inside)
  intro key keyed _ within less
  apply sound_bind (parseValue_sound enough within)
  intro value valued _ within _
  have lifted : Sound (cuts subscript) (Ascii text) text.length (lift (b.assign root key value)) valued fun _ _ => True :=
    sound_lift within fun _ _ => trivial
  apply sound_bind lifted
  intro root put _ within _
  apply sound_bind (finishStatement_sound enough within)
  intro _ moved _ within _
  exact sound_pure within (by omega)

theorem statementTurn_sound (root : R) (enough : 2 * text.length + 1 < rounds) (inside : cursor ≤ text.length) :
    Sound (cuts subscript) (Ascii text) text.length (statementTurn b subscript rounds path text parse root) cursor
      (Turn.After (fun _ moved => cursor < moved) fun _ _ => True) := by
  apply sound_bind (skipBlankLines_sound enough inside)
  intro _ spaced on within _
  apply sound_bind (char_sound within)
  rintro c _ _ _ ⟨rfl, read⟩
  by_cases finished : c = none
  · rw [if_pos finished]
    exact sound_pure within trivial
  rw [if_neg finished]
  by_cases header : c = some (byte '[')
  · rw [if_pos header]
    apply sound_bind (parseHeader_sound root enough within (read.resolve_left finished))
    intro root moved _ within less
    exact sound_pure within (Nat.lt_of_le_of_lt on less)
  · rw [if_neg header]
    apply sound_bind (parseAssignment_sound root enough within)
    intro root moved _ within less
    exact sound_pure within (Nat.lt_of_le_of_lt on less)

theorem parseText_sound (root : R) (enough : 2 * text.length + 1 < rounds) :
    Sound (cuts subscript) (Ascii text) text.length (parseText b subscript rounds path text parse root) 0 fun _ _ => True :=
  while_sound (fun root _ inside => statementTurn_sound root enough inside) enough (Nat.zero_le _)

/-- The parser returns a value or raises, reads within its texts, and goes forward in every round of its loops. -/
def Terminates (outcome : Outcome Byte R) : Prop :=
  ((∃ value place, outcome.result = some (.ok (value, place))) ∨
      ∃ message, outcome.result = some (.error (.raised message))) ∧
    (∀ text place, .unit text place ∈ outcome.events → place < text.length) ∧
    (∀ text start stop, .part text start stop ∈ outcome.events → start ≤ text.length) ∧
    ∀ before after, .round before after ∈ outcome.events →
      before.1 < after.1 ∨ before.1 = after.1 ∧ after.2 < before.2

/-- A read that the toolchain can make: no part ends inside of a character, and where it aborts there, no byte of one
    is read. -/
def Readable (subscript : Subscript) (outcome : Outcome Byte R) : Prop :=
  (∀ text start stop, .part text start stop ∈ outcome.events →
      boundary text start = true ∧ boundary text stop = true) ∧
    ∀ text place, .unit text place ∈ outcome.events → subscript = .yields ∨ ∀ c, text[place]? = some c → c < 128

theorem whole_iff {outcome : Outcome Byte R} :
    (∀ event ∈ outcome.events, event.whole (cuts subscript) = true) ↔ Readable subscript outcome := by
  constructor
  · intro whole
    refine ⟨fun text start stop listed => ?_, fun text place listed => ?_⟩
    · exact Bool.and_eq_true_iff.mp (whole _ listed)
    · have read : (decide (subscript = .yields) || text[place]?.all fun c => decide (c < 128)) = true := whole _ listed
      rcases Bool.or_eq_true_iff.mp read with yields | ascii
      · exact .inl (of_decide_eq_true yields)
      · refine .inr fun c is => ?_
        rw [is] at ascii
        exact of_decide_eq_true ascii
  · rintro ⟨parts, units⟩ event listed
    cases event with
    | round before after => rfl
    | part text start stop => exact Bool.and_eq_true_iff.mpr (parts text start stop listed)
    | unit text place =>
      show (decide (subscript = .yields) || text[place]?.all fun c => decide (c < 128)) = true
      rcases units text place listed with yields | ascii
      · rw [decide_eq_true yields, Bool.true_or]
      · cases at_ : text[place]? with
        | none => rw [Option.all_none, Bool.or_true]
        | some c => rw [Option.all_some, decide_eq_true (ascii c at_), Bool.or_true]

def wasAborted {α : Type} : Option (Except Halt α) → Bool
  | some (.error .aborted) => true
  | _ => false

end

end Fala.Toml.Bytes
