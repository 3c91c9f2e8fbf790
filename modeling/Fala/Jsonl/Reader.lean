import Fala.Jsonl.Ember

namespace Fala.Jsonl

/-! A reader and a writer of JSON texts, and that the journal can rely on them. -/

/-- A character of a quoted text. -/
def escaped (c : Char) : List Char :=
  if c = '"' then ['\\', '"']
  else if c = '\\' then ['\\', '\\']
  else if c.toNat < 32 then
    ['\\', 'u', '0', '0', Nat.digitChar (c.toNat / 16), Nat.digitChar (c.toNat % 16)]
  else [c]

def quotedChars (value : String) : List Char := '"' :: (value.toList.flatMap escaped ++ ['"'])

/-- Character texts with a comma between them. -/
def commaChars : List (List Char) → List Char
  | [] => []
  | [item] => item
  | item :: rest => item ++ ',' :: commaChars rest

mutual

/-- The text of a value. A float, which no journal record has, is spelled as its fraction. -/
def chars : Json → List Char
  | .null => ['n', 'u', 'l', 'l']
  | .bool true => ['t', 'r', 'u', 'e']
  | .bool false => ['f', 'a', 'l', 's', 'e']
  | .int value => (toString value).toList
  | .uint value => (toString value).toList
  | .float value => (toString value.num ++ "/" ++ toString value.den).toList
  | .str value => quotedChars value
  | .arr items => '[' :: (commaChars (itemChars items) ++ [']'])
  | .obj members => '\x7b' :: (commaChars (memberChars members) ++ ['\x7d'])

def itemChars : List Json → List (List Char)
  | [] => []
  | item :: rest => chars item :: itemChars rest

def memberChars : List (String × Json) → List (List Char)
  | [] => []
  | (name, value) :: rest => (quotedChars name ++ ':' :: chars value) :: memberChars rest

end

def hexValue (c : Char) : Nat := if c.isDigit then c.toNat - 48 else c.toNat - 87

/-- A quoted text after its opening quote. -/
def readQuoted : List Char → Option (List Char × List Char)
  | '"' :: rest => some ([], rest)
  | '\\' :: 'u' :: '0' :: '0' :: high :: low :: rest =>
    (readQuoted rest).map fun (cs, rest) => (Char.ofNat (16 * hexValue high + hexValue low) :: cs, rest)
  | '\\' :: c :: rest => (readQuoted rest).map fun (cs, rest) => (c :: cs, rest)
  | c :: rest => (readQuoted rest).map fun (cs, rest) => (c :: cs, rest)
  | [] => none

def readNat (cs : List Char) : Option (Nat × List Char) :=
  let digits := cs.takeWhile Char.isDigit
  if digits = [] then none else some (Nat.ofDigitChars 10 digits 0, cs.dropWhile Char.isDigit)

mutual

/-- A value, and the text after it. -/
def readValue : Nat → List Char → Option (Json × List Char)
  | 0, _ => none
  | _, [] => none
  | fuel + 1, c :: cs =>
    if c = 'n' then some (.null, cs.drop 3)
    else if c = 't' then some (.bool true, cs.drop 3)
    else if c = 'f' then some (.bool false, cs.drop 4)
    else if c = '"' then (readQuoted cs).map fun (value, rest) => (.str (.ofList value), rest)
    else if c = '[' then
      if cs.head? = some ']' then some (.arr [], cs.tail)
      else (readItems fuel cs).map fun (items, rest) => (.arr items, rest)
    else if c = '\x7b' then
      if cs.head? = some '\x7d' then some (.obj [], cs.tail)
      else (readMembers fuel cs).map fun (members, rest) => (.obj members, rest)
    else if c = '-' then (readNat cs).map fun (value, rest) => (.int (-value), rest)
    else (readNat (c :: cs)).map fun (value, rest) => (.int value, rest)

def readItems : Nat → List Char → Option (List Json × List Char)
  | 0, _ => none
  | fuel + 1, cs => do
    let (item, rest) ← readValue fuel cs
    match rest with
    | ',' :: rest => (readItems fuel rest).map fun (items, rest) => (item :: items, rest)
    | ']' :: rest => some ([item], rest)
    | _ => none

def readMembers : Nat → List Char → Option (List (String × Json) × List Char)
  | 0, _ => none
  | _, [] => none
  | fuel + 1, _ :: cs => do
    let (name, rest) ← readQuoted cs
    let (value, rest) ← readValue fuel rest.tail
    match rest with
    | ',' :: rest =>
      (readMembers fuel rest).map fun (members, rest) => ((.ofList name, value) :: members, rest)
    | '\x7d' :: rest => some ([(.ofList name, value)], rest)
    | _ => none

end

/-- The only value of a text, which may end with a newline. -/
def readText (cs : List Char) : Except String Json :=
  match readValue cs.length cs with
  | some (value, rest) => if rest.all (· = '\n') then .ok value else .error "trailing text"
  | none => .error "no value"

def reader : Ember where
  parse bytes :=
    match (ByteArray.mk bytes.toArray).utf8Decode? with
    | some cs => readText cs.toList
    | none => .error "not UTF-8"
  write value := utf8 (.ofList (chars value))

/-! The characters and the bytes of a text. -/

theorem utf8_ofList (cs : List Char) : utf8 (.ofList cs) = cs.flatMap String.utf8EncodeChar := by
  rw [utf8, String.toByteArray_ofList, List.utf8Encode]
  simp

theorem utf8_ofList_append (cs ds : List Char) :
    utf8 (.ofList (cs ++ ds)) = utf8 (.ofList cs) ++ utf8 (.ofList ds) := by
  simp only [utf8_ofList, List.flatMap_append]

theorem utf8_toList (s : String) : utf8 (.ofList s.toList) = utf8 s := by rw [String.ofList_toList]

theorem decoded_utf8 (cs : List Char) :
    (ByteArray.mk (utf8 (.ofList cs)).toArray).utf8Decode? = some cs.toArray := by
  rw [← List.utf8Decode?_utf8Encode (l := cs), utf8, String.toByteArray_ofList]

theorem encoded_newline {c : Char} (member : newline ∈ String.utf8EncodeChar c) : c = '\n' := by
  have byte (n : Nat) (same : newline = UInt8.ofNat n) : n % 256 = 10 := by
    have number := congrArg UInt8.toNat same
    rw [UInt8.toNat_ofNat'] at number
    exact number.symm
  have number : c.val.toNat = 10 := by
    unfold String.utf8EncodeChar at member
    by_cases one : c.val.toNat ≤ 0x7f
    · rw [if_pos one] at member
      have := byte _ (List.mem_singleton.mp member)
      omega
    · by_cases two : c.val.toNat ≤ 0x7ff
      · rw [if_neg one, if_pos two] at member
        simp only [List.mem_cons, List.not_mem_nil, or_false] at member
        rcases member with same | same <;> have := byte _ same <;> omega
      · by_cases three : c.val.toNat ≤ 0xffff
        · rw [if_neg one, if_neg two, if_pos three] at member
          simp only [List.mem_cons, List.not_mem_nil, or_false] at member
          rcases member with same | same | same <;> have := byte _ same <;> omega
        · rw [if_neg one, if_neg two, if_neg three] at member
          simp only [List.mem_cons, List.not_mem_nil, or_false] at member
          rcases member with same | same | same | same <;> have := byte _ same <;> omega
  exact Char.ext (UInt32.toNat_inj.mp number)

theorem newline_of_utf8 {cs : List Char} (member : newline ∈ utf8 (.ofList cs)) : '\n' ∈ cs := by
  rw [utf8_ofList] at member
  have ⟨c, held, byte⟩ := List.mem_flatMap.mp member
  exact encoded_newline byte ▸ held

/-! No text has a newline in it. -/

theorem escaped_line (c : Char) : '\n' ∉ escaped c := by
  unfold escaped
  by_cases quote : c = '"'
  · rw [if_pos quote]
    decide
  · by_cases slash : c = '\\'
    · rw [if_neg quote, if_pos slash]
      decide
    · by_cases control : c.toNat < 32
      · rw [if_neg quote, if_neg slash, if_pos control]
        have hex : ∀ n < 32, '\n' ∉ ['\\', 'u', '0', '0', Nat.digitChar (n / 16), Nat.digitChar (n % 16)] := by
          decide
        exact hex _ control
      · rw [if_neg quote, if_neg slash, if_neg control]
        intro member
        rw [← List.mem_singleton.mp member] at control
        exact control (by decide)

theorem quotedChars_line (value : String) : '\n' ∉ quotedChars value := by
  intro member
  rcases List.mem_cons.mp member with first | later
  · cases first
  · rcases List.mem_append.mp later with inside | last
    · have ⟨c, _, held⟩ := List.mem_flatMap.mp inside
      exact escaped_line c held
    · cases List.mem_singleton.mp last

theorem commaChars_line {items : List (List Char)} (lines : ∀ item ∈ items, '\n' ∉ item) :
    '\n' ∉ commaChars items := by
  induction items with
  | nil => exact List.not_mem_nil
  | cons item rest ih =>
    have ⟨here, later⟩ := List.forall_mem_cons.mp lines
    cases rest with
    | nil => exact here
    | cons next rest =>
      intro member
      rcases List.mem_append.mp member with first | other
      · exact here first
      · rcases List.mem_cons.mp other with comma | remains
        · cases comma
        · exact ih later remains

theorem intChars (value : Int) : (toString value).toList =
    if 0 ≤ value then Nat.toDigits 10 value.natAbs else '-' :: Nat.toDigits 10 value.natAbs := by
  cases value with
  | ofNat n =>
    have sign : 0 ≤ Int.ofNat n := Int.natCast_nonneg n
    rw [if_pos sign]
    exact Nat.toList_repr
  | negSucc n =>
    have sign : ¬ 0 ≤ Int.negSucc n := by omega
    rw [if_neg sign]
    show ("-" ++ Nat.repr (n + 1)).toList = _
    rw [String.toList_append, Nat.toList_repr]
    rfl

theorem digits_line (n : Nat) : '\n' ∉ Nat.toDigits 10 n := by
  intro member
  have digit := Nat.isDigit_of_mem_toDigits (by decide) (by decide) member
  cases digit

mutual

theorem chars_line : ∀ value : Json, value.plain = true → '\n' ∉ chars value
  | .null, _ | .bool true, _ | .bool false, _ => by simp [chars]
  | .int value, _ => by
    rw [chars, intChars]
    by_cases sign : 0 ≤ value
    · rw [if_pos sign]
      exact digits_line _
    · rw [if_neg sign]
      exact List.not_mem_cons_of_ne_of_not_mem (by decide) (digits_line _)
  | .str value, _ => by
    rw [chars]
    exact quotedChars_line value
  | .arr items, isPlain => by
    have inside := commaChars_line (itemChars_line items isPlain)
    simp [chars, inside]
  | .obj members, isPlain => by
    simp only [Json.plain, Bool.and_eq_true] at isPlain
    have inside := commaChars_line (memberChars_line members isPlain.1)
    simp [chars, inside]

theorem itemChars_line : ∀ items, Json.plainItems items = true → ∀ item ∈ itemChars items, '\n' ∉ item
  | [], _ => fun _ member => nomatch member
  | item :: rest, isPlain => by
    simp only [Json.plainItems, Bool.and_eq_true] at isPlain
    exact List.forall_mem_cons.mpr ⟨chars_line item isPlain.1, itemChars_line rest isPlain.2⟩

theorem memberChars_line :
    ∀ members, Json.plainMembers members = true → ∀ item ∈ memberChars members, '\n' ∉ item
  | [], _ => fun _ member => nomatch member
  | (name, value) :: rest, isPlain => by
    simp only [Json.plainMembers, Bool.and_eq_true] at isPlain
    have here : '\n' ∉ quotedChars name ++ ':' :: chars value := by
      simp [quotedChars_line name, chars_line value isPlain.1.2]
    exact List.forall_mem_cons.mpr ⟨here, memberChars_line rest isPlain.2⟩

end

/-! A value is read back from its text. -/

theorem readQuoted_escaped (c : Char) (rest : List Char) :
    readQuoted (escaped c ++ rest) = (readQuoted rest).map fun (cs, rest) => (c :: cs, rest) := by
  unfold escaped
  by_cases quote : c = '"'
  · subst quote
    rfl
  · by_cases slash : c = '\\'
    · subst slash
      rfl
    · by_cases control : c.toNat < 32
      · rw [if_neg quote, if_neg slash, if_pos control]
        have hex : ∀ n < 32,
            16 * hexValue (Nat.digitChar (n / 16)) + hexValue (Nat.digitChar (n % 16)) = n := by decide
        simp only [List.cons_append, List.nil_append, readQuoted, hex _ control, Char.ofNat_toNat]
      · rw [if_neg quote, if_neg slash, if_neg control, List.singleton_append, readQuoted]
        all_goals grind

theorem readQuoted_quoted (cs rest : List Char) :
    readQuoted (cs.flatMap escaped ++ '"' :: rest) = some (cs, rest) := by
  induction cs with
  | nil => rfl
  | cons c cs ih =>
    rw [List.flatMap_cons, List.append_assoc, readQuoted_escaped, ih]
    rfl

/-- A text that does not go on with a digit. -/
def endsNumber : List Char → Bool
  | [] => true
  | c :: _ => !c.isDigit

theorem readNat_digits (n : Nat) {rest : List Char} (ends : endsNumber rest = true) :
    readNat (Nat.toDigits 10 n ++ rest) = some (n, rest) := by
  have digits : ∀ c ∈ Nat.toDigits 10 n, c.isDigit = true :=
    fun c member => Nat.isDigit_of_mem_toDigits (by decide) (by decide) member
  have after : rest.takeWhile Char.isDigit = [] ∧ rest.dropWhile Char.isDigit = rest := by
    cases rest with
    | nil => exact ⟨rfl, rfl⟩
    | cons c rest =>
      have other : c.isDigit = false := by simpa [endsNumber] using ends
      simp [other]
  unfold readNat
  rw [List.takeWhile_append_of_pos digits, List.dropWhile_append_of_pos digits, after.1, after.2, List.append_nil]
  simp only [Nat.toDigits_ne_nil, if_false, Nat.ofDigitChars_ten_toDigits]

theorem chars_head (value : Json) (isPlain : value.plain = true) :
    ∃ c cs, chars value = c :: cs ∧ c ≠ ']' := by
  match value with
  | .null => exact ⟨_, _, rfl, by decide⟩
  | .bool true | .bool false => exact ⟨_, _, by rw [chars], by decide⟩
  | .int value =>
    rw [chars, intChars]
    by_cases sign : 0 ≤ value
    · rw [if_pos sign]
      cases digits : Nat.toDigits 10 value.natAbs with
      | nil => exact absurd digits Nat.toDigits_ne_nil
      | cons d ds =>
        have digit : d.isDigit = true :=
          Nat.isDigit_of_mem_toDigits (by decide) (by decide) (digits ▸ List.mem_cons_self)
        refine ⟨d, ds, rfl, ?_⟩
        rintro rfl
        cases digit
    · rw [if_neg sign]
      exact ⟨_, _, rfl, by decide⟩
  | .str value | .arr items | .obj members =>
    rw [chars]
    exact ⟨_, _, rfl, by decide⟩
  | .uint value | .float value => cases isPlain

theorem commaChars_cons (item : List Char) (rest : List (List Char)) :
    ∃ others, commaChars (item :: rest) = item ++ others := by
  cases rest with
  | nil => exact ⟨[], (List.append_nil item).symm⟩
  | cons next rest => exact ⟨_, rfl⟩

theorem readValue_digits (fuel n : Nat) {rest : List Char} (ends : endsNumber rest = true) :
    readValue (fuel + 1) (Nat.toDigits 10 n ++ rest) = some (.int n, rest) := by
  have number := readNat_digits n ends
  cases digits : Nat.toDigits 10 n with
  | nil => exact absurd digits Nat.toDigits_ne_nil
  | cons d ds =>
    have digit : d.isDigit = true :=
      Nat.isDigit_of_mem_toDigits (by decide) (by decide) (digits ▸ List.mem_cons_self)
    have other : d ≠ 'n' ∧ d ≠ 't' ∧ d ≠ 'f' ∧ d ≠ '"' ∧ d ≠ '[' ∧ d ≠ '\x7b' ∧ d ≠ '-' := by
      refine ⟨?_, ?_, ?_, ?_, ?_, ?_, ?_⟩ <;> (rintro rfl; cases digit)
    rw [digits, List.cons_append] at number
    simp only [List.cons_append, readValue, other, if_false, number, Option.map_some]

mutual

theorem readValue_chars : ∀ (value : Json) (fuel : Nat) (rest : List Char), value.plain = true →
    (chars value).length ≤ fuel → endsNumber rest = true → readValue fuel (chars value ++ rest) = some (value, rest)
  | value, 0, _, isPlain, enough, _ => by
    have ⟨c, cs, first, _⟩ := chars_head value isPlain
    rw [first] at enough
    cases enough
  | .null, fuel + 1, rest, _, _, _ | .bool true, fuel + 1, rest, _, _, _ | .bool false, fuel + 1, rest, _, _, _ => by
    simp [chars, readValue]
  | .int value, fuel + 1, rest, _, _, ends => by
    rw [chars, intChars]
    by_cases sign : 0 ≤ value
    · have same : (value.natAbs : Int) = value := by omega
      rw [if_pos sign, readValue_digits fuel _ ends, same]
    · have same : -(value.natAbs : Int) = value := by omega
      rw [if_neg sign, List.cons_append]
      have read := readNat_digits value.natAbs ends
      have negative : (readNat (Nat.toDigits 10 value.natAbs ++ rest)).map (fun read => (Json.int (-read.1), read.2)) = some (.int value, rest) := by
        rw [read, Option.map_some, same]
      simpa [readValue] using negative
  | .str value, fuel + 1, rest, _, _, _ => by
    have text := readQuoted_quoted value.toList rest
    simp [chars, quotedChars, readValue, text]
  | .arr [], fuel + 1, rest, _, _, _ | .obj [], fuel + 1, rest, _, _, _ => by
    simp [chars, itemChars, memberChars, commaChars, readValue]
  | .arr (item :: items), fuel + 1, rest, isPlain, enough, _ => by
    simp only [Json.plain] at isPlain
    simp only [chars, List.length_cons, List.length_append] at enough
    have inside := readItems_chars (item :: items) fuel rest (List.cons_ne_nil _ _) isPlain (by omega)
    have first : (commaChars (itemChars (item :: items)) ++ ']' :: rest).head? ≠ some ']' := by
      simp only [Json.plainItems, Bool.and_eq_true] at isPlain
      have ⟨c, cs, head, other⟩ := chars_head item isPlain.1
      have ⟨others, comma⟩ := commaChars_cons (chars item) (itemChars items)
      rw [itemChars, comma, head]
      simpa using other
    rw [chars, List.cons_append, List.append_assoc, List.singleton_append]
    simp only [readValue, Char.reduceEq, if_false, if_true, first, inside, Option.map_some]
  | .obj (member :: members), fuel + 1, rest, isPlain, enough, _ => by
    simp only [Json.plain, Bool.and_eq_true] at isPlain
    simp only [chars, List.length_cons, List.length_append] at enough
    have inside := readMembers_chars (member :: members) fuel rest (List.cons_ne_nil _ _) isPlain.1 (by omega)
    have first : (commaChars (memberChars (member :: members)) ++ '\x7d' :: rest).head? ≠ some '\x7d' := by
      have ⟨others, comma⟩ := commaChars_cons (quotedChars member.1 ++ ':' :: chars member.2) (memberChars members)
      rw [memberChars, comma]
      simp [quotedChars]
    rw [chars, List.cons_append, List.append_assoc, List.singleton_append]
    simp only [readValue, Char.reduceEq, if_false, if_true, first, inside, Option.map_some]

theorem readItems_chars : ∀ (items : List Json) (fuel : Nat) (rest : List Char), items ≠ [] →
    Json.plainItems items = true → (commaChars (itemChars items)).length < fuel →
      readItems fuel (commaChars (itemChars items) ++ ']' :: rest) = some (items, rest)
  | [], _, _, any, _, _ => absurd rfl any
  | [item], fuel + 1, rest, _, isPlain, enough => by
    simp only [Json.plainItems, Bool.and_eq_true] at isPlain
    simp only [itemChars, commaChars] at enough ⊢
    have value := readValue_chars item fuel (']' :: rest) isPlain.1 (by omega) rfl
    simp [readItems, value]
  | item :: next :: items, fuel + 1, rest, _, isPlain, enough => by
    simp only [Json.plainItems, Bool.and_eq_true] at isPlain
    have text : commaChars (itemChars (item :: next :: items)) =
        chars item ++ ',' :: commaChars (itemChars (next :: items)) := rfl
    rw [text] at enough ⊢
    simp only [List.length_append, List.length_cons] at enough
    have later : Json.plainItems (next :: items) = true := by simp [Json.plainItems, isPlain]
    have value := readValue_chars item fuel (',' :: (commaChars (itemChars (next :: items)) ++ ']' :: rest))
      isPlain.1 (by omega) rfl
    have others := readItems_chars (next :: items) fuel rest (List.cons_ne_nil _ _) later (by omega)
    rw [List.append_assoc, List.cons_append]
    simp [readItems, value, others]

theorem readMembers_chars : ∀ (members : List (String × Json)) (fuel : Nat) (rest : List Char), members ≠ [] →
    Json.plainMembers members = true → (commaChars (memberChars members)).length < fuel →
      readMembers fuel (commaChars (memberChars members) ++ '\x7d' :: rest) = some (members, rest)
  | [], _, _, any, _, _ => absurd rfl any
  | [(name, value)], fuel + 1, rest, _, isPlain, enough => by
    simp only [Json.plainMembers, Bool.and_eq_true] at isPlain
    simp only [memberChars, commaChars, List.length_append, List.length_cons] at enough ⊢
    have text := readQuoted_quoted name.toList (':' :: (chars value ++ '\x7d' :: rest))
    have value := readValue_chars value fuel ('\x7d' :: rest) isPlain.1.2 (by omega) rfl
    simp [quotedChars, readMembers, text, value]
  | (name, value) :: next :: members, fuel + 1, rest, _, isPlain, enough => by
    simp only [Json.plainMembers, Bool.and_eq_true] at isPlain
    have split : commaChars (memberChars ((name, value) :: next :: members)) =
        (quotedChars name ++ ':' :: chars value) ++ ',' :: commaChars (memberChars (next :: members)) := rfl
    rw [split] at enough ⊢
    simp only [List.length_append, List.length_cons] at enough
    have later : Json.plainMembers (next :: members) = true := by
      obtain ⟨name, value⟩ := next
      simp [Json.plainMembers, isPlain.2]
    have others := readMembers_chars (next :: members) fuel rest (List.cons_ne_nil _ _) later (by omega)
    have text := readQuoted_quoted name.toList
      (':' :: (chars value ++ ',' :: (commaChars (memberChars (next :: members)) ++ '\x7d' :: rest)))
    have value := readValue_chars value fuel (',' :: (commaChars (memberChars (next :: members)) ++ '\x7d' :: rest))
      isPlain.1.2 (by omega) rfl
    simp [quotedChars, readMembers, text, value, others]

end

/-! The text written for a value is the one put together for it. -/

theorem simple_escaped {c : Char} (simple : (c.isAlphanum || c == '_') = true) : escaped c = [c] := by
  have other : c ≠ '"' ∧ c ≠ '\\' ∧ ¬ c.toNat < 32 := by
    refine ⟨?_, ?_, fun control => ?_⟩
    · rintro rfl
      cases simple
    · rintro rfl
      cases simple
    · have none : ∀ n < 32, ((Char.ofNat n).isAlphanum || Char.ofNat n == '_') = false := by decide
      have := none _ control
      rw [Char.ofNat_toNat, simple] at this
      cases this
  unfold escaped
  rw [if_neg other.1, if_neg other.2.1, if_neg other.2.2]

theorem quotedChars_simple {name : String} (simple : Json.simpleName name = true) :
    quotedChars name = '"' :: (name.toList ++ ['"']) := by
  have same : name.toList.flatMap escaped = name.toList := by
    rw [Json.simpleName, List.all_eq_true] at simple
    generalize name.toList = cs at simple
    induction cs with
    | nil => rfl
    | cons c cs ih =>
      have ⟨here, later⟩ := List.forall_mem_cons.mp simple
      rw [List.flatMap_cons, simple_escaped here, ih later, List.singleton_append]
  rw [quotedChars, same]

theorem separated_commaChars (items : List (List Char)) :
    separated (items.map fun item => utf8 (.ofList item)) = utf8 (.ofList (commaChars items)) := by
  induction items with
  | nil => rfl
  | cons item rest ih =>
    cases rest with
    | nil => rfl
    | cons next rest =>
      have comma : utf8 (.ofList (commaChars (item :: next :: rest))) =
          utf8 (.ofList item) ++ (utf8 "," ++ utf8 (.ofList (commaChars (next :: rest)))) := by
        show utf8 (.ofList (item ++ ([','] ++ commaChars (next :: rest)))) = _
        rw [utf8_ofList_append, utf8_ofList_append]
      rw [comma, ← ih]
      exact List.append_assoc ..

mutual

theorem compact_reader : ∀ value : Json, value.plain = true → reader.compact value = utf8 (.ofList (chars value))
  | .null, _ | .bool _, _ | .str _, _ => rfl
  | .int value, _ => by
    rw [Ember.compact, chars, utf8_toList]
  | .arr items, isPlain => by
    rw [Ember.compact, arrayText, compactItems_reader items isPlain, separated_commaChars, chars, ← List.singleton_append,
      utf8_ofList_append, utf8_ofList_append, ← List.append_assoc]
  | .obj members, isPlain => by
    simp only [Json.plain, Bool.and_eq_true] at isPlain
    rw [Ember.compact, objectText, compactMembers_reader members isPlain.1, separated_commaChars, chars,
      ← List.singleton_append, utf8_ofList_append, utf8_ofList_append, ← List.append_assoc]

theorem compactItems_reader : ∀ items, Json.plainItems items = true →
    reader.compactItems items = (itemChars items).map fun item => utf8 (.ofList item)
  | [], _ => rfl
  | item :: rest, isPlain => by
    simp only [Json.plainItems, Bool.and_eq_true] at isPlain
    rw [Ember.compactItems, compact_reader item isPlain.1, compactItems_reader rest isPlain.2]
    rfl

theorem compactMembers_reader : ∀ members, Json.plainMembers members = true →
    ((reader.compactMembers members).map fun m => utf8 ("\"" ++ m.1 ++ "\":") ++ m.2) =
      (memberChars members).map fun item => utf8 (.ofList item)
  | [], _ => rfl
  | (name, value) :: rest, isPlain => by
    simp only [Json.plainMembers, Bool.and_eq_true] at isPlain
    have label : quotedChars name ++ ':' :: chars value = ("\"" ++ name ++ "\":").toList ++ chars value := by
      rw [quotedChars_simple isPlain.1.1]
      simp
    rw [Ember.compactMembers, List.map_cons, compactMembers_reader rest isPlain.2, compact_reader value isPlain.1.2,
      memberChars, List.map_cons, label, utf8_ofList_append, utf8_toList]

end

theorem readText_chars (value : Json) (isPlain : value.plain = true) (ending : List Char)
    (blank : ending.all (· = '\n') = true) : readText (chars value ++ ending) = .ok value := by
  have ends : endsNumber ending = true := by
    cases ending with
    | nil => rfl
    | cons c rest =>
      simp only [List.all_cons, Bool.and_eq_true, decide_eq_true_eq] at blank
      rw [blank.1]
      rfl
  have enough : (chars value).length ≤ (chars value ++ ending).length := by simp
  unfold readText
  rw [readValue_chars value _ ending isPlain enough ends]
  simp only [blank, if_true]

theorem parse_reader (cs : List Char) : reader.parse (utf8 (.ofList cs)) = readText cs := by
  show (match (ByteArray.mk (utf8 (.ofList cs)).toArray).utf8Decode? with
    | some cs => readText cs.toList
    | none => .error "not UTF-8") = _
  rw [decoded_utf8]

theorem reader_faithful : reader.Faithful where
  compact value isPlain := by
    have text := readText_chars value isPlain [] rfl
    rw [compact_reader value isPlain, parse_reader, ← text, List.append_nil]
  written value isPlain := by
    have text := readText_chars value isPlain [] rfl
    rw [show reader.write value = utf8 (.ofList (chars value)) from rfl, parse_reader, ← text, List.append_nil]
  ended value isPlain := by
    have text := readText_chars value isPlain ['\n'] rfl
    have bytes : reader.write value ++ [newline] = utf8 (.ofList (chars value ++ ['\n'])) := by
      rw [utf8_ofList_append]
      rfl
    rw [bytes, parse_reader, text]
  line value isPlain := by
    have ⟨c, cs, first, _⟩ := chars_head value isPlain
    refine ⟨fun none => ?_, fun member => chars_line value isPlain (newline_of_utf8 member)⟩
    have byte : utf8 (.ofList (chars value)) = [] := none
    rw [first, utf8_ofList, List.flatMap_cons, List.append_eq_nil_iff] at byte
    exact String.utf8EncodeChar_ne_nil byte.1
  quoted name simple := by
    show utf8 (.ofList (quotedChars name)) = _
    rw [quotedChars_simple simple, ← utf8_toList ("\"" ++ name ++ "\"")]
    simp

end Fala.Jsonl
