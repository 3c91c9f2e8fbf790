import Mathlib.Data.List.TakeWhile
import Mathlib.Tactic.ByContra
import Fala.Json.Notation

/-! A printer and a parser of values without numbers. -/

namespace Fala.Json

def plainEscape (c : Char) : List Char :=
  if c = '\x22' then ['\x5c', '\x22'] else if c = '\x5c' then ['\x5c', '\x5c'] else [c]

def plainScalar : Json → List Char
  | .bool value => (toString value).toList
  | .int n => (toString n).toList
  | .uint n => (toString n).toList
  | _ => ['n', 'u', 'l', 'l']

def plainPrint (value : Json) : String := String.ofList (write plainScalar plainEscape value)

/-- A text up to its closing quote. -/
def readText : List Char → Option (List Char × List Char)
  | [] => none
  | '\x22' :: rest => some ([], rest)
  | '\x5c' :: c :: rest => (readText rest).map fun r => (c :: r.1, r.2)
  | c :: rest => (readText rest).map fun r => (c :: r.1, r.2)

mutual

def readValue : Nat → List Char → Option (Json × List Char)
  | 0, _ => none
  | _ + 1, 'n' :: 'u' :: 'l' :: 'l' :: rest => some (.null, rest)
  | _ + 1, 't' :: 'r' :: 'u' :: 'e' :: rest => some (.bool true, rest)
  | _ + 1, 'f' :: 'a' :: 'l' :: 's' :: 'e' :: rest => some (.bool false, rest)
  | _ + 1, '\x22' :: rest => (readText rest).map fun r => (.str (String.ofList r.1), r.2)
  | _ + 1, '[' :: ']' :: rest => some (.arr [], rest)
  | fuel + 1, '[' :: rest => (readItems fuel rest).map fun r => (.arr r.1, r.2)
  | _ + 1, '\x7b' :: '\x7d' :: rest => some (.obj [], rest)
  | fuel + 1, '\x7b' :: rest => (readMembers fuel rest).map fun r => (.obj r.1, r.2)
  | _ + 1, _ => none

def readItems : Nat → List Char → Option (List Json × List Char)
  | 0, _ => none
  | fuel + 1, text =>
    match readValue fuel text with
    | some (item, ']' :: rest) => some ([item], rest)
    | some (item, ',' :: rest) => (readItems fuel rest).map fun r => (item :: r.1, r.2)
    | _ => none

def readMembers : Nat → List Char → Option (List (String × Json) × List Char)
  | 0, _ => none
  | fuel + 1, '\x22' :: text =>
    match readText text with
    | some (name, ':' :: rest) =>
      match readValue fuel rest with
      | some (value, '\x7d' :: rest) => some ([(String.ofList name, value)], rest)
      | some (value, ',' :: rest) => (readMembers fuel rest).map fun r => ((String.ofList name, value) :: r.1, r.2)
      | _ => none
    | _ => none
  | _ + 1, _ => none

end

def isConstant : Json → Bool
  | .null | .bool _ => true
  | _ => false

/-- A key may stand in an object once. -/
def plainRead (text : String) : Except String Json :=
  match readValue text.toList.length text.toList with
  | some (value, []) => if value.leaves.all isConstant && value.keysDistinct then .ok value else .error "duplicate key"
  | _ => .error "invalid JSON"

theorem readText_spelled (text after : List Char) :
    readText (text.flatMap plainEscape ++ '\x22' :: after) = some (text, after) := by
  induction text with
  | nil => rfl
  | cons c text ih =>
    rw [List.flatMap_cons, List.append_assoc]
    by_cases quote : c = '\x22'
    · subst quote
      exact congrArg (Option.map fun r : List Char × List Char => ('\x22' :: r.1, r.2)) ih
    · by_cases backslash : c = '\x5c'
      · subst backslash
        exact congrArg (Option.map fun r : List Char × List Char => ('\x5c' :: r.1, r.2)) ih
      · rw [plainEscape, if_neg quote, if_neg backslash, List.singleton_append, readText, ih]
        · rfl
        · exact quote
        · exact fun d rest same => absurd same backslash

theorem readText_writeText (text : String) (after : List Char) :
    ∃ rest, writeText plainEscape text ++ after = '\x22' :: rest ∧ readText rest = some (text.toList, after) := by
  refine ⟨text.toList.flatMap plainEscape ++ '\x22' :: after, ?_, readText_spelled _ _⟩
  simp only [writeText, List.cons_append, List.nil_append, List.append_assoc]

theorem write_head {value : Json} (known : value.leaves.all isConstant = true) :
    ∃ c rest, write plainScalar plainEscape value = c :: rest ∧ c ≠ ']' := by
  cases value with
  | int | uint | float => cases known
  | bool b => cases b <;> exact ⟨_, _, rfl, by decide⟩
  | _ => exact ⟨_, _, rfl, by decide⟩

theorem readValue_items {fuel : Nat} {c : Char} {rest : List Char} (opens : c ≠ ']') :
    readValue (fuel + 1) ('[' :: c :: rest) = (readItems fuel (c :: rest)).map fun r => (.arr r.1, r.2) := by
  rw [readValue]
  intro others same
  exact opens (List.cons.inj same).1

theorem readValue_members {fuel : Nat} {rest : List Char} :
    readValue (fuel + 1) ('\x7b' :: '\x22' :: rest) =
      (readMembers fuel ('\x22' :: rest)).map fun r => (.obj r.1, r.2) := by
  rw [readValue]
  intro others same
  exact absurd (List.cons.inj same).1 (by decide)

mutual

theorem readValue_write : ∀ (value : Json) (fuel : Nat) (after : List Char), value.leaves.all isConstant = true →
    (write plainScalar plainEscape value).length ≤ fuel →
    readValue fuel (write plainScalar plainEscape value ++ after) = some (value, after)
  | _, 0, _, known, enough => by
    have ⟨c, rest, is, _⟩ := write_head known
    rw [is] at enough
    cases enough
  | .null, fuel + 1, after, _, _ => by
    show readValue (fuel + 1) ('n' :: 'u' :: 'l' :: 'l' :: after) = _
    rw [readValue]
  | .bool true, fuel + 1, after, _, _ => by
    show readValue (fuel + 1) ('t' :: 'r' :: 'u' :: 'e' :: after) = _
    rw [readValue]
  | .bool false, fuel + 1, after, _, _ => by
    show readValue (fuel + 1) ('f' :: 'a' :: 'l' :: 's' :: 'e' :: after) = _
    rw [readValue]
  | .int _, _ + 1, _, known, _ => nomatch known
  | .uint _, _ + 1, _, known, _ => nomatch known
  | .float _, _ + 1, _, known, _ => nomatch known
  | .str text, fuel + 1, after, _, _ => by
    have ⟨rest, is, read⟩ := readText_writeText text after
    rw [write, is, readValue, read, Option.map_some, String.ofList_toList]
  | .arr [], fuel + 1, after, _, _ => by
    show readValue (fuel + 1) ('[' :: ']' :: after) = _
    rw [readValue]
  | .arr (item :: rest), fuel + 1, after, known, enough => by
    have first : item.leaves.all isConstant = true := by
      rw [leaves, leavesItems, List.all_append, Bool.and_eq_true] at known
      exact known.1
    have ⟨c, others, is, opens⟩ := write_head first
    have starts : ∃ more, writeItems plainScalar plainEscape (item :: rest) ++ ']' :: after = c :: more := by
      rw [writeItems, is]
      exact ⟨_, rfl⟩
    have ⟨more, whole⟩ := starts
    have inner := readItems_write (item :: rest) fuel after (List.cons_ne_nil _ _) known (by
      simp only [write, List.length_cons, List.length_append, List.length_nil] at enough
      omega)
    have spelledAs : write plainScalar plainEscape (.arr (item :: rest)) ++ after =
        '[' :: (writeItems plainScalar plainEscape (item :: rest) ++ ']' :: after) := by
      simp only [write, List.cons_append, List.nil_append, List.append_assoc]
    rw [whole] at inner
    rw [spelledAs, whole, readValue_items opens, inner, Option.map_some]
  | .obj [], fuel + 1, after, _, _ => by
    show readValue (fuel + 1) ('\x7b' :: '\x7d' :: after) = _
    rw [readValue]
  | .obj ((name, value) :: rest), fuel + 1, after, known, enough => by
    have starts : ∃ more, writeMembers plainScalar plainEscape ((name, value) :: rest) ++ '\x7d' :: after =
        '\x22' :: more := by
      rw [writeMembers, writeText]
      exact ⟨_, rfl⟩
    have ⟨more, whole⟩ := starts
    have inner := readMembers_write ((name, value) :: rest) fuel after (List.cons_ne_nil _ _) known (by
      simp only [write, List.length_cons, List.length_append, List.length_nil] at enough
      omega)
    have spelledAs : write plainScalar plainEscape (.obj ((name, value) :: rest)) ++ after =
        '\x7b' :: (writeMembers plainScalar plainEscape ((name, value) :: rest) ++ '\x7d' :: after) := by
      simp only [write, List.cons_append, List.nil_append, List.append_assoc]
    rw [whole] at inner
    rw [spelledAs, whole, readValue_members, inner, Option.map_some]

theorem readItems_write : ∀ (items : List Json) (fuel : Nat) (after : List Char), items ≠ [] →
    (leavesItems items).all isConstant = true → (writeItems plainScalar plainEscape items).length + 1 ≤ fuel →
    readItems fuel (writeItems plainScalar plainEscape items ++ ']' :: after) = some (items, after)
  | [], _, _, nonempty, _, _ => absurd rfl nonempty
  | _ :: _, 0, _, _, _, enough => absurd enough (by omega)
  | item :: rest, fuel + 1, after, _, known, enough => by
    rw [leavesItems, List.all_append, Bool.and_eq_true] at known
    simp only [writeItems, List.length_append] at enough
    rw [writeItems, List.append_assoc, List.append_assoc, readItems]
    by_cases last : rest = []
    · subst last
      rw [readValue_write item fuel _ known.1 (by omega)]
      rfl
    · rw [if_neg last, List.length_singleton] at enough
      rw [if_neg last, readValue_write item fuel _ known.1 (by omega)]
      have later := readItems_write rest fuel after last known.2 (by omega)
      simp only [List.singleton_append, later, Option.map_some]

theorem readMembers_write : ∀ (members : List (String × Json)) (fuel : Nat) (after : List Char), members ≠ [] →
    (leavesMembers members).all isConstant = true → (writeMembers plainScalar plainEscape members).length + 1 ≤ fuel →
    readMembers fuel (writeMembers plainScalar plainEscape members ++ '\x7d' :: after) = some (members, after)
  | [], _, _, nonempty, _, _ => absurd rfl nonempty
  | _ :: _, 0, _, _, _, enough => absurd enough (by omega)
  | (name, value) :: rest, fuel + 1, after, _, known, enough => by
    rw [leavesMembers, List.all_append, Bool.and_eq_true] at known
    simp only [writeMembers, List.length_append, List.length_cons] at enough
    have ⟨more, is, read⟩ := readText_writeText name (':' :: (write plainScalar plainEscape value ++
      ((if rest = [] then [] else [',']) ++ (writeMembers plainScalar plainEscape rest ++ '\x7d' :: after))))
    have spelledAs : writeMembers plainScalar plainEscape ((name, value) :: rest) ++ '\x7d' :: after = '\x22' :: more := by
      rw [← is]
      simp only [writeMembers, List.cons_append, List.append_assoc]
    rw [spelledAs, readMembers, read]
    by_cases last : rest = []
    · subst last
      simp only [if_true, List.nil_append, writeMembers]
      rw [readValue_write value fuel _ known.1 (by omega)]
      simp only [String.ofList_toList]
    · rw [if_neg last, List.length_singleton] at enough
      have later := readMembers_write rest fuel after last known.2 (by omega)
      simp only [if_neg last]
      rw [readValue_write value fuel _ known.1 (by omega)]
      simp only [List.singleton_append, later, Option.map_some, String.ofList_toList]

end

theorem plainRead_print {value : Json} (known : value.leaves.all isConstant = true) :
    plainRead (plainPrint value) = if value.keysDistinct then .ok value else .error "duplicate key" := by
  have whole := readValue_write value (write plainScalar plainEscape value).length [] known (Nat.le_refl _)
  rw [List.append_nil] at whole
  rw [plainRead, plainPrint, String.toList_ofList, whole]
  simp only [known, Bool.true_and]

theorem plainScalar_plain (value : Json) : ∀ c ∈ plainScalar value, isPlain c = true := by
  have digits (n : Nat) : ∀ c ∈ (toString n).toList, isPlain c = true := by
    intro c listed
    have digit : c.isDigit = true := by
      apply Nat.isDigit_of_mem_toDigits (b := 10) (by decide) (by decide)
      simpa [toString, Nat.repr] using listed
    simp [isPlain, Char.isAlphanum, digit]
  have word : ∀ c ∈ ['n', 'u', 'l', 'l'], isPlain c = true := List.all_eq_true.mp (by decide)
  cases value with
  | bool b => exact List.all_eq_true.mp (by cases b <;> decide)
  | uint n => exact digits n
  | int n =>
    cases n with
    | ofNat n => exact digits n
    | negSucc n =>
      intro c listed
      have is : (toString (Int.negSucc n)).toList = '-' :: (toString (n + 1)).toList := by
        simp [toString, Int.repr]
      rw [plainScalar, is, List.mem_cons] at listed
      rcases listed with rfl | digit
      · decide
      · exact digits _ c digit
  | _ => exact word

/-- The library of these two. -/
def plainLibrary : Library where
  print := plainPrint
  read := plainRead
  scalar := plainScalar
  escape := plainEscape
  Known leaf := isConstant leaf = true
  printed value := String.toList_ofList
  escapes c := by
    unfold plainEscape
    by_cases quote : c = '\x22'
    · exact .inr ⟨['\x22'], if_pos quote, by decide⟩
    · by_cases backslash : c = '\x5c'
      · exact .inr ⟨['\x5c'], (if_neg quote).trans (if_pos backslash), by decide⟩
      · exact .inl ((if_neg quote).trans (if_neg backslash))
  plain c plain := by
    have quote : c ≠ '\x22' := by
      rintro rfl
      exact absurd plain (by decide)
    have backslash : c ≠ '\x5c' := by
      rintro rfl
      exact absurd plain (by decide)
    exact (if_neg quote).trans (if_neg backslash)
  leaf := plainScalar_plain
  int _ := rfl
  uint _ := rfl
  bool _ := rfl
  reads value known distinct := by
    rw [plainRead_print (List.all_eq_true.mpr known), if_pos distinct]
  sound := by
    intro text value read
    unfold plainRead at read
    split at read
    · rename_i got _
      by_cases fine : (got.leaves.all isConstant && got.keysDistinct) = true
      · rw [if_pos fine] at read
        cases read
        rw [Bool.and_eq_true, List.all_eq_true] at fine
        exact fine
      · rw [if_neg fine] at read
        cases read
    · cases read
  faithful := by
    intro value got known read
    rw [plainRead_print (List.all_eq_true.mpr known)] at read
    by_cases distinct : value.keysDistinct = true
    · rw [if_pos distinct] at read
      cases read
      exact List.Subset.refl _
    · rw [if_neg distinct] at read
      cases read

end Fala.Json

/-! A parser of values with natural numbers, and how the texts of values make up the text of an object. -/

namespace Fala.Json

/-- Items between commas, up to the closing bracket. -/
def readSeparated {α : Type} (close : Char) (item : List Char → Option (α × List Char)) :
    Nat → List Char → Option (List α × List Char)
  | 0, _ => none
  | count + 1, text =>
    match item text with
    | some (x, c :: rest) =>
      if c = close then some ([x], rest)
      else if c = ',' then (readSeparated close item count rest).map fun r => (x :: r.1, r.2)
      else none
    | _ => none

def readBracket {α : Type} (close : Char) (item : List Char → Option (α × List Char)) (count : Nat)
    (text : List Char) : Option (List α × List Char) :=
  if text.head? = some close then some ([], text.tail) else readSeparated close item count text

def readMember (value : List Char → Option (Json × List Char)) : List Char → Option ((String × Json) × List Char)
  | '\x22' :: text =>
    match readText text with
    | some (name, ':' :: rest) => (value rest).map fun r => ((String.ofList name, r.1), r.2)
    | _ => none
  | _ => none

def readNumeral (text : List Char) : Option (Json × List Char) :=
  if text.takeWhile Char.isDigit = [] then none
  else some (.int (Nat.ofDigitChars 10 (text.takeWhile Char.isDigit) 0), text.dropWhile Char.isDigit)

def readScalar : List Char → Option (Json × List Char)
  | 'n' :: 'u' :: 'l' :: 'l' :: rest => some (.null, rest)
  | 't' :: 'r' :: 'u' :: 'e' :: rest => some (.bool true, rest)
  | 'f' :: 'a' :: 'l' :: 's' :: 'e' :: rest => some (.bool false, rest)
  | text => readNumeral text

def readJson : Nat → List Char → Option (Json × List Char)
  | 0, _ => none
  | _ + 1, '\x22' :: rest => (readText rest).map fun r => (.str (String.ofList r.1), r.2)
  | fuel + 1, '[' :: rest => (readBracket ']' (readJson fuel) fuel rest).map fun r => (.arr r.1, r.2)
  | fuel + 1, '\x7b' :: rest =>
    (readBracket '\x7d' (readMember (readJson fuel)) fuel rest).map fun r => (.obj r.1, r.2)
  | _ + 1, text => readScalar text

/-! What is read stays read, whatever comes after it. -/

/-- A number does not go on. -/
def Stops (after : List Char) : Prop := ∀ c ∈ after.head?, c.isDigit = false

theorem stops_nil : Stops [] := nofun

theorem stops_cons {c : Char} {rest : List Char} (mark : c.isDigit = false) : Stops (c :: rest) := by
  intro head is
  cases is
  exact mark

theorem readText_more {text s rest : List Char} (read : readText text = some (s, rest)) (after : List Char) :
    readText (text ++ after) = some (s, rest ++ after) := by
  fun_induction readText text generalizing s with
  | case1 => cases read
  | case2 rest' =>
    cases read
    rfl
  | case3 c rest' ih =>
    rw [Option.map_eq_some_iff] at read
    obtain ⟨⟨s', more⟩, inner, same⟩ := read
    cases same
    rw [List.cons_append, List.cons_append, readText, ih inner]
    rfl
  | case4 c rest' quote escape ih =>
    rw [Option.map_eq_some_iff] at read
    obtain ⟨⟨s', more⟩, inner, same⟩ := read
    cases same
    rw [List.cons_append, readText, ih inner]
    · rfl
    · exact quote
    · intro d others backslash goes
      cases rest' with
      | nil => cases inner
      | cons e others' => exact escape e others' backslash rfl

theorem readSeparated_more {α : Type} {close : Char} {item item' : List Char → Option (α × List Char)} (after : List Char)
    (more : ∀ text x c rest, item text = some (x, c :: rest) → item' (text ++ after) = some (x, c :: rest ++ after))
    {count : Nat} (k : Nat) {text rest : List Char} {xs : List α}
    (read : readSeparated close item count text = some (xs, rest)) :
    readSeparated close item' (count + k) (text ++ after) = some (xs, rest ++ after) := by
  induction count generalizing text xs with
  | zero => cases read
  | succ count ih =>
    rw [readSeparated] at read
    rw [Nat.succ_add, readSeparated]
    cases first : item text with
    | none =>
      rw [first] at read
      cases read
    | some r =>
      obtain ⟨x, others⟩ := r
      rw [first] at read
      cases others with
      | nil => cases read
      | cons c others =>
        rw [more text x c others first]
        dsimp only [List.cons_append] at read ⊢
        by_cases closes : c = close
        · rw [if_pos closes] at read ⊢
          cases read
          rfl
        · rw [if_neg closes] at read ⊢
          by_cases comma : c = ','
          · rw [if_pos comma] at read ⊢
            rw [Option.map_eq_some_iff] at read
            obtain ⟨⟨xs', rest'⟩, inner, same⟩ := read
            cases same
            rw [ih inner]
            rfl
          · rw [if_neg comma] at read
            cases read

theorem readBracket_more {α : Type} {close : Char} {item item' : List Char → Option (α × List Char)} (after : List Char)
    (nothing : item [] = none)
    (more : ∀ text x c rest, item text = some (x, c :: rest) → item' (text ++ after) = some (x, c :: rest ++ after))
    {count : Nat} (k : Nat) {text rest : List Char} {xs : List α}
    (read : readBracket close item count text = some (xs, rest)) :
    readBracket close item' (count + k) (text ++ after) = some (xs, rest ++ after) := by
  cases text with
  | nil =>
    have none_ : readSeparated close item count [] = none := by
      cases count with
      | zero => rfl
      | succ count => rw [readSeparated, nothing]
    rw [readBracket, if_neg (by simp), none_] at read
    cases read
  | cons c others =>
    rw [readBracket] at read ⊢
    rw [List.cons_append, List.head?_cons] at *
    by_cases closes : some c = some close
    · rw [if_pos closes] at read ⊢
      cases read
      rfl
    · rw [if_neg closes] at read ⊢
      exact readSeparated_more after more k read

theorem readMember_more {value value' : List Char → Option (Json × List Char)} (after : List Char)
    (more : ∀ text x c rest, value text = some (x, c :: rest) → value' (text ++ after) = some (x, c :: rest ++ after))
    {text : List Char} {member : String × Json} {c : Char} {rest : List Char}
    (read : readMember value text = some (member, c :: rest)) :
    readMember value' (text ++ after) = some (member, c :: rest ++ after) := by
  unfold readMember at read
  split at read
  · rename_i inner
    cases name : readText inner with
    | none =>
      rw [name] at read
      cases read
    | some r =>
      obtain ⟨name', others⟩ := r
      rw [name] at read
      split at read
      · rename_i spelled others' same
        cases same
        rw [Option.map_eq_some_iff] at read
        obtain ⟨⟨x, rest'⟩, inner', same⟩ := read
        cases same
        rw [List.cons_append, readMember, readText_more name after]
        show Option.map _ (value' (others' ++ after)) = _
        rw [more _ _ _ _ inner']
        rfl
      · cases read
  · cases read

theorem digits_more {text after : List Char} (stops : text.dropWhile Char.isDigit = [] → Stops after) :
    (text ++ after).takeWhile Char.isDigit = text.takeWhile Char.isDigit ∧
      (text ++ after).dropWhile Char.isDigit = text.dropWhile Char.isDigit ++ after := by
  induction text with
  | nil =>
    cases after with
    | nil => exact ⟨rfl, rfl⟩
    | cons c rest =>
      have mark : c.isDigit = false := stops rfl c rfl
      simp [mark]
  | cons c rest ih =>
    by_cases digit : c.isDigit = true
    · have later := ih (by simpa [digit] using stops)
      simp [digit, later]
    · simp [digit]

theorem readNumeral_more {text rest after : List Char} {value : Json} (read : readNumeral text = some (value, rest))
    (stops : rest = [] → Stops after) : readNumeral (text ++ after) = some (value, rest ++ after) := by
  rw [readNumeral] at read
  by_cases none_ : text.takeWhile Char.isDigit = []
  · rw [if_pos none_] at read
    cases read
  · rw [if_neg none_] at read
    cases read
    have more := digits_more stops
    rw [readNumeral, more.1, more.2, if_neg none_]

theorem readScalar_digit {c : Char} (digit : c.isDigit = true) (others : List Char) :
    readScalar (c :: others) = readNumeral (c :: others) := by
  have word {letter : Char} {rest : List Char} (mark : letter.isDigit = false) : c :: others = letter :: rest → False := by
    intro same
    rw [(List.cons.inj same).1, mark] at digit
    cases digit
  rw [readScalar]
  · exact fun _ => word (by decide)
  · exact fun _ => word (by decide)
  · exact fun _ => word (by decide)

theorem readScalar_more {text rest after : List Char} {value : Json} (read : readScalar text = some (value, rest))
    (stops : rest = [] → Stops after) : readScalar (text ++ after) = some (value, rest ++ after) := by
  unfold readScalar at read
  split at read
  · cases read
    rfl
  · cases read
    rfl
  · cases read
    rfl
  · rename_i null true_ false_
    have numeral := readNumeral_more read stops
    have digit : ∃ c others, text = c :: others ∧ c.isDigit = true := by
      rw [readNumeral] at read
      cases text with
      | nil => cases read
      | cons c others =>
        refine ⟨c, others, rfl, ?_⟩
        by_contra mark
        simp [mark] at read
    obtain ⟨c, others, rfl, digit⟩ := digit
    rw [List.cons_append] at numeral ⊢
    rw [readScalar_digit digit]
    exact numeral

theorem readJson_scalar {c : Char} (quote : c ≠ '\x22') (bracket : c ≠ '[') (brace : c ≠ '\x7b') {fuel : Nat}
    {others : List Char} : readJson (fuel + 1) (c :: others) = readScalar (c :: others) := by
  rw [readJson]
  · exact fun _ same => quote (List.cons.inj same).1
  · exact fun _ same => bracket (List.cons.inj same).1
  · exact fun _ same => brace (List.cons.inj same).1

theorem readJson_more (fuel k : Nat) {text rest after : List Char} {value : Json}
    (read : readJson fuel text = some (value, rest)) (stops : rest = [] → Stops after) :
    readJson (fuel + k) (text ++ after) = some (value, rest ++ after) := by
  induction fuel generalizing text rest value with
  | zero => cases read
  | succ fuel ih =>
    have nothing : readJson fuel [] = none := by
      cases fuel <;> rfl
    have more : ∀ text x c rest, readJson fuel text = some (x, c :: rest) →
        readJson (fuel + k) (text ++ after) = some (x, c :: rest ++ after) :=
      fun text x c rest inner => ih inner nofun
    rw [Nat.succ_add]
    cases text with
    | nil => cases read
    | cons c others =>
      by_cases quote : c = '\x22'
      · subst quote
        rw [readJson, Option.map_eq_some_iff] at read
        obtain ⟨⟨letters, rest'⟩, inner, same⟩ := read
        cases same
        rw [List.cons_append, readJson, readText_more inner after]
        rfl
      · by_cases bracket : c = '['
        · subst bracket
          rw [readJson, Option.map_eq_some_iff] at read
          obtain ⟨⟨items, rest'⟩, inner, same⟩ := read
          cases same
          rw [List.cons_append, readJson, readBracket_more after nothing more k inner]
          rfl
        · by_cases brace : c = '\x7b'
          · subst brace
            rw [readJson, Option.map_eq_some_iff] at read
            obtain ⟨⟨members, rest'⟩, inner, same⟩ := read
            cases same
            have member : ∀ text x c rest, readMember (readJson fuel) text = some (x, c :: rest) →
                readMember (readJson (fuel + k)) (text ++ after) = some (x, c :: rest ++ after) :=
              fun text x c rest inner => readMember_more after more inner
            rw [List.cons_append, readJson, readBracket_more after rfl member k inner]
            rfl
          · rw [readJson_scalar quote bracket brace] at read
            rw [List.cons_append, readJson_scalar quote bracket brace, ← List.cons_append]
            exact readScalar_more read stops

/-! Texts beside one another. -/

/-- The text is read as the value, wherever it stands. -/
def Spells (text : List Char) (value : Json) : Prop :=
  ∀ fuel, text.length ≤ fuel → ∀ after, Stops after → readJson fuel (text ++ after) = some (value, after)

theorem spells_of_read {text : List Char} {value : Json} (read : readJson text.length text = some (value, [])) :
    Spells text value := by
  intro fuel enough after stops
  obtain ⟨k, rfl⟩ := Nat.exists_eq_add_of_le enough
  exact readJson_more text.length k read fun _ => stops

def joined : List (List Char) → List Char
  | [] => []
  | text :: rest => text ++ (if rest = [] then [] else [',']) ++ joined rest

theorem readSeparated_joined {α : Type} {close : Char} (comma : ',' ≠ close) {item : List Char → Option (α × List Char)} :
    ∀ (texts : List (List Char × α)) (count : Nat) (after : List Char), texts ≠ [] → texts.length ≤ count →
      (∀ t ∈ texts, ∀ c rest, c = close ∨ c = ',' → item (t.1 ++ c :: rest) = some (t.2, c :: rest)) →
        readSeparated close item count (joined (texts.map Prod.fst) ++ close :: after) = some (texts.map Prod.snd, after)
  | [], _, _, nonempty, _, _ => absurd rfl nonempty
  | _ :: _, 0, _, _, enough, _ => absurd enough (by simp)
  | [t], count + 1, after, _, _, reads => by
    have first := reads t (List.mem_singleton_self t) close after (.inl rfl)
    simp only [List.map_cons, List.map_nil, joined, if_true, List.append_nil]
    rw [readSeparated, first]
    dsimp only
    rw [if_pos rfl]
  | t :: next :: rest, count + 1, after, _, enough, reads => by
    have first := reads t List.mem_cons_self ',' (joined ((next :: rest).map Prod.fst) ++ close :: after) (.inr rfl)
    have later := readSeparated_joined comma (next :: rest) count after (List.cons_ne_nil _ _)
      (by simpa using enough) fun u member => reads u (List.mem_cons_of_mem _ member)
    have nonempty : (next :: rest).map Prod.fst ≠ [] := by simp
    rw [List.map_cons, joined, if_neg nonempty, List.append_assoc, List.append_assoc, List.singleton_append,
      readSeparated, first]
    dsimp only
    rw [if_neg comma, if_pos rfl, later]
    rfl

theorem joined_length (texts : List (List Char)) (nonempty : ∀ t ∈ texts, t ≠ []) :
    texts.length ≤ (joined texts).length := by
  induction texts with
  | nil => exact Nat.le_refl 0
  | cons t rest ih =>
    have first : 0 < t.length := List.length_pos_iff.mpr (nonempty t List.mem_cons_self)
    have later := ih fun u member => nonempty u (List.mem_cons_of_mem _ member)
    simp only [joined, List.length_append, List.length_cons]
    omega

theorem joined_part {texts : List (List Char)} {t : List Char} (member : t ∈ texts) :
    t.length ≤ (joined texts).length := by
  induction texts with
  | nil => cases member
  | cons first rest ih =>
    simp only [joined, List.length_append]
    rcases List.mem_cons.mp member with rfl | member
    · omega
    · have := ih member
      omega

theorem Spells.head {text : List Char} {value : Json} (spells : Spells text value) :
    ∃ c rest, text = c :: rest ∧ c ≠ ']' ∧ c ≠ '\x7d' := by
  have read := spells (text.length + 1) (Nat.le_succ _) [] stops_nil
  rw [List.append_nil] at read
  cases text with
  | nil => cases read
  | cons c rest =>
    refine ⟨c, rest, rfl, ?_, ?_⟩
    · rintro rfl
      cases read
    · rintro rfl
      cases read

theorem joined_head {texts : List (List Char × Json)} (nonempty : texts ≠ [])
    (spells : ∀ t ∈ texts, Spells t.1 t.2) (after : List Char) :
    (joined (texts.map Prod.fst) ++ after).head? ≠ some ']' := by
  cases texts with
  | nil => exact absurd rfl nonempty
  | cons t rest =>
    obtain ⟨c, others, is, opens, -⟩ := (spells t List.mem_cons_self).head
    rw [List.map_cons, joined, is]
    simpa using opens

theorem Spells.nonempty {text : List Char} {value : Json} (spells : Spells text value) : text ≠ [] := by
  obtain ⟨c, rest, is, -⟩ := spells.head
  rw [is]
  exact List.cons_ne_nil _ _

theorem spells_arr {texts : List (List Char × Json)} (spells : ∀ t ∈ texts, Spells t.1 t.2) :
    Spells ('[' :: (joined (texts.map Prod.fst) ++ [']'])) (.arr (texts.map Prod.snd)) := by
  intro fuel enough after stops
  cases fuel with
  | zero => cases enough
  | succ fuel =>
    simp only [List.length_cons, List.length_append, List.length_nil] at enough
    rw [List.cons_append, List.append_assoc, List.singleton_append, readJson]
    by_cases nonempty : texts = []
    · subst nonempty
      rfl
    · have room := joined_length (texts.map Prod.fst) fun t member => by
        obtain ⟨u, listed, rfl⟩ := List.mem_map.mp member
        exact (spells u listed).nonempty
      rw [List.length_map] at room
      have each : ∀ t ∈ texts, ∀ c rest, c = ']' ∨ c = ',' →
          readJson fuel (t.1 ++ c :: rest) = some (t.2, c :: rest) := by
        intro t member c rest mark
        have part := joined_part (List.mem_map_of_mem (f := Prod.fst) member)
        apply spells t member fuel (by omega)
        rcases mark with rfl | rfl
        · exact stops_cons (by decide)
        · exact stops_cons (by decide)
      have items := readSeparated_joined (by decide) texts fuel after nonempty (by omega) each
      rw [readBracket, if_neg (joined_head nonempty spells _), items]
      rfl

/-- A member of an object: its name, the text of its value and the value. -/
structure MemberText where
  name : String
  text : List Char
  value : Json

namespace MemberText

def spelled (m : MemberText) : List Char := writeText plainEscape m.name ++ ':' :: m.text

def member (m : MemberText) : String × Json := (m.name, m.value)

theorem read_spelled (m : MemberText) {read : List Char → Option (Json × List Char)} {after rest : List Char}
    (value : read (m.text ++ after) = some (m.value, rest)) :
    readMember read (m.spelled ++ after) = some (m.member, rest) := by
  obtain ⟨others, is, name⟩ := readText_writeText m.name (':' :: (m.text ++ after))
  have begins : m.spelled ++ after = '\x22' :: others := by
    rw [← is, spelled, List.append_assoc, List.cons_append]
  rw [begins, readMember, name]
  show Option.map _ (read (m.text ++ after)) = _
  rw [value, Option.map_some, String.ofList_toList]
  rfl

end MemberText

theorem spells_obj {members : List MemberText} (spells : ∀ m ∈ members, Spells m.text m.value) :
    Spells ('\x7b' :: (joined (members.map MemberText.spelled) ++ ['\x7d'])) (.obj (members.map MemberText.member)) := by
  intro fuel enough after stops
  cases fuel with
  | zero => cases enough
  | succ fuel =>
    simp only [List.length_cons, List.length_append, List.length_nil] at enough
    rw [List.cons_append, List.append_assoc, List.singleton_append, readJson]
    cases members with
    | nil => rfl
    | cons first others =>
      have room := joined_length ((first :: others).map MemberText.spelled) fun t member => by
        obtain ⟨m, -, rfl⟩ := List.mem_map.mp member
        exact List.cons_ne_nil _ _
      rw [List.length_map] at room
      let texts := (first :: others).map fun m => (m.spelled, m.member)
      have fst : texts.map Prod.fst = (first :: others).map MemberText.spelled := by simp [texts]
      have snd : texts.map Prod.snd = (first :: others).map MemberText.member := by simp [texts]
      have each : ∀ t ∈ texts, ∀ c rest, c = '\x7d' ∨ c = ',' →
          readMember (readJson fuel) (t.1 ++ c :: rest) = some (t.2, c :: rest) := by
        intro t member c rest mark
        obtain ⟨m, listed, rfl⟩ := List.mem_map.mp member
        have part := joined_part (List.mem_map_of_mem (f := MemberText.spelled) listed)
        have within : m.text.length ≤ m.spelled.length := by
          simp only [MemberText.spelled, List.length_append, List.length_cons]
          omega
        apply m.read_spelled
        apply spells m listed fuel (by omega)
        rcases mark with rfl | rfl
        · exact stops_cons (by decide)
        · exact stops_cons (by decide)
      have items := readSeparated_joined (by decide) texts fuel after (List.cons_ne_nil _ _)
        (by simp only [texts, List.length_map]; omega) each
      rw [fst, snd] at items
      have opens : (joined ((first :: others).map MemberText.spelled) ++ '\x7d' :: after).head? ≠ some '\x7d' := by
        simp [joined, MemberText.spelled, writeText]
      rw [readBracket, if_neg opens, items]
      rfl

/-! What is printed. -/

def isNumeral : Json → Bool
  | .null | .bool _ => true
  | .int n => 0 ≤ n
  | _ => false

theorem spells_numeral (n : Nat) : Spells (plainScalar (.int n)) (.int n) := by
  have digits : ∀ c ∈ Nat.toDigits 10 n, c.isDigit = true := fun c listed =>
    Nat.isDigit_of_mem_toDigits (by decide) (by decide) listed
  have text : plainScalar (.int n) = Nat.toDigits 10 n := by
    simp [plainScalar, toString, Int.repr, Nat.repr]
  have taken : (Nat.toDigits 10 n).takeWhile Char.isDigit = Nat.toDigits 10 n := List.takeWhile_eq_self_iff.mpr digits
  have dropped : (Nat.toDigits 10 n).dropWhile Char.isDigit = [] := List.dropWhile_eq_nil_iff.mpr digits
  have numeral : readNumeral (Nat.toDigits 10 n) = some (.int n, []) := by
    rw [readNumeral, taken, dropped, if_neg Nat.toDigits_ne_nil, Nat.ofDigitChars_ten_toDigits]
  apply spells_of_read
  rw [text]
  cases spelled : Nat.toDigits 10 n with
  | nil => exact absurd spelled Nat.toDigits_ne_nil
  | cons c rest =>
    rw [spelled] at digits numeral
    have digit : c.isDigit = true := digits c List.mem_cons_self
    have other {mark : Char} (not_ : mark.isDigit = false) : c ≠ mark := by
      rintro rfl
      rw [digit] at not_
      cases not_
    rw [List.length_cons, readJson_scalar (other (by decide)) (other (by decide)) (other (by decide)),
      readScalar_digit digit, numeral]

theorem spells_str (text : String) : Spells (writeText plainEscape text) (.str text) := by
  obtain ⟨rest, is, read⟩ := readText_writeText text []
  rw [List.append_nil] at is
  apply spells_of_read
  rw [is, List.length_cons, readJson, read, Option.map_some, String.ofList_toList]

theorem writeItems_joined (items : List Json) :
    writeItems plainScalar plainEscape items = joined (items.map (write plainScalar plainEscape)) := by
  induction items with
  | nil => rfl
  | cons item rest ih =>
    rw [writeItems, List.map_cons, joined, ih]
    cases rest <;> rfl

/-- A member beside what is printed of its value. -/
def printedMember (member : String × Json) : MemberText :=
  ⟨member.1, write plainScalar plainEscape member.2, member.2⟩

theorem writeMembers_joined (members : List (String × Json)) :
    writeMembers plainScalar plainEscape members = joined ((members.map printedMember).map MemberText.spelled) := by
  induction members with
  | nil => rfl
  | cons member rest ih =>
    rw [writeMembers, List.map_cons, List.map_cons, joined, ih, printedMember, MemberText.spelled]
    cases rest <;> simp

mutual

theorem spells_write : ∀ value : Json, value.leaves.all isNumeral = true →
    Spells (write plainScalar plainEscape value) value
  | .null, _ => spells_of_read rfl
  | .bool true, _ => spells_of_read rfl
  | .bool false, _ => spells_of_read rfl
  | .int (.ofNat n), _ => spells_numeral n
  | .int (.negSucc _), known => nomatch known
  | .uint _, known => nomatch known
  | .float _, known => nomatch known
  | .str text, _ => spells_str text
  | .arr items, known => by
    have each : ∀ t ∈ items.map fun item => (write plainScalar plainEscape item, item), Spells t.1 t.2 := by
      intro t member
      obtain ⟨item, listed, rfl⟩ := List.mem_map.mp member
      exact spells_writeItems items known item listed
    have texts := spells_arr each
    simpa [write, writeItems_joined, Function.comp_def] using texts
  | .obj members, known => by
    have each : ∀ m ∈ members.map printedMember, Spells m.text m.value := by
      intro m member
      obtain ⟨pair, listed, rfl⟩ := List.mem_map.mp member
      exact spells_writeMembers members known pair listed
    have texts := spells_obj each
    have values : (members.map printedMember).map MemberText.member = members := by
      rw [List.map_map]
      exact List.map_id _
    rw [values] at texts
    rw [write, writeMembers_joined]
    exact texts

theorem spells_writeItems : ∀ items : List Json, (leavesItems items).all isNumeral = true →
    ∀ item ∈ items, Spells (write plainScalar plainEscape item) item
  | [], _, _, member => nomatch member
  | first :: rest, known, item, member => by
    rw [leavesItems, List.all_append, Bool.and_eq_true] at known
    rcases List.mem_cons.mp member with same | member
    · rw [same]
      exact spells_write first known.1
    · exact spells_writeItems rest known.2 item member

theorem spells_writeMembers : ∀ members : List (String × Json), (leavesMembers members).all isNumeral = true →
    ∀ member ∈ members, Spells (write plainScalar plainEscape member.2) member.2
  | [], _, _, member => nomatch member
  | (_, first) :: rest, known, member, listed => by
    rw [leavesMembers, List.all_append, Bool.and_eq_true] at known
    rcases List.mem_cons.mp listed with same | listed
    · rw [same]
      exact spells_write first known.1
    · exact spells_writeMembers rest known.2 member listed

end

/-- A key may stand in an object once. -/
def numeralRead (text : String) : Except String Json :=
  match readJson text.toList.length text.toList with
  | some (value, []) => if value.leaves.all isNumeral && value.keysDistinct then .ok value else .error "duplicate key"
  | _ => .error "invalid JSON"

theorem numeralRead_spelled {text : String} {value : Json} (spells : Spells text.toList value)
    (known : value.leaves.all isNumeral = true) :
    numeralRead text = if value.keysDistinct then .ok value else .error "duplicate key" := by
  have whole := spells text.toList.length (Nat.le_refl _) [] stops_nil
  rw [List.append_nil] at whole
  rw [numeralRead, whole]
  simp only [known, Bool.true_and]

theorem numeralRead_ok {text : String} {value : Json} (read : numeralRead text = .ok value) :
    Spells text.toList value ∧ value.leaves.all isNumeral = true ∧ value.keysDistinct = true := by
  unfold numeralRead at read
  split at read
  · rename_i got whole
    by_cases fine : (got.leaves.all isNumeral && got.keysDistinct) = true
    · rw [if_pos fine] at read
      cases read
      rw [Bool.and_eq_true] at fine
      exact ⟨spells_of_read whole, fine⟩
    · rw [if_neg fine] at read
      cases read
  · cases read

/-- The library of this parser. -/
def numeralLibrary : Library where
  print := plainPrint
  read := numeralRead
  scalar := plainScalar
  escape := plainEscape
  Known leaf := isNumeral leaf = true
  printed := plainLibrary.printed
  escapes := plainLibrary.escapes
  plain := plainLibrary.plain
  leaf := plainLibrary.leaf
  int _ := rfl
  uint _ := rfl
  bool _ := rfl
  reads value known distinct := by
    have all : value.leaves.all isNumeral = true := List.all_eq_true.mpr known
    have spells : Spells (plainPrint value).toList value := by
      rw [plainPrint, String.toList_ofList]
      exact spells_write value all
    rw [numeralRead_spelled spells all, if_pos distinct]
  sound := by
    intro text value read
    obtain ⟨-, known, distinct⟩ := numeralRead_ok read
    exact ⟨List.all_eq_true.mp known, distinct⟩
  faithful := by
    intro value got known read
    have all : value.leaves.all isNumeral = true := List.all_eq_true.mpr known
    have spells : Spells (plainPrint value).toList value := by
      rw [plainPrint, String.toList_ofList]
      exact spells_write value all
    rw [numeralRead_spelled spells all] at read
    by_cases distinct : value.keysDistinct = true
    · rw [if_pos distinct] at read
      cases read
      exact List.Subset.refl _
    · rw [if_neg distinct] at read
      cases read

/-! A text is longer than the string that it spells. -/

theorem readText_length {text s rest : List Char} (read : readText text = some (s, rest)) :
    s.length + rest.length < text.length := by
  fun_induction readText text generalizing s with
  | case1 => cases read
  | case2 rest' =>
    cases read
    simp
  | case3 c rest' ih =>
    rw [Option.map_eq_some_iff] at read
    obtain ⟨⟨s', more⟩, inner, same⟩ := read
    cases same
    have shorter : s'.length + more.length < rest'.length := ih inner
    simp only [List.length_cons]
    omega
  | case4 c rest' quote escape ih =>
    rw [Option.map_eq_some_iff] at read
    obtain ⟨⟨s', more⟩, inner, same⟩ := read
    cases same
    have shorter : s'.length + more.length < rest'.length := ih inner
    simp only [List.length_cons]
    omega

theorem readScalar_str {text rest : List Char} {s : String} : readScalar text ≠ some (.str s, rest) := by
  intro read
  unfold readScalar at read
  split at read
  · cases read
  · cases read
  · cases read
  · rw [readNumeral] at read
    split at read <;> cases read

theorem readJson_str {fuel : Nat} {text rest : List Char} {s : String}
    (read : readJson fuel text = some (.str s, rest)) : s.toList.length < text.length := by
  cases fuel with
  | zero => cases read
  | succ fuel =>
    cases text with
    | nil => cases read
    | cons c others =>
      by_cases quote : c = '\x22'
      · subst quote
        rw [readJson, Option.map_eq_some_iff] at read
        obtain ⟨⟨letters, rest'⟩, inner, same⟩ := read
        cases same
        have shorter : letters.length + rest'.length < others.length := readText_length inner
        show (String.ofList letters).toList.length < _
        rw [String.toList_ofList, List.length_cons]
        omega
      · by_cases bracket : c = '['
        · subst bracket
          rw [readJson, Option.map_eq_some_iff] at read
          obtain ⟨_, -, same⟩ := read
          cases same
        · by_cases brace : c = '\x7b'
          · subst brace
            rw [readJson, Option.map_eq_some_iff] at read
            obtain ⟨_, -, same⟩ := read
            cases same
          · rw [readJson_scalar quote bracket brace] at read
            exact absurd read readScalar_str

theorem numeralRead_str {text s : String} (read : numeralRead text = .ok (.str s)) : text ≠ s := by
  obtain ⟨spells, -⟩ := numeralRead_ok read
  have whole := spells text.toList.length (Nat.le_refl _) [] stops_nil
  rw [List.append_nil] at whole
  have longer := readJson_str whole
  rintro rfl
  exact Nat.lt_irrefl _ longer

end Fala.Json
