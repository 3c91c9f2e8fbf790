import Fala.Json.Schema
import Fala.Toml.Lexical

/-! The numbers of TOML 1.0, those of JSON, and what the parser makes of a token. -/

namespace Fala.Toml
open Schema (bind_ok)

/-- A digit of a base, as `_hex` reads it. -/
def isDigit (base : Nat) (c : Char) : Bool := (hex c).any (· < base)

def digitsFrom (base value : Nat) (digits : Text) : Nat :=
  digits.foldl (fun value c => value * base + (hex c).getD 0) value

/-- The amount of some digits. -/
def amountOf (base : Nat) (digits : Text) : Nat := digitsFrom base 0 digits

/-- A token without its underscores. -/
def bare (token : Text) : Text := token.filter (· ≠ '_')

def unsigned (text : Text) : Text := if signed text then text.drop 1 else text

def negated (text : Text) (amount : Nat) : Int := if text.head? = some '-' then -amount else amount

/-- One digit or more. -/
def digits (text : Text) : Bool := text ≠ [] && text.all (isDigit 10)

/-- Decimal digits that no zero leads. -/
def plainDigits (text : Text) : Bool := digits text && (text.length = 1 || text.head? ≠ some '0')

def exponent : Text → Bool
  | c :: rest => (c = 'e' || c = 'E') && digits (unsigned rest)
  | [] => false

/-- What follows the integer part of a float. -/
def floatTail : Text → Bool
  | '.' :: rest =>
    let after := rest.dropWhile (isDigit 10)
    digits (rest.takeWhile (isDigit 10)) && (after = [] || exponent after)
  | rest => exponent rest

def plainFloat (text : Text) : Bool :=
  plainDigits (text.takeWhile (isDigit 10)) && floatTail (text.dropWhile (isDigit 10))

/-- The integers of `Int64` and `UInt64`. -/
def Representable (n : Int) : Prop := -9223372036854775808 ≤ n ∧ n < 18446744073709551616

/-! JSON: a minus is the only sign. -/

def withoutMinus (text : Text) : Text := if text.head? = some '-' then text.drop 1 else text

def jsonInteger (text : Text) : Option Int :=
  if plainDigits (withoutMinus text) then some (negated text (amountOf 10 (withoutMinus text))) else none

def jsonFloat (text : Text) : Bool := plainFloat (withoutMinus text)

/-- The JSON parser reads a number exactly, and nothing else as a number. The texts have no blanks. -/
structure ExactNumbers (parse : String → Option Json) : Prop where
  integer : ∀ {text : Text} {n : Int}, jsonInteger text = some n → Representable n →
    ∃ value, parse (String.ofList text) = some value ∧ value.isInteger = true ∧ value.exactNumber = n
  float : ∀ {text : Text}, jsonFloat text = true → ∃ q, parse (String.ofList text) = some (.float q)
  integers : ∀ {text : Text} {value : Json}, (∀ c ∈ text, endsToken c = false) →
    parse (String.ofList text) = some value → value.isInteger = true →
      ∃ n : Int, jsonInteger text = some n ∧ Representable n ∧ value.exactNumber = n
  floats : ∀ {text : Text} {q : Rat}, (∀ c ∈ text, endsToken c = false) →
    parse (String.ofList text) = some (.float q) → jsonFloat text = true ∨ (jsonInteger text).isSome = true

/-! TOML: underscores stand between digits. -/

def baseOf : Char → Option Nat
  | 'x' => some 16
  | 'o' => some 8
  | 'b' => some 2
  | _ => none

/-- An integer without underscores: decimal with a sign or none, or with a prefix and no sign. -/
def tomlInteger (text : Text) : Option Int :=
  if plainDigits (unsigned text) then some (negated text (amountOf 10 (unsigned text)))
  else
    match text with
    | '0' :: letter :: rest => (baseOf letter).bind fun base =>
      if rest ≠ [] ∧ rest.all (isDigit base) then some (amountOf base rest) else none
    | _ => none

def tomlFloat (text : Text) : Bool := plainFloat (unsigned text)

/-- The base of the digits that an underscore stands between. -/
def spacedBase : Text → Nat
  | '0' :: letter :: _ => (baseOf letter).getD 10
  | _ => 10

/-- Every underscore of a text stands between two digits. -/
def spacedAfter (base : Nat) : Option Char → Text → Bool
  | _, [] => true
  | previous, c :: rest =>
    (c ≠ '_' || (previous.any (isDigit base) && rest.head?.any (isDigit base))) && spacedAfter base (some c) rest

def spaced (token : Text) : Bool := spacedAfter (spacedBase (bare token)) none token

def TomlInteger (token : Text) (n : Int) : Prop := spaced token = true ∧ tomlInteger (bare token) = some n

def TomlFloat (token : Text) : Prop := spaced token = true ∧ tomlFloat (bare token) = true

/-! What the parser does with a token. -/

def looseBase : Char → Option Nat
  | 'x' | 'X' => some 16
  | 'o' | 'O' => some 8
  | 'b' | 'B' => some 2
  | _ => none

/-- An integer with a sign or a capital letter in its prefix, or with two signs. -/
def Foreign (text : Text) (n : Int) : Prop :=
  (∃ letter rest base, unsigned text = '0' :: letter :: rest ∧ looseBase letter = some base ∧ rest ≠ [] ∧
    rest.all (isDigit base) = true ∧ n = negated text (amountOf base rest) ∧
      (signed text = true ∨ baseOf letter = none)) ∨
  ∃ rest, text = '+' :: '-' :: rest ∧ plainDigits rest = true ∧ n = -(amountOf 10 rest : Int)

def signedZero (text : Text) : Bool := text = ['+', '0'] ∨ text = ['-', '0']

/-- A number of TOML that the parser reads when it has no underscores. -/
def Taken (text : Text) : Prop :=
  (∃ n, tomlInteger text = some n ∧ Representable n ∧ signedZero text = false) ∨
    (tomlFloat text = true ∧ text.head? ≠ some '+')

/-- `_parse_number` after `_strip_underscores`. -/
def readClean (parse : String → Option Json) (path : String) (clean : Text) : Except String Json :=
  let signless := if signed clean then clean.drop 1 else clean
  if startsWith "0x" signless ∨ startsWith "0X" signless then parseIntegerBase path clean 16
  else if startsWith "0o" signless ∨ startsWith "0O" signless then parseIntegerBase path clean 8
  else if startsWith "0b" signless ∨ startsWith "0B" signless then parseIntegerBase path clean 2
  else if '.' ∈ clean ∨ 'e' ∈ clean ∨ 'E' ∈ clean then parseFloat parse path clean
  else if 1 < clean.length ∧ startsWith "0" signless then fail path "leading zero in decimal integer"
  else parseDecimal parse path (if clean.head? = some '+' then clean.drop 1 else clean)

theorem parseNumber_eq (parse : String → Option Json) (path : String) (token : Text) :
    parseNumber parse path token = stripUnderscores path token >>= readClean parse path := rfl

/-! Amounts. -/

section Amounts
variable {path : String} {base : Nat}

theorem digitsFrom_ge (positive : 0 < base) (value : Nat) (digits : Text) : value ≤ digitsFrom base value digits := by
  induction digits generalizing value with
  | nil => exact Nat.le_refl _
  | cons c rest ih =>
    have later := ih (value * base + (hex c).getD 0)
    have grown : value ≤ value * base := Nat.le_mul_of_pos_right value positive
    show value ≤ digitsFrom base (value * base + (hex c).getD 0) rest
    omega

theorem amount_ok (positive : 0 < base) (within : base ≤ 16) {digits : Text} {value total : Nat} (small : value < 2 ^ 64) :
    digits.foldlM (addDigit path base) value = .ok total ↔
      digits.all (isDigit base) = true ∧ total = digitsFrom base value digits ∧ total < 2 ^ 64 := by
  induction digits generalizing value with
  | nil =>
    simp only [List.foldlM_nil, List.all_nil, digitsFrom, List.foldl_nil, true_and]
    constructor
    · intro same
      cases same
      exact ⟨rfl, small⟩
    · rintro ⟨rfl, _⟩
      rfl
  | cons c rest ih =>
    rw [List.foldlM_cons, bind_ok, List.all_cons, Bool.and_eq_true]
    have added : ∀ next, addDigit path base value c = .ok next ↔
        isDigit base c = true ∧ next = value * base + (hex c).getD 0 ∧ next < 2 ^ 64 := by
      intro next
      unfold addDigit isDigit
      cases read : hex c with
      | none => simp [fail]
      | some digit =>
        simp only [Option.any_some, Option.getD_some, decide_eq_true_eq]
        by_cases large : base ≤ digit
        · simp only [if_pos large, fail]
          constructor
          · intro never
            cases never
          · rintro ⟨less, _⟩
            omega
        · simp only [if_neg large]
          have guard : (2 ^ 64 - 1 - digit) / base < value ↔ ¬ value * base + digit < 2 ^ 64 := by
            rw [Nat.div_lt_iff_lt_mul positive]
            omega
          by_cases overflow : (2 ^ 64 - 1 - digit) / base < value
          · simp only [if_pos overflow, fail]
            constructor
            · intro never
              cases never
            · rintro ⟨_, rfl, fits⟩
              exact absurd fits (guard.mp overflow)
          · simp only [if_neg overflow, Except.ok.injEq]
            constructor
            · rintro rfl
              exact ⟨by omega, rfl, not_not.mp (mt guard.mpr overflow)⟩
            · rintro ⟨_, rfl, _⟩
              rfl
    constructor
    · rintro ⟨next, step, later⟩
      obtain ⟨digit, is, fits⟩ := (added next).mp step
      obtain ⟨others, whole, final⟩ := (ih fits).mp later
      subst is
      exact ⟨⟨digit, others⟩, whole, final⟩
    · rintro ⟨⟨digit, others⟩, whole, final⟩
      have reached := digitsFrom_ge positive (value * base + (hex c).getD 0) rest
      have fits : value * base + (hex c).getD 0 < 2 ^ 64 := by
        have is : total = digitsFrom base (value * base + (hex c).getD 0) rest := whole
        omega
      exact ⟨_, (added _).mpr ⟨digit, rfl, fits⟩, (ih fits).mpr ⟨others, whole, final⟩⟩

theorem prefixed_digits {clean rest : Text} {zero letter : Char} (shape : unsigned clean = zero :: letter :: rest) :
    clean.drop ((if signed clean then 1 else 0) + 2) = rest ∧
      (clean.length ≤ (if signed clean then 1 else 0) + 2 ↔ rest = []) := by
  unfold unsigned at shape
  by_cases sign : signed clean = true
  · rw [if_pos sign] at shape ⊢
    cases clean with
    | nil => cases shape
    | cons c clean =>
      rw [List.drop_one, List.tail_cons] at shape
      subst shape
      refine ⟨rfl, ?_⟩
      simp only [List.length_cons, ← List.length_eq_zero_iff]
      omega
  · rw [if_neg sign] at shape ⊢
    subst shape
    refine ⟨rfl, ?_⟩
    simp only [List.length_cons, ← List.length_eq_zero_iff]
    omega

section
variable {clean rest : Text} {zero letter : Char} {value : Json}

theorem parseIntegerBase_ok (positive : 0 < base) (within : base ≤ 16) (shape : unsigned clean = zero :: letter :: rest)
    (parsed : parseIntegerBase path clean base = .ok value) : rest ≠ [] ∧ rest.all (isDigit base) = true ∧
      Representable (negated clean (amountOf base rest)) ∧ value.isInteger = true ∧
        value.exactNumber = (negated clean (amountOf base rest) : Int) := by
  obtain ⟨dropped, empty⟩ := prefixed_digits shape
  unfold parseIntegerBase at parsed
  simp only [dropped, empty] at parsed
  by_cases none_ : rest = []
  · rw [if_pos none_] at parsed
    cases parsed
  · rw [if_neg none_, bind_ok] at parsed
    obtain ⟨total, read, later⟩ := parsed
    obtain ⟨all, is, fits⟩ := (amount_ok positive within (by decide)).mp read
    have amount : total = amountOf base rest := is
    unfold negated Representable
    rw [← amount]
    by_cases minus : clean.head? = some '-'
    · simp only [if_pos minus] at later ⊢
      by_cases large : 2 ^ 63 < total
      · rw [if_pos large] at later
        cases later
      · rw [if_neg large] at later
        cases later
        exact ⟨none_, all, ⟨by omega, by omega⟩, rfl, rfl⟩
    · simp only [if_neg minus] at later ⊢
      by_cases less : total < 2 ^ 63
      · rw [if_pos less] at later
        cases later
        exact ⟨none_, all, ⟨by omega, by omega⟩, rfl, rfl⟩
      · rw [if_neg less] at later
        cases later
        exact ⟨none_, all, ⟨by omega, by omega⟩, rfl, (Rat.intCast_natCast total).symm⟩

theorem parseIntegerBase_takes (positive : 0 < base) (within : base ≤ 16)
    (shape : unsigned clean = zero :: letter :: rest) (some_ : rest ≠ []) (all : rest.all (isDigit base) = true)
    (fits : Representable (negated clean (amountOf base rest))) :
    ∃ value, parseIntegerBase path clean base = .ok value := by
  have ⟨dropped, empty⟩ := prefixed_digits shape
  unfold negated Representable at fits
  have small : amountOf base rest < 2 ^ 64 := by
    by_cases minus : clean.head? = some '-'
    · rw [if_pos minus] at fits
      omega
    · rw [if_neg minus] at fits
      omega
  have read : rest.foldlM (addDigit path base) 0 = .ok (amountOf base rest) :=
    (amount_ok positive within (by decide)).mpr ⟨all, rfl, small⟩
  unfold parseIntegerBase
  simp only [dropped, empty, if_neg some_, read]
  by_cases minus : clean.head? = some '-'
  · rw [if_pos minus] at fits
    have less : ¬ 2 ^ 63 < amountOf base rest := by omega
    exact ⟨.int (-amountOf base rest), by simp only [bind, Except.bind, if_pos minus, if_neg less]; rfl⟩
  · by_cases less : amountOf base rest < 2 ^ 63
    · exact ⟨.int (amountOf base rest), by simp only [bind, Except.bind, if_neg minus, if_pos less]; rfl⟩
    · exact ⟨.uint (amountOf base rest), by simp only [bind, Except.bind, if_neg minus, if_neg less]; rfl⟩

end

end Amounts

/-! Signs, digits and letters. -/

section Shapes
variable {text clean rest : Text} {letter c : Char} {base : Nat} {n : Int}

theorem looseBase_some (loose : looseBase letter = some base) :
    (letter = 'x' ∨ letter = 'X') ∧ base = 16 ∨ (letter = 'o' ∨ letter = 'O') ∧ base = 8 ∨
      (letter = 'b' ∨ letter = 'B') ∧ base = 2 := by
  unfold looseBase at loose
  split at loose <;> cases loose <;> simp

theorem looseBase_of_baseOf (named : baseOf letter = some base) : looseBase letter = some base := by
  unfold baseOf at named
  split at named <;> cases named <;> rfl

theorem letter_apart (loose : looseBase letter = some base) :
    isDigit 10 letter = false ∧ letter ≠ '.' ∧ letter ≠ 'e' ∧ letter ≠ 'E' := by
  rcases looseBase_some loose with ⟨rfl | rfl, _⟩ | ⟨rfl | rfl, _⟩ | ⟨rfl | rfl, _⟩ <;> decide

theorem digits_iff : digits text = true ↔ text ≠ [] ∧ text.all (isDigit 10) = true := by
  rw [digits, Bool.and_eq_true, decide_eq_true_iff]

theorem plainDigits_iff : plainDigits text = true ↔
    text ≠ [] ∧ text.all (isDigit 10) = true ∧ (text.length = 1 ∨ text.head? ≠ some '0') := by
  rw [plainDigits, Bool.and_eq_true, digits_iff, Bool.or_eq_true, decide_eq_true_iff, decide_eq_true_iff, and_assoc]

theorem not_mem_of_digits (all : text.all (isDigit 10) = true) (other : isDigit 10 c = false) : c ∉ text := by
  intro listed
  rw [List.all_eq_true.mp all c listed] at other
  cases other

theorem mem_unsigned (plus : c ≠ '+') (minus : c ≠ '-') : c ∈ unsigned text ↔ c ∈ text := by
  unfold unsigned
  by_cases sign : signed text = true
  · rw [if_pos sign]
    cases text with
    | nil => rfl
    | cons head tail =>
      have either : head = '+' ∨ head = '-' := by simpa [signed] using sign
      have other : c ≠ head := by
        rcases either with rfl | rfl
        · exact plus
        · exact minus
      simp [other]
  · rw [if_neg sign]

theorem plainFloat_marked (float : plainFloat text = true) : '.' ∈ text ∨ 'e' ∈ text ∨ 'E' ∈ text := by
  have tail := (Bool.and_eq_true_iff.mp float).2
  have inside : ∀ c, c ∈ text.dropWhile (isDigit 10) → c ∈ text := fun c => (List.dropWhile_suffix _).mem
  generalize text.dropWhile (isDigit 10) = left at tail inside
  cases left with
  | nil => cases tail
  | cons c rest =>
    by_cases point : c = '.'
    · exact .inl (inside _ (point ▸ List.mem_cons_self))
    · have marked : exponent (c :: rest) = true := by
        unfold floatTail at tail
        split at tail
        · rename_i same
          exact absurd (List.cons.inj same).1 point
        · exact tail
      have letter := (Bool.and_eq_true_iff.mp marked).1
      rcases (Bool.or_eq_true_iff.mp letter) with small | capital
      · exact .inr (.inl (inside _ (of_decide_eq_true small ▸ List.mem_cons_self)))
      · exact .inr (.inr (inside _ (of_decide_eq_true capital ▸ List.mem_cons_self)))

theorem plainFloat_head (float : plainFloat text = true) : ∃ c rest, text = c :: rest ∧ isDigit 10 c = true := by
  have whole := (plainDigits_iff.mp (Bool.and_eq_true_iff.mp float).1).1
  cases text with
  | nil => exact absurd rfl whole
  | cons c rest =>
    refine ⟨c, rest, rfl, ?_⟩
    by_contra other
    rw [List.takeWhile_cons, if_neg other] at whole
    exact whole rfl

theorem plainDigits_head (plain : plainDigits text = true) : ∃ c rest, text = c :: rest ∧ isDigit 10 c = true := by
  have ⟨some_, all, _⟩ := plainDigits_iff.mp plain
  cases text with
  | nil => exact absurd rfl some_
  | cons c rest => exact ⟨c, rest, rfl, List.all_eq_true.mp all c List.mem_cons_self⟩

theorem prefixed_apart (loose : looseBase letter = some base) :
    plainDigits ('0' :: letter :: rest) = false ∧ plainFloat ('0' :: letter :: rest) = false := by
  have ⟨noDigit, noPoint, noSmall, noCapital⟩ := letter_apart loose
  constructor
  · rw [plainDigits, digits, List.all_cons, List.all_cons, noDigit, Bool.false_and, Bool.and_false, Bool.and_false,
      Bool.false_and]
  · have tail : floatTail (letter :: rest) = false := by
      unfold floatTail
      split
      · rename_i same
        exact absurd (List.cons.inj same).1 noPoint
      · rw [exponent, decide_eq_false noSmall, decide_eq_false noCapital, Bool.or_false, Bool.false_and]
    have left : ('0' :: letter :: rest).dropWhile (isDigit 10) = letter :: rest := by
      rw [List.dropWhile_cons_of_pos (by decide), List.dropWhile_cons_of_neg (by rw [noDigit]; exact Bool.false_ne_true)]
    rw [plainFloat, left, tail, Bool.and_false]

theorem plainDigits_unmarked (plain : plainDigits rest = true) : ¬ ('.' ∈ rest ∨ 'e' ∈ rest ∨ 'E' ∈ rest) := by
  have all := (plainDigits_iff.mp plain).2.1
  rintro (point | small | capital)
  · exact not_mem_of_digits all (by decide) point
  · exact not_mem_of_digits all (by decide) small
  · exact not_mem_of_digits all (by decide) capital

theorem withoutMinus_eq (noPlus : clean.head? ≠ some '+') : withoutMinus clean = unsigned clean := by
  unfold withoutMinus unsigned signed
  by_cases minus : clean.head? = some '-'
  · simp [minus]
  · simp [minus, noPlus]

theorem marked_unsigned : ('.' ∈ unsigned clean ∨ 'e' ∈ unsigned clean ∨ 'E' ∈ unsigned clean) ↔
    ('.' ∈ clean ∨ 'e' ∈ clean ∨ 'E' ∈ clean) := by
  rw [mem_unsigned (by decide) (by decide), mem_unsigned (by decide) (by decide), mem_unsigned (by decide) (by decide)]

theorem withoutMinus_plus (plus : clean.head? = some '+') : withoutMinus clean = clean := by
  rw [withoutMinus, plus]
  rfl

theorem head_not_plus (plain : ∃ c rest, clean = c :: rest ∧ isDigit 10 c = true) : clean.head? ≠ some '+' := by
  have ⟨c, rest, same, digit⟩ := plain
  rw [same]
  rintro ⟨⟩
  cases digit

theorem jsonInteger_some (is : jsonInteger clean = some n) :
    clean.head? ≠ some '+' ∧ plainDigits (unsigned clean) = true ∧ n = negated clean (amountOf 10 (unsigned clean)) := by
  unfold jsonInteger at is
  by_cases plain : plainDigits (withoutMinus clean) = true
  · have noPlus : clean.head? ≠ some '+' := by
      intro plus
      rw [withoutMinus_plus plus] at plain
      exact head_not_plus (plainDigits_head plain) plus
    rw [if_pos plain, withoutMinus_eq noPlus] at is
    rw [withoutMinus_eq noPlus] at plain
    exact ⟨noPlus, plain, (Option.some.inj is).symm⟩
  · rw [if_neg plain] at is
    cases is

theorem jsonInteger_unmarked (is : jsonInteger clean = some n) : ¬ ('.' ∈ clean ∨ 'e' ∈ clean ∨ 'E' ∈ clean) := by
  rw [← marked_unsigned]
  exact plainDigits_unmarked (jsonInteger_some is).2.1

theorem jsonFloat_iff : jsonFloat clean = true ↔ tomlFloat clean = true ∧ clean.head? ≠ some '+' := by
  unfold jsonFloat tomlFloat
  by_cases plus : clean.head? = some '+'
  · rw [withoutMinus_plus plus]
    constructor
    · intro float
      exact absurd plus (head_not_plus (plainFloat_head float))
    · rintro ⟨_, noPlus⟩
      exact absurd plus noPlus
  · rw [withoutMinus_eq plus]
    exact ⟨fun float => ⟨float, plus⟩, fun both => both.1⟩

end Shapes

/-! A parser of JSON numbers. -/

/-- The value of a float. -/
def floatValue (text : Text) : Rat :=
  let body := withoutMinus text
  let rest := body.dropWhile (isDigit 10)
  let fraction := if rest.head? = some '.' then rest.tail.takeWhile (isDigit 10) else []
  let after := if rest.head? = some '.' then rest.tail.dropWhile (isDigit 10) else rest
  let places : Int := negated after.tail (amountOf 10 (unsigned after.tail)) - fraction.length
  let amount : Rat := amountOf 10 (body.takeWhile (isDigit 10) ++ fraction)
  let scaled := if 0 ≤ places then amount * 10 ^ places.toNat else amount / 10 ^ (-places).toNat
  if text.head? = some '-' then -scaled else scaled

instance (n : Int) : Decidable (Representable n) := inferInstanceAs (Decidable (_ ∧ _))

def exactParse (text : String) : Option Json :=
  match jsonInteger text.toList with
  | some n =>
    if Representable n then some (if n < 9223372036854775808 then .int n else .uint n.toNat) else none
  | none => if jsonFloat text.toList = true then some (.float (floatValue text.toList)) else none

theorem exactParse_exact : ExactNumbers exactParse where
  integer := by
    intro text n is fits
    unfold exactParse
    rw [String.toList_ofList, is]
    simp only [if_pos fits]
    by_cases small : n < 9223372036854775808
    · exact ⟨_, rfl, by rw [if_pos small]; rfl, by rw [if_pos small]; rfl⟩
    · refine ⟨_, rfl, by rw [if_neg small]; rfl, ?_⟩
      rw [if_neg small]
      show ((n.toNat : Nat) : Rat) = n
      rw [← Rat.intCast_natCast, Int.toNat_of_nonneg (by omega)]
  float := by
    intro text float
    unfold exactParse
    rw [String.toList_ofList]
    cases is : jsonInteger text with
    | some n => exact absurd (jsonInteger_unmarked is) (not_not.mpr (by
        have marked := plainFloat_marked (jsonFloat_iff.mp float).1
        exact marked_unsigned.mp marked))
    | none => exact ⟨_, by rw [if_pos float]⟩
  integers := by
    intro text value _ read integer
    unfold exactParse at read
    rw [String.toList_ofList] at read
    cases is : jsonInteger text with
    | none =>
      rw [is] at read
      by_cases float : jsonFloat text = true
      · rw [if_pos float] at read
        cases read
        cases integer
      · rw [if_neg float] at read
        cases read
    | some n =>
      rw [is] at read
      by_cases fits : Representable n
      · simp only [if_pos fits] at read
        cases read
        refine ⟨n, rfl, fits, ?_⟩
        by_cases small : n < 9223372036854775808
        · rw [if_pos small]
          rfl
        · rw [if_neg small]
          show ((n.toNat : Nat) : Rat) = n
          rw [← Rat.intCast_natCast, Int.toNat_of_nonneg (by omega)]
      · simp only [if_neg fits] at read
        cases read
  floats := by
    intro text q _ read
    unfold exactParse at read
    rw [String.toList_ofList] at read
    cases is : jsonInteger text with
    | some n => exact .inr rfl
    | none =>
      rw [is] at read
      by_cases float : jsonFloat text = true
      · exact .inl float
      · rw [if_neg float] at read
        cases read

end Fala.Toml
