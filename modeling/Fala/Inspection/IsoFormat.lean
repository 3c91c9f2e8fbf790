import Fala.Driver.Timestamps

/-! `datetime.fromisoformat`, and what it reads of a timestamp in UTC. -/

namespace Fala.Inspection
open Calendar Columns Driver

/-- As many digits as are asked for, after a number that was read before them. -/
def parseDigits : Nat → Nat → List Char → Option (Nat × List Char)
  | 0, n, rest => some (n, rest)
  | width + 1, n, c :: rest => if c.isDigit then parseDigits width (n * 10 + (c.toNat - 48)) rest else none
  | _ + 1, _, [] => none

/-- `_find_isoformat_datetime_separator` -/
def separatorAt (text : List Char) : Option Nat :=
  if text.length = 7 then some 7
  else if text[4]? = some '-' then
    if text[5]? = some 'W' then
      if text[8]? = some '-' then
        if text.length = 9 then none
        else if text[10]?.any Char.isDigit then some 8
        else some 10
      else some 8
    else some 10
  else if text[4]? = some 'W' then
    let last := 7 + ((text.drop 7).takeWhile Char.isDigit).length
    if last < 9 then some last
    else if last % 2 = 0 then some 7
    else some 8
  else some 8

/-- The separator that the first part of a text had comes again. -/
def parseMark (mark : Char) (marked : Bool) : List Char → Option (List Char)
  | c :: rest => if marked then (if c = mark then some rest else none) else some (c :: rest)
  | [] => if marked then none else some []

def lastDay : Nat := 3652059

/-- The rest of `YYYY-MM-DD`. -/
def parseMonth (year : Nat) (dashed : Bool) (text : List Char) : Option Nat := do
  let (month, rest) ← parseDigits 2 0 text
  let (day, rest) ← parseDigits 2 0 (← parseMark '-' dashed rest)
  if rest = [] ∧ 1 ≤ year ∧ (1 ≤ month ∧ month ≤ 12) ∧ 1 ≤ day ∧ day ≤ daysInMonth year month then
    some (ordinal year month day)
  else none

/-- The day of a week: its Monday where none is given. -/
def parseWeekday (dashed : Bool) : List Char → Option Nat
  | [] => some 1
  | text => do
    let (day, rest) ← parseDigits 1 0 (← parseMark '-' dashed text)
    if rest = [] then some day else none

/-- The rest of `YYYY-Www-D`. -/
def parseWeek (year : Nat) (dashed : Bool) (text : List Char) : Option Nat := do
  let (week, rest) ← parseDigits 2 0 text
  let day ← parseWeekday dashed rest
  if 1 ≤ year ∧ (1 ≤ week ∧ week ≤ weeksInYear year) ∧ (1 ≤ day ∧ day ≤ 7) ∧ weekOrdinal year week day ≤ lastDay then
    some (weekOrdinal year week day)
  else none

/-- What follows the year and its dash. -/
def parseInYear (year : Nat) (dashed : Bool) : List Char → Option Nat
  | 'W' :: rest => parseWeek year dashed rest
  | rest => parseMonth year dashed rest

/-- `_parse_isoformat_date`: the number of the day, counted from the first one of the year 1. -/
def parseDate (text : List Char) : Option Nat := do
  let (year, rest) ← parseDigits 4 0 text
  let dashed := rest.head? = some '-'
  parseInYear year dashed (if dashed then rest.tail else rest)

structure Clock where
  hour : Nat
  minute : Nat
  second : Nat
  micro : Nat
  deriving DecidableEq

def Clock.micros (c : Clock) : Nat := (c.hour * 3600 + c.minute * 60 + c.second) * 1000000 + c.micro

/-- The digits of a fraction; those after the sixth one are not read. -/
def parseFraction (text : List Char) : Option Nat :=
  if text ≠ [] ∧ text.all Char.isDigit then
    let read := text.take 6
    (parseDigits read.length 0 read).map fun (n, _) => n * 10 ^ (6 - read.length)
  else none

/-- What follows the seconds. -/
def parseMicro : List Char → Option Nat
  | [] => some 0
  | point :: rest => if point = '.' ∨ point = ',' then parseFraction rest else none

def parseSeconds (hour minute : Nat) (colons : Bool) : List Char → Option Clock
  | [] => some ⟨hour, minute, 0, 0⟩
  | text => do
    let (second, rest) ← parseDigits 2 0 (← parseMark ':' colons text)
    return ⟨hour, minute, second, ← parseMicro rest⟩

def parseMinutes (hour : Nat) : List Char → Option Clock
  | [] => some ⟨hour, 0, 0, 0⟩
  | text => do
    let colons := text.head? = some ':'
    let (minute, rest) ← parseDigits 2 0 (if colons then text.tail else text)
    parseSeconds hour minute colons rest

/-- `_parse_hh_mm_ss_ff` -/
def parseClock (text : List Char) : Option Clock := do
  let (hour, rest) ← parseDigits 2 0 text
  parseMinutes hour rest

def dayMicros : Nat := 86400 * 1000000

/-- What follows the time of day: nothing, `Z`, or an offset of less than a day. -/
def parseZone : List Char → Option (Option Int)
  | [] => some none
  | ['Z'] => some (some 0)
  | 'Z' :: _ => none
  | sign :: rest => do
    let offset ← parseClock rest
    if offset.micros < dayMicros then some (some (if sign = '-' then -offset.micros else offset.micros)) else none

def beforeZone (c : Char) : Bool := c ≠ '+' ∧ c ≠ '-' ∧ c ≠ 'Z'

/-- `_parse_isoformat_time`: the time of the day, and the offset. -/
def parseTime (text : List Char) : Option (Nat × Option Int) := do
  let clock ← parseClock (text.takeWhile beforeZone)
  let offset ← parseZone (text.dropWhile beforeZone)
  if clock.hour < 24 ∧ clock.minute < 60 ∧ clock.second < 60 then some (clock.micros, offset) else none

/-- `datetime.fromisoformat`: the time that the text writes in microseconds from the day before the first one of the
    year 1, and the offset that it gives. -/
def fromisoformat (text : List Char) : Option (Int × Option Int) :=
  if text.length < 7 then none
  else do
    let found ← separatorAt text
    let day ← parseDate (text.take found)
    match text.drop (found + 1) with
    | [] => some (day * dayMicros, none)
    | time => do
      let (clock, offset) ← parseTime time
      return (day * dayMicros + clock, offset)

/-- `str.isspace` -/
def isSpace (c : Char) : Bool :=
  (9 ≤ c.toNat ∧ c.toNat ≤ 13) ∨ (28 ≤ c.toNat ∧ c.toNat ≤ 32) ∨ c.toNat = 0x85 ∨ c.toNat = 0xa0 ∨ c.toNat = 0x1680 ∨
    (0x2000 ≤ c.toNat ∧ c.toNat ≤ 0x200a) ∨ c.toNat = 0x2028 ∨ c.toNat = 0x2029 ∨ c.toNat = 0x202f ∨
      c.toNat = 0x205f ∨ c.toNat = 0x3000

/-- `str.strip` -/
def strip (text : List Char) : List Char := ((text.dropWhile isSpace).reverse.dropWhile isSpace).reverse

/-- `text[:-1] + "+00:00"` for a text that ends with the letter of UTC. -/
def offsetSpelled (text : List Char) : List Char :=
  if text.getLast? = some 'Z' ∨ text.getLast? = some 'z' then text.dropLast ++ ['+', '0', '0', ':', '0', '0'] else text

/-- `astimezone(timezone.utc)`, within the years of `datetime`. -/
def inUtc : Int × Option Int → Option Int
  | (_, none) => none
  | (written, some offset) =>
    let instant := written - offset
    if dayMicros ≤ instant ∧ instant < (lastDay + 1) * dayMicros then some instant else none

/-- `_utc` of a text: the instant in microseconds, or `none` for an error. -/
def utcOfText (text : String) : Option Int :=
  let stripped := strip text.toList
  if stripped = [] then none
  else (fromisoformat (offsetSpelled stripped)).bind inUtc

/-! Digits in a column of fixed width are read back. -/

theorem digitChar_read {a : Nat} (digit : a < 10) :
    (Nat.digitChar a).isDigit = true ∧ (Nat.digitChar a).toNat - 48 = a := by
  have all : ∀ a < 10, (Nat.digitChar a).isDigit = true ∧ (Nat.digitChar a).toNat - 48 = a := by decide
  exact all a digit

theorem isDigit_digits {width n : Nat} (fits : n < 10 ^ width) : ∀ c ∈ digits width n, c.isDigit = true := by
  induction width generalizing n with
  | zero => simp [digits]
  | succ width ih =>
    intro c member
    rw [digits, List.mem_cons] at member
    rcases member with rfl | member
    · exact (digitChar_read (first_digit_lt fits)).1
    · exact ih (Nat.mod_lt n (Nat.pow_pos (by decide))) c member

theorem parseDigits_digits {width n : Nat} (fits : n < 10 ^ width) (before : Nat) (rest : List Char) :
    parseDigits width before (digits width n ++ rest) = some (before * 10 ^ width + n, rest) := by
  induction width generalizing n before with
  | zero =>
    have zero : n = 0 := by simpa using fits
    simp [parseDigits, digits, zero]
  | succ width ih =>
    have digit := digitChar_read (first_digit_lt fits)
    have split := Nat.div_add_mod n (10 ^ width)
    have value : (before * 10 + n / 10 ^ width) * 10 ^ width + n % 10 ^ width = before * 10 ^ (width + 1) + n := by
      rw [Nat.add_mul, Nat.pow_succ, Nat.mul_assoc, Nat.mul_comm 10, Nat.mul_comm (n / 10 ^ width)]
      omega
    rw [digits, List.cons_append, parseDigits, if_pos digit.1, digit.2, ih (Nat.mod_lt n (Nat.pow_pos (by decide))), value]

theorem digits_two {n : Nat} (fits : n < 10 ^ 2) :
    ∃ a b, digits 2 n = [a, b] ∧ a.isDigit = true ∧ b.isDigit = true := by
  have written : digits 2 n = [Nat.digitChar (n / 10 ^ 1), Nat.digitChar (n % 10 ^ 1 / 10 ^ 0)] := rfl
  have all := isDigit_digits fits
  rw [written] at all
  exact ⟨_, _, written, all _ (.head _), all _ (.tail _ (.head _))⟩

theorem digits_one {n : Nat} (fits : n < 10 ^ 1) : ∃ a, digits 1 n = [a] ∧ a.isDigit = true := by
  have written : digits 1 n = [Nat.digitChar (n / 10 ^ 0)] := rfl
  have all := isDigit_digits fits
  rw [written] at all
  exact ⟨_, written, all _ (.head _)⟩

theorem digits_four {n : Nat} (fits : n < 10 ^ 4) :
    ∃ a b c d, digits 4 n = [a, b, c, d] ∧ a.isDigit = true := by
  have written : digits 4 n = [Nat.digitChar (n / 10 ^ 3), Nat.digitChar (n % 10 ^ 3 / 10 ^ 2),
    Nat.digitChar (n % 10 ^ 3 % 10 ^ 2 / 10 ^ 1), Nat.digitChar (n % 10 ^ 3 % 10 ^ 2 % 10 ^ 1 / 10 ^ 0)] := rfl
  have all := isDigit_digits fits
  rw [written] at all
  exact ⟨_, _, _, _, written, all _ (.head _)⟩

theorem isDigit_marks {c : Char} (digit : c.isDigit = true) :
    c ≠ '-' ∧ c ≠ 'W' ∧ c ≠ ':' ∧ c ≠ '.' ∧ c ≠ ',' ∧ beforeZone c = true ∧ isSpace c = false := by
  have apart : ∀ m : Char, m.isDigit = false → c ≠ m := by
    intro m letter same
    rw [same, letter] at digit
    cases digit
  have space : isSpace c = false := by
    have bounds : 48 ≤ c.toNat ∧ c.toNat ≤ 57 := by
      rw [Char.isDigit, Bool.and_eq_true, decide_eq_true_iff, decide_eq_true_iff] at digit
      exact ⟨UInt32.le_iff_toNat_le.mp digit.1, UInt32.le_iff_toNat_le.mp digit.2⟩
    apply decide_eq_false
    omega
  refine ⟨apart _ rfl, apart _ rfl, apart _ rfl, apart _ rfl, apart _ rfl, ?_, space⟩
  exact decide_eq_true ⟨apart _ rfl, apart _ rfl, apart _ rfl⟩

end Fala.Inspection
