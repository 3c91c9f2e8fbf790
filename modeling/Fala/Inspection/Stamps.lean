import Fala.Inspection.IsoFormat

/-! A timestamp in UTC is read as the instant that it spells. -/

namespace Fala.Inspection
open Calendar Columns Driver

theorem parseMark_read (mark : Char) (marked : Bool) (rest : List Char) :
    parseMark mark marked ((if marked then [mark] else []) ++ rest) = some rest := by
  cases marked with
  | true => simp [parseMark]
  | false => cases rest <;> simp [parseMark]

/-! The time of the day. -/

def fractionWritten (layout : Option FractionLayout) (fraction : Nat) : List Char :=
  match layout with
  | some f => f.point :: digits (f.more + 1) fraction
  | none => []

def fractionDigits (layout : Option FractionLayout) : Nat := (layout.map (·.more + 1)).getD 0

/-- What a timestamp writes after the separator. -/
def timeWritten (hour minute second fraction : Nat) : ClockLayout → List Char
  | .none => []
  | .hours _ => digits 2 hour
  | .minutes _ colons => digits 2 hour ++ (colon colons ++ digits 2 minute)
  | .seconds _ colons layout =>
    digits 2 hour ++ (colon colons ++ (digits 2 minute ++ (colon colons ++ (digits 2 second ++
      fractionWritten layout fraction))))

theorem parseFraction_digits {width n : Nat} (fits : n < 10 ^ (width + 1)) (short : width + 1 ≤ 6) :
    parseFraction (digits (width + 1) n) = some (n * 10 ^ (6 - (width + 1))) := by
  have length := length_digits (width + 1) n
  have some_ : digits (width + 1) n ≠ [] := by
    intro none_
    rw [none_] at length
    cases length
  have all : (digits (width + 1) n).all Char.isDigit = true := List.all_eq_true.mpr (isDigit_digits fits)
  have whole : (digits (width + 1) n).take 6 = digits (width + 1) n := List.take_of_length_le (by omega)
  have read := parseDigits_digits fits 0 []
  rw [List.append_nil] at read
  rw [parseFraction, if_pos ⟨some_, all⟩]
  simp only [whole, length, read, Option.map_some]
  simp

theorem parseMicro_written {layout : Option FractionLayout} {fraction : Nat}
    (fits : fraction < 10 ^ fractionDigits layout) (short : fractionDigits layout ≤ 6) :
    parseMicro (fractionWritten layout fraction) = some (fraction * 10 ^ (6 - fractionDigits layout)) := by
  cases layout with
  | none =>
    have zero : fraction = 0 := by simpa [fractionDigits] using fits
    simp [fractionWritten, parseMicro, zero]
  | some f =>
    have point : f.point = '.' ∨ f.point = ',' := by
      rw [FractionLayout.point]
      split <;> simp
    rw [fractionWritten, parseMicro, if_pos point]
    exact parseFraction_digits fits short

theorem parseSeconds_written (hour minute : Nat) (colons : Bool) {layout : Option FractionLayout} {second fraction : Nat}
    (fits : second < 10 ^ 2) (fraction_fits : fraction < 10 ^ fractionDigits layout) (short : fractionDigits layout ≤ 6) :
    parseSeconds hour minute colons (colon colons ++ (digits 2 second ++ fractionWritten layout fraction)) =
      some ⟨hour, minute, second, fraction * 10 ^ (6 - fractionDigits layout)⟩ := by
  obtain ⟨a, b, written, -⟩ := digits_two fits
  have mark := parseMark_read ':' colons (digits 2 second ++ fractionWritten layout fraction)
  have nonempty : colon colons ++ (digits 2 second ++ fractionWritten layout fraction) ≠ [] := by
    rw [written]
    simp
  rw [parseSeconds.eq_def]
  generalize text : colon colons ++ (digits 2 second ++ fractionWritten layout fraction) = all at nonempty ⊢
  cases all with
  | nil => exact absurd rfl nonempty
  | cons head tail =>
    have mark : parseMark ':' colons (head :: tail) = some (digits 2 second ++ fractionWritten layout fraction) := by
      rw [← text]
      exact mark
    simp [mark, parseDigits_digits fits, parseMicro_written fraction_fits short]

theorem parseMinutes_written (hour : Nat) (colons : Bool) {minute : Nat} (fits : minute < 10 ^ 2) (rest : List Char) :
    parseMinutes hour (colon colons ++ (digits 2 minute ++ rest)) = parseSeconds hour minute colons rest := by
  obtain ⟨a, b, written, digit, -⟩ := digits_two fits
  have read := parseDigits_digits fits 0 rest
  rw [written] at read ⊢
  cases colons with
  | true =>
    show parseMinutes hour (':' :: a :: b :: rest) = _
    simpa [parseMinutes] using congrArg (Option.bind · fun p => parseSeconds hour p.1 true p.2) read
  | false =>
    have letter : a ≠ ':' := (isDigit_marks digit).2.2.1
    show parseMinutes hour (a :: b :: rest) = _
    simpa [parseMinutes, letter] using congrArg (Option.bind · fun p => parseSeconds hour p.1 false p.2) read

theorem parseClock_written {layout : ClockLayout} {hour minute second fraction : Nat}
    (timed : layout ≠ .none) (fits : Fits layout.columns [hour, minute, second])
    (fraction_fits : fraction < 10 ^ fractionDigits layout.fraction) (short : fractionDigits layout.fraction ≤ 6) :
    parseClock (timeWritten hour minute second fraction layout) =
      some ⟨hour, minute, second, fraction * 10 ^ (6 - fractionDigits layout.fraction)⟩ := by
  cases layout with
  | none => exact absurd rfl timed
  | hours separator =>
    obtain ⟨hour_fits, minute_fits, second_fits⟩ : hour < 10 ^ 2 ∧ minute < 10 ^ 0 ∧ second < 10 ^ 0 := by
      simpa [ClockLayout.columns, Fits, unwritten] using fits
    have zero : minute = 0 ∧ second = 0 ∧ fraction = 0 := by
      have none_ : fraction < 10 ^ 0 := fraction_fits
      omega
    obtain ⟨rfl, rfl, rfl⟩ := zero
    have read := parseDigits_digits hour_fits 0 []
    rw [List.append_nil] at read
    simp [timeWritten, parseClock, read, parseMinutes]
  | minutes separator colons =>
    obtain ⟨hour_fits, minute_fits, second_fits⟩ : hour < 10 ^ 2 ∧ minute < 10 ^ 2 ∧ second < 10 ^ 0 := by
      simpa [ClockLayout.columns, Fits, unwritten] using fits
    have zero : second = 0 ∧ fraction = 0 := by
      have none_ : fraction < 10 ^ 0 := fraction_fits
      omega
    obtain ⟨rfl, rfl⟩ := zero
    have rest := parseMinutes_written hour colons minute_fits []
    rw [List.append_nil] at rest
    simp [timeWritten, parseClock, parseDigits_digits hour_fits, rest, parseSeconds]
  | seconds separator colons layout =>
    obtain ⟨hour_fits, minute_fits, second_fits⟩ : hour < 10 ^ 2 ∧ minute < 10 ^ 2 ∧ second < 10 ^ 2 := by
      simpa [ClockLayout.columns, Fits, unwritten] using fits
    have rest := parseSeconds_written hour minute colons second_fits fraction_fits short
    simp only [timeWritten, parseClock, parseDigits_digits hour_fits, parseMinutes_written hour colons minute_fits,
      Option.bind_eq_bind, Option.bind_some, Nat.zero_mul, Nat.zero_add]
    exact rest

theorem beforeZone_written {layout : ClockLayout} {hour minute second fraction : Nat}
    (fits : Fits layout.columns [hour, minute, second]) (fraction_fits : fraction < 10 ^ fractionDigits layout.fraction) :
    ∀ c ∈ timeWritten hour minute second fraction layout, beforeZone c = true := by
  have number : ∀ {width n : Nat}, n < 10 ^ width → ∀ c ∈ digits width n, beforeZone c = true := by
    intro width n fits c member
    exact (isDigit_marks (isDigit_digits fits c member)).2.2.2.2.2.1
  have mark : ∀ colons, ∀ c ∈ colon colons, beforeZone c = true := by
    intro colons c member
    cases colons with
    | true =>
      obtain rfl := List.mem_singleton.mp member
      decide
    | false => cases member
  cases layout with
  | none =>
    intro c member
    cases member
  | hours separator =>
    have fits : hour < 10 ^ 2 ∧ minute < 10 ^ 0 ∧ second < 10 ^ 0 := by
      simpa [ClockLayout.columns, Fits, unwritten] using fits
    exact number fits.1
  | minutes separator colons =>
    have fits : hour < 10 ^ 2 ∧ minute < 10 ^ 2 ∧ second < 10 ^ 0 := by
      simpa [ClockLayout.columns, Fits, unwritten] using fits
    simp only [timeWritten, List.forall_mem_append]
    exact ⟨number fits.1, mark colons, number fits.2.1⟩
  | seconds separator colons layout =>
    have fits : hour < 10 ^ 2 ∧ minute < 10 ^ 2 ∧ second < 10 ^ 2 := by
      simpa [ClockLayout.columns, Fits, unwritten] using fits
    have tail : ∀ c ∈ fractionWritten layout fraction, beforeZone c = true := by
      cases layout with
      | none =>
        intro c member
        cases member
      | some f =>
        rw [fractionWritten, List.forall_mem_cons]
        refine ⟨?_, number fraction_fits⟩
        rw [FractionLayout.point]
        split <;> decide
    simp only [timeWritten, List.forall_mem_append]
    exact ⟨number fits.1, mark colons, number fits.2.1, mark colons, number fits.2.2, tail⟩

/-- `+00:00` -/
def utcOffset : List Char := ['+', '0', '0', ':', '0', '0']

theorem parseTime_written {layout : ClockLayout} {hour minute second fraction : Nat}
    (timed : layout ≠ .none) (fits : Fits layout.columns [hour, minute, second])
    (fraction_fits : fraction < 10 ^ fractionDigits layout.fraction) (short : fractionDigits layout.fraction ≤ 6)
    (clock : hour < 24 ∧ minute < 60 ∧ second < 60) :
    parseTime (timeWritten hour minute second fraction layout ++ utcOffset) =
      some ((hour * 3600 + minute * 60 + second) * 1000000 + fraction * 10 ^ (6 - fractionDigits layout.fraction),
        some 0) := by
  have before := beforeZone_written fits fraction_fits
  have first : (timeWritten hour minute second fraction layout ++ utcOffset).takeWhile beforeZone =
      timeWritten hour minute second fraction layout := by
    rw [List.takeWhile_append_of_pos before, show utcOffset.takeWhile beforeZone = [] from rfl, List.append_nil]
  have last : (timeWritten hour minute second fraction layout ++ utcOffset).dropWhile beforeZone = utcOffset := by
    rw [List.dropWhile_append_of_pos before]
    rfl
  have zone : parseZone utcOffset = some (some 0) := by decide
  rw [parseTime, first, last, parseClock_written timed fits fraction_fits short, zone]
  simp only [Option.bind_eq_bind, Option.bind_some]
  rw [if_pos clock]
  rfl

/-! The date. -/

/-- What a timestamp writes before the separator. -/
def dateWritten (year major minor : Nat) : DateLayout → List Char
  | .calendar dashed => digits 4 year ++ (dash dashed ++ (digits 2 major ++ (dash dashed ++ digits 2 minor)))
  | .week dashed weekday =>
    digits 4 year ++ (dash dashed ++ ('W' :: (digits 2 major ++ if weekday then dash dashed ++ digits 1 minor else [])))

theorem parseDate_year {year : Nat} (fits : year < 10 ^ 4) (dashed : Bool) {c : Char} (rest : List Char)
    (letter : c ≠ '-') :
    parseDate (digits 4 year ++ (dash dashed ++ c :: rest)) = parseInYear year dashed (c :: rest) := by
  rw [parseDate, parseDigits_digits fits]
  cases dashed with
  | true => simp [dash]
  | false => simp [dash, letter]

theorem parseMonth_written {year month day : Nat} (dashed : Bool) (date : Date year month day) :
    parseMonth year dashed (digits 2 month ++ (dash dashed ++ digits 2 day)) = some (ordinal year month day) := by
  have days : daysInMonth year month ≤ 31 := by
    rw [daysInMonth]
    split
    · split <;> omega
    · split <;> omega
  have month_fits : month < 10 ^ 2 := by have := date.months; omega
  have day_fits : day < 10 ^ 2 := by have := date.days; omega
  have mark := parseMark_read '-' dashed (digits 2 day)
  have last := parseDigits_digits day_fits 0 []
  rw [List.append_nil] at last
  rw [parseMonth, parseDigits_digits month_fits]
  simp only [Option.bind_eq_bind, Option.bind_some, dash]
  rw [mark]
  simp only [Option.bind_some, last]
  rw [if_pos]
  · simp
  · simp [date.years, date.months, date.days]

theorem weeksInYear_le (year : Nat) : weeksInYear year ≤ 53 := by
  rw [weeksInYear]
  split <;> omega

theorem parseWeek_written {year week day : Nat} (dashed weekday : Bool) (date : WeekDate year week day)
    (last : weekOrdinal year week day ≤ lastDay) (monday : weekday = false → day = 1) :
    parseWeek year dashed (digits 2 week ++ if weekday then dash dashed ++ digits 1 day else []) =
      some (weekOrdinal year week day) := by
  have weeks := weeksInYear_le year
  have week_fits : week < 10 ^ 2 := by have := date.weeks; omega
  have day_fits : day < 10 ^ 1 := by have := date.days; omega
  have given : parseWeekday dashed (if weekday then dash dashed ++ digits 1 day else []) = some day := by
    cases weekday with
    | false => simp [parseWeekday, monday rfl]
    | true =>
      obtain ⟨a, written, -⟩ := digits_one day_fits
      have mark := parseMark_read '-' dashed (digits 1 day)
      have read := parseDigits_digits day_fits 0 []
      rw [List.append_nil] at read
      rw [if_pos rfl, parseWeekday.eq_def]
      have nonempty : dash dashed ++ digits 1 day ≠ [] := by
        rw [written]
        simp
      generalize text : dash dashed ++ digits 1 day = all at nonempty ⊢
      cases all with
      | nil => exact absurd rfl nonempty
      | cons head tail =>
        have mark : parseMark '-' dashed (head :: tail) = some (digits 1 day) := by
          rw [← text]
          exact mark
        simp [mark, read]
  rw [parseWeek, parseDigits_digits week_fits]
  simp only [Option.bind_eq_bind, Option.bind_some, given]
  rw [if_pos]
  · simp
  · simpa [date.years, date.weeks, date.days] using last

theorem parseDate_written {layout : DateLayout} {year major minor : Nat} (date : layout.Valid year major minor) :
    parseDate (dateWritten year major minor layout) = some (layout.day year major minor) := by
  have year_fits : year < 10 ^ 4 := by have := date.1; omega
  cases layout with
  | calendar dashed =>
    have valid : Date year major minor := date.2
    obtain ⟨a, b, written, digit, -⟩ := digits_two (n := major) (by have := valid.months; omega)
    have marks := isDigit_marks digit
    have month := parseMonth_written dashed valid
    rw [dateWritten, written, List.cons_append, parseDate_year year_fits dashed _ marks.1]
    rw [written] at month
    rw [parseInYear]
    · exact month
    · intro rest same
      exact absurd (List.cons.inj same).1 marks.2.1
  | week dashed weekday =>
    rw [dateWritten, parseDate_year year_fits dashed _ (by decide)]
    exact parseWeek_written dashed weekday date.2.1 date.2.2.1 date.2.2.2

/-! Where the date ends. -/

theorem even_digits {layout : ClockLayout} {hour minute second fraction : Nat}
    (timed : layout ≠ .none) (fits : Fits layout.columns [hour, minute, second]) :
    ∃ pairs, ((timeWritten hour minute second fraction layout ++ utcOffset).takeWhile Char.isDigit).length =
      2 * pairs + 2 := by
  have run : ∀ {n : Nat}, n < 10 ^ 2 → ∀ rest : List Char,
      ((digits 2 n ++ rest).takeWhile Char.isDigit).length = 2 + (rest.takeWhile Char.isDigit).length := by
    intro n fits rest
    rw [List.takeWhile_append_of_pos (isDigit_digits fits), List.length_append, length_digits]
  have offset : utcOffset.takeWhile Char.isDigit = [] := rfl
  cases layout with
  | none => exact absurd rfl timed
  | hours separator =>
    have bounds : hour < 10 ^ 2 ∧ minute < 10 ^ 0 ∧ second < 10 ^ 0 := by
      simpa [ClockLayout.columns, Fits, unwritten] using fits
    refine ⟨0, ?_⟩
    rw [timeWritten, run bounds.1, offset]
    rfl
  | minutes separator colons =>
    have bounds : hour < 10 ^ 2 ∧ minute < 10 ^ 2 ∧ second < 10 ^ 0 := by
      simpa [ClockLayout.columns, Fits, unwritten] using fits
    rw [timeWritten, List.append_assoc, run bounds.1, List.append_assoc]
    cases colons with
    | true => exact ⟨0, rfl⟩
    | false =>
      refine ⟨1, ?_⟩
      rw [colon, if_neg (by decide), List.nil_append, run bounds.2.1, offset]
      rfl
  | seconds separator colons layout =>
    have bounds : hour < 10 ^ 2 ∧ minute < 10 ^ 2 ∧ second < 10 ^ 2 := by
      simpa [ClockLayout.columns, Fits, unwritten] using fits
    rw [timeWritten, List.append_assoc, run bounds.1, List.append_assoc]
    cases colons with
    | true => exact ⟨0, rfl⟩
    | false =>
      have tail : (fractionWritten layout fraction ++ utcOffset).takeWhile Char.isDigit = [] := by
        cases layout with
        | none => rfl
        | some f =>
          have mark : f.point.isDigit = false := by
            rw [FractionLayout.point]
            split <;> rfl
          rw [fractionWritten, List.cons_append, List.takeWhile_cons_of_neg (by simp [mark])]
      refine ⟨2, ?_⟩
      rw [colon, if_neg (by decide), List.nil_append, List.append_assoc, run bounds.2.1, List.nil_append, List.append_assoc,
        run bounds.2.2, tail]
      rfl

theorem separatorAt_calendar {year month day : Nat} (dashed : Bool) (year_fits : year ≤ 9999)
    (date : Date year month day) (separator : Char) (rest : List Char) :
    separatorAt (dateWritten year month day (.calendar dashed) ++ separator :: rest) =
      some (dateWritten year month day (.calendar dashed)).length := by
  have days : daysInMonth year month ≤ 31 := by
    rw [daysInMonth]
    split
    · split <;> omega
    · split <;> omega
  obtain ⟨a, b, c, d, years, -⟩ := digits_four (n := year) (by omega)
  obtain ⟨e, f, months, digit, -⟩ := digits_two (n := month) (by have := date.months; omega)
  obtain ⟨g, h, days, -⟩ := digits_two (n := day) (by have := date.days; omega)
  have marks := isDigit_marks digit
  rw [dateWritten, years, months, days]
  cases dashed with
  | true => simp [separatorAt, dash, marks.2.1]
  | false => simp [separatorAt, dash, marks.1, marks.2.1]

theorem separatorAt_week {year week day : Nat} (dashed weekday : Bool) (year_fits : year ≤ 9999)
    (date : WeekDate year week day) {separator x y : Char} {rest : List Char}
    (plain : dashed = true → weekday = true → separator.isDigit = false) (digit : y.isDigit = true)
    (even : ∃ pairs, ((x :: y :: rest).takeWhile Char.isDigit).length = 2 * pairs + 2) :
    separatorAt (dateWritten year week day (.week dashed weekday) ++ separator :: x :: y :: rest) =
      some (dateWritten year week day (.week dashed weekday)).length := by
  have weeks := weeksInYear_le year
  obtain ⟨a, b, c, d, years, -⟩ := digits_four (n := year) (by omega)
  obtain ⟨e, f, numbers, -⟩ := digits_two (n := week) (by have := date.weeks; omega)
  obtain ⟨g, weekdays, digit'⟩ := digits_one (n := day) (by have := date.days; omega)
  obtain ⟨pairs, even⟩ := even
  rw [dateWritten, years, numbers, weekdays]
  cases dashed with
  | true =>
    cases weekday with
    | true => simp [separatorAt, dash, plain rfl rfl]
    | false => simp [separatorAt, dash, digit]
  | false =>
    have scan : ∀ (head : Char) (tail : List Char),
        separatorAt ([a, b, c, d] ++ ([] ++ 'W' :: ([e, f] ++ head :: tail))) =
          if 7 + ((head :: tail).takeWhile Char.isDigit).length < 9 then
            some (7 + ((head :: tail).takeWhile Char.isDigit).length)
          else if (7 + ((head :: tail).takeWhile Char.isDigit).length) % 2 = 0 then some 7
          else some 8 := by
      intro head tail
      simp [separatorAt]
    have ahead : ((separator :: x :: y :: rest).takeWhile Char.isDigit).length =
        if separator.isDigit then 2 * pairs + 3 else 0 := by
      cases letter : separator.isDigit with
      | true => rw [List.takeWhile_cons_of_pos letter, List.length_cons, even, if_pos rfl]
      | false =>
        rw [List.takeWhile_cons_of_neg (by simp [letter])]
        rfl
    cases weekday with
    | true =>
      have found := scan g (separator :: x :: y :: rest)
      rw [List.takeWhile_cons_of_pos digit', List.length_cons, ahead] at found
      refine found.trans ?_
      cases separator.isDigit with
      | true =>
        rw [if_pos rfl, if_neg (by omega), if_neg (by omega)]
        rfl
      | false => rfl
    | false =>
      have found := scan separator (x :: y :: rest)
      rw [ahead] at found
      refine found.trans ?_
      cases separator.isDigit with
      | true =>
        rw [if_pos rfl, if_neg (by omega), if_pos (by omega)]
        rfl
      | false => rfl

/-! The whole timestamp. -/

theorem body_written {s : Stamp} {separator : Char} (timed : s.layout.clock.separator = some separator) :
    s.body = dateWritten s.year s.major s.minor s.layout.date ++
      separator :: timeWritten s.hour s.minute s.second s.fraction s.layout.clock := by
  have nothing : ∀ n, digits 0 n = [] := fun _ => rfl
  rw [Stamp.body, Stamp.numbers, Stamp.fractionText, Layout.columns]
  generalize s.layout.clock = clock at timed ⊢
  cases clock with
  | none => cases timed
  | hours c =>
    obtain rfl := Option.some.inj timed
    cases s.layout.date with
    | calendar dashed =>
      simp [DateLayout.columns, ClockLayout.columns, ClockLayout.fraction, DateLayout.written, render, unwritten, nothing,
        dateWritten, timeWritten]
    | week dashed weekday =>
      cases weekday <;>
        simp [DateLayout.columns, ClockLayout.columns, ClockLayout.fraction, DateLayout.written, render, unwritten, nothing,
          dateWritten, timeWritten]
  | minutes c colons =>
    obtain rfl := Option.some.inj timed
    cases s.layout.date with
    | calendar dashed =>
      simp [DateLayout.columns, ClockLayout.columns, ClockLayout.fraction, DateLayout.written, render, unwritten, nothing,
        dateWritten, timeWritten]
    | week dashed weekday =>
      cases weekday <;>
        simp [DateLayout.columns, ClockLayout.columns, ClockLayout.fraction, DateLayout.written, render, unwritten, nothing,
          dateWritten, timeWritten]
  | seconds c colons layout =>
    obtain rfl := Option.some.inj timed
    cases s.layout.date with
    | calendar dashed =>
      cases layout <;>
        simp [DateLayout.columns, ClockLayout.columns, ClockLayout.fraction, DateLayout.written, render, dateWritten,
          timeWritten, fractionWritten]
    | week dashed weekday =>
      cases weekday <;>
        simp [DateLayout.columns, ClockLayout.columns, ClockLayout.fraction, DateLayout.written, render, unwritten, nothing,
          dateWritten, timeWritten, fractionWritten] <;>
        cases layout <;> rfl

/-- The instant in microseconds, for a fraction of at most six digits. -/
def micros (s : Stamp) : Nat := s.seconds * 1000000 + s.fraction * 10 ^ (6 - s.layout.digits)

theorem separatorAt_written {s : Stamp} {separator : Char} (timed : s.layout.clock.separator = some separator) :
    separatorAt (s.body ++ utcOffset) = some (dateWritten s.year s.major s.minor s.layout.date).length := by
  have clocked : s.layout.clock ≠ .none := by
    intro none_
    rw [none_] at timed
    cases timed
  have even := @even_digits s.layout.clock s.hour s.minute s.second s.fraction clocked s.written
  have hours : ∃ rest, timeWritten s.hour s.minute s.second s.fraction s.layout.clock = digits 2 s.hour ++ rest := by
    cases layout : s.layout.clock with
    | none => exact absurd layout clocked
    | hours c => exact ⟨[], (List.append_nil _).symm⟩
    | minutes c colons => exact ⟨_, rfl⟩
    | seconds c colons layout => exact ⟨_, rfl⟩
  obtain ⟨rest, hours⟩ := hours
  obtain ⟨x, y, written, -, digit⟩ := digits_two (n := s.hour) (by have := s.clock; omega)
  rw [body_written timed, List.append_assoc, List.cons_append]
  rw [hours, written] at even ⊢
  have valid := s.date
  have plain := s.layout.plain
  generalize s.layout.date = date at valid plain ⊢
  cases date with
  | calendar dashed => exact separatorAt_calendar dashed valid.1 valid.2 _ _
  | week dashed weekday =>
    refine separatorAt_week dashed weekday valid.1 valid.2.1 ?_ digit even
    rintro rfl rfl
    have letter := plain rfl separator timed
    simpa using letter

theorem fromisoformat_written {s : Stamp} (timed : s.layout.clock ≠ .none) (short : s.layout.digits ≤ 6) :
    fromisoformat (s.body ++ utcOffset) = some ((micros s : Int), some 0) := by
  obtain ⟨separator, separated⟩ : ∃ separator, s.layout.clock.separator = some separator := by
    cases layout : s.layout.clock with
    | none => exact absurd layout timed
    | hours c => exact ⟨c, rfl⟩
    | minutes c colons => exact ⟨c, rfl⟩
    | seconds c colons layout => exact ⟨c, rfl⟩
  have found := separatorAt_written separated
  have date := parseDate_written s.date
  have time := parseTime_written timed s.written s.digits short s.clock
  rw [body_written separated, List.append_assoc, List.cons_append] at found ⊢
  obtain ⟨a, b, c, d, years, -⟩ := digits_four (n := s.year) (by have := s.date.1; omega)
  have long : ¬ (dateWritten s.year s.major s.minor s.layout.date ++
      separator :: (timeWritten s.hour s.minute s.second s.fraction s.layout.clock ++ utcOffset)).length < 7 := by
    have four : 4 ≤ (dateWritten s.year s.major s.minor s.layout.date).length := by
      cases s.layout.date with
      | calendar dashed => simp [dateWritten, years]
      | week dashed weekday => simp [dateWritten, years]
    have six : utcOffset.length = 6 := rfl
    rw [List.length_append, List.length_cons, List.length_append, six]
    omega
  rw [fromisoformat, if_neg long, found]
  simp only [Option.bind_eq_bind, Option.bind_some, List.take_left, List.drop_append, date]
  rw [List.drop_of_length_le (by omega), List.nil_append, Nat.add_sub_cancel_left, List.drop_one, List.tail_cons]
  generalize text : timeWritten s.hour s.minute s.second s.fraction s.layout.clock ++ utcOffset = all at time ⊢
  cases all with
  | nil =>
    have empty := congrArg List.length text
    simp [utcOffset] at empty
  | cons head tail =>
    simp only [time, Option.bind_some]
    have value : (s.layout.date.day s.year s.major s.minor : Int) * dayMicros +
        ((s.hour * 3600 + s.minute * 60 + s.second) * 1000000 +
          s.fraction * 10 ^ (6 - fractionDigits s.layout.clock.fraction) : Nat) = micros s := by
      rw [micros, Stamp.seconds, dayMicros, show s.layout.digits = fractionDigits s.layout.clock.fraction from rfl]
      generalize s.fraction * 10 ^ (6 - fractionDigits s.layout.clock.fraction) = f
      omega
    rw [value]
    rfl

theorem day_bounds {layout : DateLayout} {year major minor : Nat} (date : layout.Valid year major minor) :
    1 ≤ layout.day year major minor ∧ layout.day year major minor ≤ lastDay := by
  cases layout with
  | calendar dashed =>
    have valid : Date year major minor := date.2
    have bounds := valid.bounds
    have years := date.1
    have named := valid.years
    have within : daysBeforeYear year + daysInYear year ≤ lastDay := by
      have last : daysBeforeYear 10000 = lastDay := by decide
      rw [← last]
      exact daysBeforeYear_le named (by omega)
    show 1 ≤ ordinal year major minor ∧ ordinal year major minor ≤ lastDay
    omega
  | week dashed weekday =>
    have valid : WeekDate year major minor := date.2.1
    refine ⟨?_, date.2.2.1⟩
    have first : 1 ≤ firstMonday year := by
      by_cases one : year = 1
      · rw [one]
        decide
      · have years := valid.years
        have later := @firstMonday_le 1 year (by decide) (by omega)
        have base : firstMonday 1 = 1 := by decide
        omega
    show 1 ≤ weekOrdinal year major minor
    rw [weekOrdinal]
    omega

theorem fraction_micros {s : Stamp} (short : s.layout.digits ≤ 6) :
    s.fraction * 10 ^ (6 - s.layout.digits) < 1000000 := by
  have whole : 10 ^ s.layout.digits * 10 ^ (6 - s.layout.digits) = 1000000 := by
    rw [← Nat.pow_add, Nat.add_sub_cancel' short]
  have positive : 0 < 10 ^ (6 - s.layout.digits) := Nat.pow_pos (by decide)
  have below := Nat.mul_lt_mul_of_pos_right s.digits positive
  omega

theorem strip_written {head : Char} {middle : List Char} {last : Char} (first : isSpace head = false)
    (final : isSpace last = false) : strip (head :: middle ++ [last]) = head :: middle ++ [last] := by
  rw [strip, List.cons_append, List.dropWhile_cons_of_neg (by simp [first]), List.reverse_cons, List.reverse_append,
    List.reverse_singleton, List.singleton_append, List.cons_append, List.dropWhile_cons_of_neg (by simp [final])]
  simp

theorem utcOfText_written {s : Stamp} (timed : s.layout.clock ≠ .none) (short : s.layout.digits ≤ 6) :
    utcOfText s.text = some (micros s : Int) := by
  have letters : s.text.toList = s.body ++ ['Z'] := by rw [Stamp.text, String.toList_ofList]
  obtain ⟨head, middle, begins, digit⟩ : ∃ head middle, s.body = head :: middle ∧ head.isDigit = true := by
    obtain ⟨a, b, c, d, years, digit⟩ := digits_four (n := s.year) (by have := s.date.1; omega)
    cases date : s.layout.date with
    | calendar dashed =>
      rw [Stamp.body, Stamp.numbers, Layout.columns, date]
      simp only [DateLayout.columns, List.cons_append, render, List.nil_append, years]
      exact ⟨_, _, rfl, digit⟩
    | week dashed weekday =>
      rw [Stamp.body, Stamp.numbers, Layout.columns, date]
      simp only [DateLayout.columns, List.cons_append, render, List.nil_append, years]
      exact ⟨_, _, rfl, digit⟩
  have stripped : strip s.text.toList = s.body ++ ['Z'] := by
    rw [letters, begins]
    exact strip_written (isDigit_marks digit).2.2.2.2.2.2 (by decide)
  have spelled : offsetSpelled (s.body ++ ['Z']) = s.body ++ utcOffset := by
    rw [offsetSpelled, if_pos (by simp), List.dropLast_concat]
    rfl
  have days := day_bounds s.date
  have fraction := fraction_micros short
  have clock := s.clock
  have within : (dayMicros : Int) ≤ micros s - 0 ∧ (micros s : Int) - 0 < (lastDay + 1) * dayMicros := by
    rw [micros, Stamp.seconds, dayMicros, lastDay]
    rw [lastDay] at days
    omega
  rw [utcOfText, stripped]
  rw [if_neg (by simp), spelled, fromisoformat_written timed short, Option.bind_some]
  simp only [inUtc]
  rw [if_pos within, Int.sub_zero]

theorem micros_instant {s : Stamp} (short : s.layout.digits ≤ 6) : (micros s : ℚ) = s.instant * 1000000 := by
  have whole : (10 : ℚ) ^ s.layout.digits * 10 ^ (6 - s.layout.digits) = 1000000 := by
    rw [← pow_add, Nat.add_sub_cancel' short]
    norm_num
  have positive : (10 : ℚ) ^ s.layout.digits ≠ 0 := by positivity
  rw [micros, Stamp.instant, Columns.fraction]
  push_cast
  rw [add_mul, ← whole]
  field_simp

theorem micros_le {x y : Stamp} (short : x.layout.digits ≤ 6) (short' : y.layout.digits ≤ 6) :
    micros x ≤ micros y ↔ x.instant ≤ y.instant := by
  have scaled : (micros x : ℚ) ≤ micros y ↔ x.instant ≤ y.instant := by
    rw [micros_instant short, micros_instant short']
    constructor
    · intro le
      linarith
    · intro le
      linarith
  exact_mod_cast scaled

end Fala.Inspection
