import Fala.Durable.Calendar
import Fala.Durable.Columns
import Fala.Journal.Claim

/-! How timestamps are spelled, and when the order of their texts is their order in time. -/

namespace Fala.Driver
open Calendar Columns

inductive DateLayout where
  | calendar (dashed : Bool)
  | week (dashed weekday : Bool)
  deriving DecidableEq

/-- A fraction of a second, of one digit and `more`. -/
structure FractionLayout where
  comma : Bool
  more : Nat
  deriving DecidableEq

inductive ClockLayout where
  | none
  | hours (separator : Char)
  | minutes (separator : Char) (colons : Bool)
  | seconds (separator : Char) (colons : Bool) (fraction : Option FractionLayout)
  deriving DecidableEq

def dash (dashed : Bool) : List Char := if dashed then ['-'] else []
def colon (colons : Bool) : List Char := if colons then [':'] else []
def unwritten : Column := ⟨[], 0⟩

namespace DateLayout

def columns : DateLayout → List Column
  | .calendar dashed => [⟨[], 4⟩, ⟨dash dashed, 2⟩, ⟨dash dashed, 2⟩]
  | .week dashed weekday => [⟨[], 4⟩, ⟨dash dashed ++ ['W'], 2⟩, if weekday then ⟨dash dashed, 1⟩ else unwritten]

/-- The day as it is written: a week without a day of the week is its Monday. -/
def written : DateLayout → Nat → Nat
  | .calendar _, day => day
  | .week _ weekday, day => if weekday then day else 0

/-- The date is one of `datetime`: it has a year of four digits and is not after the last day of 9999. -/
def Valid (layout : DateLayout) (year major minor : Nat) : Prop :=
  year ≤ 9999 ∧
    match layout with
    | .calendar _ => Date year major minor
    | .week _ weekday =>
      WeekDate year major minor ∧ weekOrdinal year major minor ≤ 3652059 ∧ (weekday = false → minor = 1)

def day : DateLayout → Nat → Nat → Nat → Nat
  | .calendar _, year, month, monthDay => ordinal year month monthDay
  | .week _ _, year, number, weekday => weekOrdinal year number weekday

end DateLayout

namespace ClockLayout

def columns : ClockLayout → List Column
  | .none => [unwritten, unwritten, unwritten]
  | .hours separator => [⟨[separator], 2⟩, unwritten, unwritten]
  | .minutes separator colons => [⟨[separator], 2⟩, ⟨colon colons, 2⟩, unwritten]
  | .seconds separator colons _ => [⟨[separator], 2⟩, ⟨colon colons, 2⟩, ⟨colon colons, 2⟩]

def fraction : ClockLayout → Option FractionLayout
  | .seconds _ _ fraction => fraction
  | _ => Option.none

def separator : ClockLayout → Option Char
  | .none => Option.none
  | .hours separator | .minutes separator _ | .seconds separator _ _ => some separator

end ClockLayout

namespace FractionLayout

def point (layout : FractionLayout) : Char := if layout.comma then ',' else '.'

end FractionLayout

/-- A spelling that `datetime.fromisoformat` reads, without the `Z` of UTC: a date by month or by week, any separator, and
    a time. After a day of the week that follows a dash, a digit would be read as the time. -/
structure Layout where
  date : DateLayout
  clock : ClockLayout
  plain : date = .week true true → ∀ c ∈ clock.separator, ¬ c.isDigit

namespace Layout

def columns (layout : Layout) : List Column := layout.date.columns ++ layout.clock.columns

def digits (layout : Layout) : Nat := (layout.clock.fraction.map (·.more + 1)).getD 0

/-- Two layouts that differ at most in how many digits of a fraction they write. -/
structure SameStyle (a b : Layout) : Prop where
  date : a.date = b.date
  columns : a.clock.columns = b.clock.columns
  point : ∀ f ∈ a.clock.fraction, ∀ g ∈ b.clock.fraction, f.comma = g.comma

end Layout

/-- A timestamp as it is spelled. What is not written is zero. -/
structure Stamp where
  layout : Layout
  year : Nat
  major : Nat
  minor : Nat
  hour : Nat
  minute : Nat
  second : Nat
  fraction : Nat
  date : layout.date.Valid year major minor
  clock : hour < 24 ∧ minute < 60 ∧ second < 60
  written : Fits layout.clock.columns [hour, minute, second]
  digits : fraction < 10 ^ layout.digits

namespace Stamp

def numbers (s : Stamp) : List Nat := [s.year, s.major, s.layout.date.written s.minor] ++ [s.hour, s.minute, s.second]

def fractionText (s : Stamp) : List Char :=
  match s.layout.clock.fraction with
  | some f => f.point :: Columns.digits (f.more + 1) s.fraction
  | none => []

/-- The text before the `Z`. -/
def body (s : Stamp) : List Char := render s.layout.columns s.numbers s.fractionText

def text (s : Stamp) : String := String.ofList (s.body ++ ['Z'])

/-- Whole seconds, from the day before the first one of the year 1. -/
def seconds (s : Stamp) : Nat :=
  s.layout.date.day s.year s.major s.minor * 86400 + s.hour * 3600 + s.minute * 60 + s.second

def instant (s : Stamp) : ℚ := s.seconds + Columns.fraction s.layout.digits s.fraction

/-- Both texts are ordered as the instants. -/
def Chronological (x y : Stamp) : Prop :=
  (x.text < y.text ↔ x.instant < y.instant) ∧ (y.text < x.text ↔ y.instant < x.instant)

/-- The text goes on where the other one has its `Z`. -/
def Continues (x y : Stamp) : Prop := y.body <+: x.body

end Stamp

/-! The clocks of the runtime. -/

structure Moment where
  year : Nat
  month : Nat
  day : Nat
  hour : Nat
  minute : Nat
  second : Nat
  microsecond : Nat
  date : Date year month day ∧ year ≤ 9999
  clock : hour < 24 ∧ minute < 60 ∧ second < 60
  micro : microsecond < 10 ^ 6

/-- `%Y-%m-%dT%H:%M:%SZ`: the native clock, the retry due time and the clock of `host_run_package`. -/
def nativeClock (now : Moment) : Stamp where
  layout := ⟨.calendar true, .seconds 'T' true none, by simp⟩
  year := now.year
  major := now.month
  minor := now.day
  hour := now.hour
  minute := now.minute
  second := now.second
  fraction := 0
  date := ⟨now.date.2, now.date.1⟩
  clock := now.clock
  written := by
    have clock := now.clock
    exact .cons (by simp; omega) (.cons (by simp; omega) (.cons (by simp; omega) .nil))
  digits := by decide

/-- `_now`: always with microseconds. -/
def pythonClock (now : Moment) : Stamp where
  layout := ⟨.calendar true, .seconds 'T' true (some ⟨false, 5⟩), by simp⟩
  year := now.year
  major := now.month
  minor := now.day
  hour := now.hour
  minute := now.minute
  second := now.second
  fraction := now.microsecond
  date := ⟨now.date.2, now.date.1⟩
  clock := now.clock
  written := by
    have clock := now.clock
    exact .cons (by simp; omega) (.cons (by simp; omega) (.cons (by simp; omega) .nil))
  digits := now.micro

/-! What the columns of two timestamps say about their whole seconds. -/

theorem DateLayout.day_lt {layout : DateLayout} {year major minor year' major' minor' : Nat}
    (date : layout.Valid year major minor) (date' : layout.Valid year' major' minor')
    (before : [year, major, layout.written minor] < [year', major', layout.written minor']) :
    layout.day year major minor < layout.day year' major' minor' := by
  simp only [List.cons_lt_cons_iff, List.lt_irrefl, and_false, or_false] at before
  cases layout with
  | calendar dashed => exact date.2.ordinal_lt date'.2 before
  | week dashed weekday =>
    apply WeekDate.weekOrdinal_lt date.2.1 date'.2.1
    cases weekday with
    | true => exact before
    | false =>
      simp only [written, Bool.false_eq_true, if_false, Nat.lt_irrefl, and_false, or_false] at before
      exact before.imp_right (And.imp_right .inl)

theorem DateLayout.written_inj {layout : DateLayout} {year major minor year' major' minor' : Nat}
    (date : layout.Valid year major minor) (date' : layout.Valid year' major' minor')
    (same : layout.written minor = layout.written minor') : minor = minor' := by
  cases layout with
  | calendar dashed => exact same
  | week dashed weekday =>
    cases weekday with
    | true => exact same
    | false => exact (date.2.2.2 rfl).trans (date'.2.2.2 rfl).symm

theorem DateLayout.fits {layout : DateLayout} {year major minor : Nat} (date : layout.Valid year major minor) :
    Fits layout.columns [year, major, layout.written minor] := by
  have years := date.1
  cases layout with
  | calendar dashed =>
    have months := date.2.months
    have days : minor ≤ 31 := by
      have last := date.2.days.2
      unfold daysInMonth at last
      split at last
      · split at last <;> omega
      · split at last <;> omega
    exact .cons (by simp; omega) (.cons (by simp; omega) (.cons (by simp [written]; omega) .nil))
  | week dashed weekday =>
    have weeks : major ≤ 53 := by
      have last := date.2.1.weeks.2
      simp only [weeksInYear] at last
      split at last <;> omega
    have days := date.2.1.days
    refine .cons (by simp; omega) (.cons (by simp; omega) (.cons ?_ .nil))
    cases weekday with
    | true =>
      simp only [written, if_true]
      omega
    | false => simp [written, unwritten]

namespace Stamp

variable {x y : Stamp}

theorem fits (s : Stamp) : Fits s.layout.columns s.numbers := List.rel_append (DateLayout.fits s.date) s.written

theorem seconds_lt (same : x.layout.date = y.layout.date) (before : x.numbers < y.numbers) : x.seconds < y.seconds := by
  have date : y.layout.date.day y.year y.major y.minor = x.layout.date.day y.year y.major y.minor := by rw [same]
  have valid : x.layout.date.Valid y.year y.major y.minor := same ▸ y.date
  have clock := x.clock
  have clock' := y.clock
  have split : [x.year, x.major, x.layout.date.written x.minor] < [y.year, y.major, x.layout.date.written y.minor] ∨
      (x.year = y.year ∧ x.major = y.major ∧ x.layout.date.written x.minor = x.layout.date.written y.minor) ∧
        (x.hour < y.hour ∨ x.hour = y.hour ∧ (x.minute < y.minute ∨ x.minute = y.minute ∧ x.second < y.second)) := by
    simp only [numbers, ← same, List.cons_append, List.nil_append, List.cons_lt_cons_iff, List.lt_irrefl, and_false,
      or_false] at before ⊢
    tauto
  unfold seconds
  rcases split with days | ⟨⟨years, majors, minors⟩, clocks⟩
  · have later := DateLayout.day_lt x.date valid days
    omega
  · have minor := DateLayout.written_inj x.date valid minors
    rw [date, ← years, ← majors, ← minor]
    omega

theorem seconds_eq (same : x.layout.date = y.layout.date) (equal : x.numbers = y.numbers) : x.seconds = y.seconds := by
  simp only [numbers, ← same, List.cons_append, List.nil_append, List.cons.injEq, and_true] at equal
  obtain ⟨years, majors, minors, hours, minutes, seconds⟩ := equal
  have minor := DateLayout.written_inj x.date (same ▸ y.date) minors
  rw [Stamp.seconds, Stamp.seconds, ← same, years, majors, minor, hours, minutes, seconds]

theorem seconds_lt_iff (same : x.layout.date = y.layout.date) : x.seconds < y.seconds ↔ x.numbers < y.numbers := by
  rcases lt_trichotomy x.numbers y.numbers with less | equal | more
  · exact iff_of_true (seconds_lt same less) less
  · have seconds := seconds_eq same equal
    exact iff_of_false (by omega) (fun less => absurd (equal ▸ less) (lt_irrefl _))
  · have seconds := seconds_lt same.symm more
    exact iff_of_false (by omega) (lt_asymm more)

theorem seconds_inj (same : x.layout.date = y.layout.date) : x.seconds = y.seconds ↔ x.numbers = y.numbers := by
  constructor
  · intro equal
    rcases lt_trichotomy x.numbers y.numbers with less | numbers | more
    · have seconds := seconds_lt same less
      omega
    · exact numbers
    · have seconds := seconds_lt same.symm more
      omega
  · exact seconds_eq same

def part (s : Stamp) : ℚ := Columns.fraction s.layout.digits s.fraction

theorem instant_lt_iff : x.instant < y.instant ↔ x.seconds < y.seconds ∨ x.seconds = y.seconds ∧ x.part < y.part := by
  have low := Columns.fraction_nonneg x.layout.digits x.fraction
  have low' := Columns.fraction_nonneg y.layout.digits y.fraction
  have high := Columns.fraction_lt_one x.digits
  have high' := Columns.fraction_lt_one y.digits
  unfold instant part
  rcases Nat.lt_trichotomy x.seconds y.seconds with less | same | more
  · have step : (x.seconds : ℚ) + 1 ≤ y.seconds := by exact_mod_cast less
    exact iff_of_true (by linarith) (.inl less)
  · rw [same]
    simp
  · have step : (y.seconds : ℚ) + 1 ≤ x.seconds := by exact_mod_cast more
    exact iff_of_false (by linarith) (by omega)

theorem text_lt_iff (same : x.layout.columns = y.layout.columns) :
    x.text < y.text ↔
      x.numbers < y.numbers ∨ x.numbers = y.numbers ∧ x.fractionText ++ ['Z'] < y.fractionText ++ ['Z'] := by
  have fits := y.fits
  rw [← same] at fits
  have order := Columns.render_lt_iff x.fits fits (x.fractionText ++ ['Z']) (y.fractionText ++ ['Z'])
  rw [← order, Columns.render_append, Columns.render_append]
  change (String.ofList _).toList < (String.ofList _).toList ↔ _
  rw [String.toList_ofList, String.toList_ofList, body, body, ← same]

theorem chronological_iff (date : x.layout.date = y.layout.date) (columns : x.layout.columns = y.layout.columns) :
    Chronological x y ↔ (x.numbers = y.numbers →
      (x.fractionText ++ ['Z'] < y.fractionText ++ ['Z'] ↔ x.part < y.part) ∧
        (y.fractionText ++ ['Z'] < x.fractionText ++ ['Z'] ↔ y.part < x.part)) := by
  rw [Chronological, text_lt_iff columns, text_lt_iff columns.symm, instant_lt_iff, instant_lt_iff,
    seconds_lt_iff date, seconds_lt_iff date.symm, seconds_inj date, seconds_inj date.symm]
  by_cases same : x.numbers = y.numbers
  · simp [same]
  · simp [same, Ne.symm same]

theorem fractionText_none (absent : x.layout.clock.fraction = none) : x.fractionText = [] ∧ x.part = 0 := by
  have digits : x.layout.digits = 0 := by simp [Layout.digits, absent]
  have fits := x.digits
  rw [digits] at fits
  have zero : x.fraction = 0 := by simpa using fits
  exact ⟨by simp [fractionText, absent], by simp [part, digits, zero, Columns.fraction]⟩

theorem fractionText_some {f : FractionLayout} (present : x.layout.clock.fraction = some f) :
    x.fractionText = f.point :: Columns.digits (f.more + 1) x.fraction ∧
      x.part = Columns.fraction (f.more + 1) x.fraction ∧ x.fraction < 10 ^ (f.more + 1) := by
  have digits : x.layout.digits = f.more + 1 := by simp [Layout.digits, present]
  have fits := x.digits
  rw [digits] at fits
  exact ⟨by simp [fractionText, present], by rw [part, digits], fits⟩

theorem fractionText_lt_letter : ∀ c ∈ x.fractionText, c < 'Z' := by
  intro c member
  cases layout : x.layout.clock.fraction with
  | none =>
    rw [(fractionText_none layout).1] at member
    cases member
  | some f =>
    obtain ⟨text, -, fits⟩ := fractionText_some layout
    rw [text, List.mem_cons] at member
    rcases member with rfl | member
    · unfold FractionLayout.point
      split <;> decide
    · exact Columns.digits_lt_letter fits c member

theorem part_le_of_prefix (continued : x.fractionText <+: y.fractionText) : x.part ≤ y.part := by
  cases layout : x.layout.clock.fraction with
  | none =>
    rw [(fractionText_none layout).2]
    exact Columns.fraction_nonneg _ _
  | some f =>
    obtain ⟨text, part, fits⟩ := fractionText_some layout
    cases layout' : y.layout.clock.fraction with
    | none =>
      rw [text, (fractionText_none layout').1] at continued
      simp at continued
    | some g =>
      obtain ⟨text', part', fits'⟩ := fractionText_some layout'
      rw [text, text', List.cons_prefix_cons] at continued
      rw [part, part']
      exact Columns.fraction_le_of_prefix fits fits' continued.2

/-- `Z` comes after every character that a fraction goes on with. -/
theorem continued_before {short long : List Char} (continued : short <+: long) (apart : short ≠ long)
    (before : ∀ c ∈ long, c < 'Z') : long ++ ['Z'] < short ++ ['Z'] := by
  obtain ⟨rest, rfl⟩ := continued
  cases rest with
  | nil => exact absurd (List.append_nil short).symm apart
  | cons head rest =>
    rw [List.append_assoc, Columns.append_lt_append, List.cons_append, List.cons_lt_cons_iff]
    exact .inl (before head (by simp))

theorem tails_iff (point : ∀ f ∈ x.layout.clock.fraction, ∀ g ∈ y.layout.clock.fraction, f.comma = g.comma) :
    ((x.fractionText ++ ['Z'] < y.fractionText ++ ['Z'] ↔ x.part < y.part) ∧
        (y.fractionText ++ ['Z'] < x.fractionText ++ ['Z'] ↔ y.part < x.part)) ↔
      x.fractionText = y.fractionText ∨ ¬ x.fractionText <+: y.fractionText ∧ ¬ y.fractionText <+: x.fractionText := by
  by_cases equal : x.fractionText = y.fractionText
  · have le := part_le_of_prefix (x := x) (y := y) (equal ▸ List.prefix_rfl)
    have ge := part_le_of_prefix (x := y) (y := x) (equal ▸ List.prefix_rfl)
    have parts : x.part = y.part := le_antisymm le ge
    simp [equal, parts]
  · by_cases continued : x.fractionText <+: y.fractionText
    · have before := continued_before continued equal fractionText_lt_letter
      have le := part_le_of_prefix continued
      refine iff_of_false (fun agree => ?_) (by simp [equal, continued])
      exact absurd (agree.2.mp before) (not_lt.mpr le)
    · by_cases continued' : y.fractionText <+: x.fractionText
      · have before := continued_before continued' (Ne.symm equal) fractionText_lt_letter
        have le := part_le_of_prefix continued'
        refine iff_of_false (fun agree => ?_) (by simp [equal, continued'])
        exact absurd (agree.1.mp before) (not_lt.mpr le)
      · refine iff_of_true ?_ (.inr ⟨continued, continued'⟩)
        cases layout : x.layout.clock.fraction with
        | none => exact absurd ((fractionText_none layout).1 ▸ List.nil_prefix) continued
        | some f =>
          cases layout' : y.layout.clock.fraction with
          | none => exact absurd ((fractionText_none layout').1 ▸ List.nil_prefix) continued'
          | some g =>
            obtain ⟨text, part, fits⟩ := fractionText_some layout
            obtain ⟨text', part', fits'⟩ := fractionText_some layout'
            have same : f.point = g.point := by
              rw [FractionLayout.point, FractionLayout.point, point f layout g layout']
            rw [text, text', same, List.cons_prefix_cons] at continued continued'
            have apart := fun more => continued ⟨rfl, more⟩
            have apart' := fun more => continued' ⟨rfl, more⟩
            rw [text, text', part, part', same, List.cons_append, List.cons_append, List.cons_lt_cons_iff,
              List.cons_lt_cons_iff, Columns.fraction_lt_iff fits fits' apart apart',
              Columns.fraction_lt_iff fits' fits apart' apart]
            simp

theorem continues_iff (same : x.layout.columns = y.layout.columns) :
    y.Continues x ↔ x.numbers = y.numbers ∧ x.fractionText <+: y.fractionText := by
  have fits := y.fits
  rw [← same] at fits
  rw [Continues, body, body, ← same]
  exact Columns.render_prefix_iff x.fits fits _ _

theorem text_inj : x.text = y.text ↔ x.body = y.body := by
  constructor
  · intro same
    have letters := congrArg String.toList same
    simp only [text, String.toList_ofList] at letters
    exact List.append_cancel_right letters
  · intro same
    rw [text, text, same]

theorem chronological_iff_style (style : x.layout.SameStyle y.layout) :
    Chronological x y ↔ x.text = y.text ∨ ¬ x.Continues y ∧ ¬ y.Continues x := by
  have columns : x.layout.columns = y.layout.columns := by
    rw [Layout.columns, Layout.columns, style.date, style.columns]
  rw [chronological_iff style.date columns, continues_iff columns, continues_iff columns.symm, text_inj]
  by_cases same : x.numbers = y.numbers
  · have bodies : x.body = y.body ↔ x.fractionText = y.fractionText := by
      constructor
      · intro equal
        have le := (continues_iff columns).mp (show x.body <+: y.body from equal ▸ List.prefix_rfl)
        have ge := (continues_iff columns.symm).mp (show y.body <+: x.body from equal ▸ List.prefix_rfl)
        exact le.2.eq_of_length (Nat.le_antisymm le.2.length_le ge.2.length_le)
      · intro equal
        rw [body, body, columns, same, equal]
    rw [bodies, forall_prop_of_true same, tails_iff style.point]
    simp [same, and_comm]
  · simp [same, Ne.symm same]

end Stamp

theorem Stamp.Chronological.le {x y : Stamp} (ordered : Chronological x y) :
    x.text ≤ y.text ↔ x.instant ≤ y.instant := by
  rw [← not_lt, ← not_lt, ordered.2]

theorem leaseExpired_iff_instant {row : ProcessRow} {lease now : Stamp} (ordered : lease.Chronological now)
    (spelled : row.leaseExpiresAt = lease.text) :
    Journal.leaseExpired row now.text = true ↔ lease.instant ≤ now.instant := by
  have given : lease.text ≠ "" := by
    intro empty
    have letters := congrArg String.toList empty
    simp [Stamp.text] at letters
  rw [Journal.leaseExpired, spelled, decide_eq_true_iff, ordered.le]
  exact and_iff_right given

/-! Every layout spells the first midnight of 2024, a Monday, and each in its own way. -/

def midnight (layout : Layout) : Stamp where
  layout := layout
  year := 2024
  major := 1
  minor := 1
  hour := 0
  minute := 0
  second := 0
  fraction := 0
  date := by
    refine ⟨by decide, ?_⟩
    cases layout.date with
    | calendar dashed => exact ⟨by decide, by decide, by decide⟩
    | week dashed weekday => exact ⟨⟨by decide, by decide, by decide⟩, by decide, fun _ => rfl⟩
  clock := by decide
  written := by
    cases layout.clock with
    | none => exact .cons (by decide) (.cons (by decide) (.cons (by decide) .nil))
    | hours separator => exact .cons (by simp) (.cons (by decide) (.cons (by decide) .nil))
    | minutes separator colons => exact .cons (by simp) (.cons (by simp) (.cons (by decide) .nil))
    | seconds separator colons fraction => exact .cons (by simp) (.cons (by simp) (.cons (by simp) .nil))
  digits := Nat.pow_pos (by decide)

theorem midnight_instant (a b : Layout) : (midnight a).instant = (midnight b).instant := by
  have day : ∀ layout : Layout, (midnight layout).instant = (ordinal 2024 1 1 * 86400 : Nat) := by
    intro layout
    have date : layout.date.day 2024 1 1 = ordinal 2024 1 1 := by
      cases layout.date with
      | calendar dashed => rfl
      | week dashed weekday => exact (by decide : weekOrdinal 2024 1 1 = ordinal 2024 1 1)
    simp [Stamp.instant, Stamp.seconds, midnight, date, Columns.fraction]
  rw [day, day]

def dateText : DateLayout → List Char
  | .calendar dashed => ['2', '0', '2', '4'] ++ dash dashed ++ ['0', '1'] ++ dash dashed ++ ['0', '1']
  | .week dashed weekday =>
    ['2', '0', '2', '4'] ++ dash dashed ++ ['W', '0', '1'] ++ if weekday then dash dashed ++ ['1'] else []

def midnightFraction : Option FractionLayout → List Char
  | some f => f.point :: Columns.digits (f.more + 1) 0
  | none => []

def clockText : ClockLayout → List Char
  | .none => []
  | .hours separator => [separator, '0', '0']
  | .minutes separator colons => [separator, '0', '0'] ++ colon colons ++ ['0', '0']
  | .seconds separator colons fraction =>
    [separator, '0', '0'] ++ colon colons ++ ['0', '0'] ++ colon colons ++ ['0', '0'] ++ midnightFraction fraction

theorem midnight_body (layout : Layout) : (midnight layout).body = dateText layout.date ++ clockText layout.clock := by
  obtain ⟨date, clock, plain⟩ := layout
  have four : Columns.digits 4 2024 = ['2', '0', '2', '4'] := by decide
  have one : Columns.digits 2 1 = ['0', '1'] := by decide
  have zero : Columns.digits 2 0 = ['0', '0'] := by decide
  have day : Columns.digits 1 1 = ['1'] := by decide
  have nothing : ∀ n, Columns.digits 0 n = [] := fun _ => rfl
  cases date with
  | calendar dashed =>
    cases clock <;>
      simp [Stamp.body, midnight, Stamp.numbers, Stamp.fractionText, Layout.columns, DateLayout.columns, ClockLayout.columns,
        DateLayout.written, ClockLayout.fraction, Columns.render, unwritten, dateText, clockText, four, one, zero, nothing,
        midnightFraction]
  | week dashed weekday =>
    cases weekday <;> cases clock <;>
      simp [Stamp.body, midnight, Stamp.numbers, Stamp.fractionText, Layout.columns, DateLayout.columns, ClockLayout.columns,
        DateLayout.written, ClockLayout.fraction, Columns.render, unwritten, dateText, clockText, four, one, zero, nothing,
        midnightFraction, day]

theorem midnightFraction_inj {f g : Option FractionLayout} (same : midnightFraction f = midnightFraction g) : f = g := by
  cases f with
  | none =>
    cases g with
    | none => rfl
    | some g => simp [midnightFraction] at same
  | some f =>
    cases g with
    | none => simp [midnightFraction] at same
    | some g =>
      obtain ⟨comma, more⟩ := f
      obtain ⟨comma', more'⟩ := g
      simp only [midnightFraction, List.cons.injEq] at same
      have lengths := congrArg List.length same.2
      rw [Columns.length_digits, Columns.length_digits] at lengths
      have points := same.1
      cases comma <;> cases comma' <;> simp_all [FractionLayout.point]

theorem midnightFraction_letters {f : Option FractionLayout} {rest : List Char} {c : Char}
    (same : midnightFraction f = c :: rest) : c ≠ '0' ∧ c ≠ ':' := by
  cases f with
  | none => simp [midnightFraction] at same
  | some f =>
    simp only [midnightFraction, List.cons.injEq] at same
    rw [← same.1, FractionLayout.point]
    split <;> decide

theorem clockText_inj {c c' : ClockLayout} (same : clockText c = clockText c') : c = c' := by
  have apart : ∀ (f : Option FractionLayout) (rest : List Char),
      midnightFraction f ≠ '0' :: rest ∧ midnightFraction f ≠ ':' :: rest := fun f rest =>
    ⟨fun equal => (midnightFraction_letters equal).1 rfl, fun equal => (midnightFraction_letters equal).2 rfl⟩
  have apart' : ∀ (f : Option FractionLayout) (rest : List Char),
      '0' :: rest ≠ midnightFraction f ∧ ':' :: rest ≠ midnightFraction f := fun f rest =>
    ⟨fun equal => (apart f rest).1 equal.symm, fun equal => (apart f rest).2 equal.symm⟩
  cases c with
  | none => cases c' <;> simp [clockText] at same ⊢
  | hours separator =>
    cases c' <;> simp [clockText] at same ⊢
    exact same
  | minutes separator colons =>
    cases c' with
    | none | hours _ => simp [clockText] at same
    | minutes separator' colons' => cases colons <;> cases colons' <;> simp_all [clockText, colon]
    | seconds separator' colons' f => cases colons <;> cases colons' <;> simp_all [clockText, colon]
  | seconds separator colons f =>
    cases c' with
    | none | hours _ => simp [clockText] at same
    | minutes separator' colons' => cases colons <;> cases colons' <;> simp_all [clockText, colon]
    | seconds separator' colons' g =>
      cases colons <;> cases colons' <;> simp [clockText, colon] at same ⊢
      · exact ⟨same.1, midnightFraction_inj same.2⟩
      · exact ⟨same.1, midnightFraction_inj same.2⟩

theorem clockText_monday {dashed : Bool} {c c' : ClockLayout} :
    dash dashed ++ '1' :: clockText c ≠ clockText c' := by
  intro same
  cases dashed with
  | true => cases c' <;> simp [clockText, dash] at same
  | false =>
    have point : ∀ (f : Option FractionLayout) (rest : List Char), '0' :: rest ≠ midnightFraction f :=
      fun f rest equal => (midnightFraction_letters equal.symm).1 rfl
    cases c' with
    | none => simp [clockText, dash] at same
    | hours separator' => cases c <;> simp [clockText, dash] at same
    | minutes separator' colons' =>
      cases c with
      | none | hours _ => cases colons' <;> simp [clockText, dash, colon] at same
      | minutes _ colons | seconds _ colons _ =>
        cases colons' <;> cases colons <;> simp [clockText, dash, colon] at same
    | seconds separator' colons' f =>
      cases c with
      | none | hours _ => cases colons' <;> simp [clockText, dash, colon] at same
      | minutes _ colons | seconds _ colons _ =>
        cases colons' <;> cases colons <;> simp [clockText, dash, colon, point] at same

theorem layout_of_midnight {a b : Layout} (same : (midnight a).text = (midnight b).text) : a = b := by
  rw [Stamp.text_inj, midnight_body, midnight_body] at same
  obtain ⟨date, clock, plain⟩ := a
  obtain ⟨date', clock', plain'⟩ := b
  have monday : ∀ dashed c c', dash dashed ++ '1' :: clockText c ≠ clockText c' := fun _ _ _ => clockText_monday
  have monday' : ∀ dashed c c', clockText c' ≠ dash dashed ++ '1' :: clockText c := fun _ _ _ => clockText_monday.symm
  have dates : date = date' := by
    cases date with
    | calendar dashed =>
      cases date' with
      | calendar dashed' => cases dashed <;> cases dashed' <;> simp [dateText, dash] at same ⊢
      | week dashed' weekday' => cases dashed <;> cases dashed' <;> simp [dateText, dash] at same
    | week dashed weekday =>
      cases date' with
      | calendar dashed' => cases dashed <;> cases dashed' <;> simp [dateText, dash] at same
      | week dashed' weekday' =>
        have alike : dashed = dashed' := by cases dashed <;> cases dashed' <;> simp [dateText, dash] at same ⊢
        subst alike
        cases weekday <;> cases weekday' <;> simp [dateText, monday, monday'] at same ⊢
  subst dates
  have clocks := clockText_inj (List.append_cancel_left same)
  subst clocks
  rfl

/-- For two spellings that timestamps come in, all texts are in the order of time exactly when the spellings are the same.
    Where they differ only in the digits of a fraction, two texts are exactly when neither goes on where the other one
    has its `Z`. -/
theorem timestamps_chronological_iff (a b : Layout) :
    ((∀ x y : Stamp, x.layout = a → y.layout = b → Stamp.Chronological x y) ↔ a = b) ∧
      (a.SameStyle b → ∀ x y : Stamp, x.layout = a → y.layout = b →
        (Stamp.Chronological x y ↔ x.text = y.text ∨ ¬ x.Continues y ∧ ¬ y.Continues x)) := by
  refine ⟨⟨fun ordered => ?_, ?_⟩, ?_⟩
  · have agree := ordered (midnight a) (midnight b) rfl rfl
    rw [Stamp.Chronological, midnight_instant a b, lt_self_iff_false, iff_false, iff_false] at agree
    exact layout_of_midnight (le_antisymm (not_lt.mp agree.2) (not_lt.mp agree.1))
  · rintro rfl x y rfl layout
    have style : x.layout.SameStyle y.layout := by
      rw [layout]
      exact ⟨rfl, rfl, fun f here g there => by
        rw [Option.mem_def] at here there
        rw [Option.some.inj (here.symm.trans there)]⟩
    have columns : x.layout.columns = y.layout.columns := by rw [layout]
    have fractions : x.fractionText.length = y.fractionText.length := by
      rw [Stamp.fractionText, Stamp.fractionText, layout]
      cases x.layout.clock.fraction with
      | none => rfl
      | some f => rw [List.length_cons, List.length_cons, Columns.length_digits, Columns.length_digits]
    have fits := y.fits
    rw [← columns] at fits
    have lengths : x.body.length = y.body.length := by
      rw [Stamp.body, Stamp.body, ← columns]
      exact Columns.length_render x.fits fits fractions
    rw [Stamp.chronological_iff_style style, Stamp.text_inj]
    by_cases same : x.body = y.body
    · exact .inl same
    · refine .inr ⟨fun continued => same ?_, fun continued => same ?_⟩
      · exact (List.IsPrefix.eq_of_length continued lengths.symm).symm
      · exact List.IsPrefix.eq_of_length continued lengths
  · rintro style x y rfl rfl
    exact Stamp.chronological_iff_style style

/-- The native clock agrees with itself, and so does the other one. -/
theorem clocks_chronological :
    (∀ now later : Moment, Stamp.Chronological (nativeClock now) (nativeClock later)) ∧
      ∀ now later : Moment, Stamp.Chronological (pythonClock now) (pythonClock later) :=
  ⟨fun _ _ => (timestamps_chronological_iff _ _).1.mpr rfl _ _ rfl rfl,
    fun _ _ => (timestamps_chronological_iff _ _).1.mpr rfl _ _ rfl rfl⟩

/-- Half a second after midnight. -/
def afterMidnight : Moment where
  year := 2024
  month := 1
  day := 1
  hour := 0
  minute := 0
  second := 0
  microsecond := 500000
  date := ⟨⟨by decide, by decide, by decide⟩, by decide⟩
  clock := by decide
  micro := by decide

/-- `2024-01-01T00:00:00.500000Z` comes before `2024-01-01T00:00:00Z` as a text. -/
theorem clocks_disagree : ¬ ∀ x y : Stamp, Stamp.Chronological x y := by
  intro ordered
  have agree := ordered (nativeClock afterMidnight) (pythonClock afterMidnight)
  have style : (nativeClock afterMidnight).layout.SameStyle (pythonClock afterMidnight).layout :=
    ⟨rfl, rfl, by simp [nativeClock, ClockLayout.fraction]⟩
  rw [Stamp.chronological_iff_style style, Stamp.text_inj] at agree
  rcases agree with same | ⟨-, apart⟩
  · exact absurd same (by decide)
  · exact apart (by unfold Stamp.Continues; decide)

end Fala.Driver
