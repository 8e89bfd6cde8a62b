import Dbdky.Gregorian.Calendar
import Mathlib.Data.Prod.Lex
import Mathlib.Order.Basic
import Mathlib.Logic.Function.Iterate

/-!
The order of the days.

The day after a date follows from the lengths of the months alone. Everything else about
the order of the dates is a consequence of what that day's number is:

* **`dayNumber_next`.** The day after a date has the next number.
* **`key_lt_key_iff`.** Dates are ordered by year, month and day as their numbers are.
* **`next_iterate_iff`.** The number of days between two dates is the difference of their
  numbers.
-/

namespace Gregorian

/-- The day after. -/
def Date.next (date : Date) : Date :=
  if date.day < daysInMonth date.year date.month then { date with day := date.day + 1 }
  else if date.month < 12 then ⟨date.year, date.month + 1, 1⟩
  else ⟨date.year + 1, 1, 1⟩

/-- Year, month and day, in lexicographic order. -/
def Date.key (date : Date) : Lex (Int × Lex (Int × Int)) :=
  toLex (date.year, toLex (date.month, date.day))

theorem daysInMonth_pos (year month : Int) : 1 ≤ daysInMonth year month := by
  unfold daysInMonth
  split
  · split <;> decide
  · split <;> decide

theorem january_valid (year : Int) : Date.Valid ⟨year, 1, 1⟩ := by
  have january : (1 : Int) ≤ 12 := by decide
  exact ⟨Int.le_refl 1, january, Int.le_refl 1, daysInMonth_pos ..⟩

theorem Date.Valid.next {date : Date} (valid : date.Valid) : date.next.Valid := by
  obtain ⟨month_pos, month_le, day_pos, day_le⟩ := valid
  unfold Date.next
  split
  case isTrue inside => exact ⟨month_pos, month_le, by dsimp only; omega, inside⟩
  case isFalse =>
    split
    case isTrue inside =>
      exact ⟨by dsimp only; omega, by dsimp only; omega, Int.le_refl 1, daysInMonth_pos ..⟩
    case isFalse => exact january_valid _

/-! ### The number of the day after -/

/-- The first of a month has the number after the last of the month before. -/
theorem dayNumber_next_month (year : Int) {month : Int} (first : 1 ≤ month) (last : month < 12) :
    Date.dayNumber ⟨year, month + 1, 1⟩ =
      Date.dayNumber ⟨year, month, daysInMonth year month⟩ + 1 := by
  simp only [Date.dayNumber_eq, daysInMonth, IsLeap, Date.marchYear, Date.marchMonth, monthStart,
    floorLine]
  -- the year matters only at the end of February
  interval_cases month <;> simp <;> grind

theorem dayNumber_next_year (year : Int) :
    Date.dayNumber ⟨year + 1, 1, 1⟩ = Date.dayNumber ⟨year, 12, daysInMonth year 12⟩ + 1 := by
  simp only [Date.dayNumber_eq, daysInMonth, Date.marchYear, Date.marchMonth, monthStart,
    floorLine]
  norm_num
  omega

theorem dayNumber_next {date : Date} (valid : date.Valid) :
    date.next.dayNumber = date.dayNumber + 1 := by
  obtain ⟨month_pos, month_le, day_pos, day_le⟩ := valid
  unfold Date.next
  split
  case isTrue inside =>
    have year : Date.marchYear { date with day := date.day + 1 } = date.marchYear := rfl
    have month : Date.marchMonth { date with day := date.day + 1 } = date.marchMonth := rfl
    rw [Date.dayNumber, Date.dayNumber, year, month]
    dsimp only
    omega
  case isFalse last =>
    have whole : date = ⟨date.year, date.month, daysInMonth date.year date.month⟩ := by
      have day : date.day = daysInMonth date.year date.month := by omega
      rw [← day]
    split
    case isTrue inside =>
      rw [dayNumber_next_month date.year month_pos inside, ← whole]
    case isFalse outside =>
      have december : date.month = 12 := by omega
      rw [december] at whole
      rw [dayNumber_next_year, ← whole]

theorem marchYear_le_next (date : Date) : date.marchYear ≤ date.next.marchYear := by
  unfold Date.next
  split
  case isTrue => exact Int.le_refl _
  case isFalse =>
    split
    · unfold Date.marchYear
      dsimp only
      split <;> split <;> omega
    · unfold Date.marchYear
      dsimp only
      split <;> split <;> omega

theorem next_ofDayNumber (number : Int) : (ofDayNumber number).next = ofDayNumber (number + 1) := by
  obtain ⟨valid, same⟩ := dayNumber_ofDayNumber number
  have step := dayNumber_next valid
  rw [same] at step
  rw [← step, ofDayNumber_dayNumber valid.next]

/-- That many days later. -/
theorem next_iterate_ofDayNumber (number : Int) (days : Nat) :
    Date.next^[days] (ofDayNumber number) = ofDayNumber (number + days) := by
  induction days with
  | zero => simp
  | succ days ih =>
      rw [Function.iterate_succ_apply', ih, next_ofDayNumber, Int.natCast_succ, Int.add_assoc]

theorem next_iterate_iff {d e : Date} (first : d.Valid) (second : e.Valid) (days : Nat) :
    Date.next^[days] d = e ↔ e.dayNumber - d.dayNumber = days := by
  have later := next_iterate_ofDayNumber d.dayNumber days
  rw [ofDayNumber_dayNumber first] at later
  rw [later]
  constructor
  · rintro rfl
    rw [(dayNumber_ofDayNumber _).2]
    omega
  · intro apart
    have reached : d.dayNumber + days = e.dayNumber := by omega
    rw [reached, ofDayNumber_dayNumber second]

/-! ### The order of the dates -/

theorem key_lt_key_next {date : Date} (valid : date.Valid) : date.key < date.next.key := by
  obtain ⟨month_pos, month_le, day_pos, day_le⟩ := valid
  unfold Date.next Date.key
  rw [Prod.Lex.toLex_lt_toLex, Prod.Lex.toLex_lt_toLex]
  split
  · exact .inr ⟨rfl, .inr ⟨rfl, Int.lt_succ _⟩⟩
  · split
    · exact .inr ⟨rfl, .inl (Int.lt_succ _)⟩
    · exact .inl (Int.lt_succ _)

theorem key_lt_key_of_lt {m n : Int} (less : m < n) :
    (ofDayNumber m).key < (ofDayNumber n).key := by
  induction n, less using Int.leInduction with
  | base =>
      rw [← next_ofDayNumber]
      exact key_lt_key_next (dayNumber_ofDayNumber m).1
  | succ n later ih =>
      rw [← next_ofDayNumber]
      exact ih.trans (key_lt_key_next (dayNumber_ofDayNumber n).1)

theorem key_lt_key_iff {d e : Date} (first : d.Valid) (second : e.Valid) :
    d.key < e.key ↔ d.dayNumber < e.dayNumber := by
  constructor
  · intro earlier
    by_contra later
    rcases Int.lt_or_eq_of_le (Int.not_lt.mp later) with after | same
    · have opposite := key_lt_key_of_lt after
      rw [ofDayNumber_dayNumber first, ofDayNumber_dayNumber second] at opposite
      exact lt_asymm earlier opposite
    · rw [← ofDayNumber_dayNumber first, ← ofDayNumber_dayNumber second, same] at earlier
      exact lt_irrefl _ earlier
  · intro less
    have earlier := key_lt_key_of_lt less
    rwa [ofDayNumber_dayNumber first, ofDayNumber_dayNumber second] at earlier

/-- 1 January is not after any day of its year. -/
theorem january_dayNumber_le {date : Date} (valid : date.Valid) :
    Date.dayNumber ⟨date.year, 1, 1⟩ ≤ date.dayNumber := by
  have not_before : ¬ date.key < Date.key ⟨date.year, 1, 1⟩ := by
    have month_pos := valid.month_pos
    have day_pos := valid.day_pos
    simp only [Date.key, Prod.Lex.toLex_lt_toLex]
    omega
  rw [key_lt_key_iff valid (january_valid _)] at not_before
  exact Int.not_lt.mp not_before

theorem key_inj {d e : Date} : d.key = e.key ↔ d = e := by
  cases d
  cases e
  simp [Date.key]

theorem eq_iff_dayNumber {d e : Date} (first : d.Valid) (second : e.Valid) :
    d = e ↔ d.dayNumber = e.dayNumber := by
  constructor
  · exact congrArg Date.dayNumber
  · intro same
    rw [← ofDayNumber_dayNumber first, ← ofDayNumber_dayNumber second, same]

/-! ### Julian day numbers and days of the week -/

/-- The Julian day number. -/
def Date.julianDay (date : Date) : Int := date.dayNumber + 1721120

-- it counts from 24 November -4713 on
example : Date.julianDay ⟨-4713, 11, 24⟩ = 0 := by decide

theorem julianDay_next {date : Date} (valid : date.Valid) :
    date.next.julianDay = date.julianDay + 1 := by
  rw [Date.julianDay, Date.julianDay, dayNumber_next valid]
  omega

/-- The day of the week, from 0 for Sunday. -/
def Date.weekDay (date : Date) : Int := (date.dayNumber + 3) % 7

-- 1 January 1970 was a Thursday
example : Date.weekDay ⟨1970, 1, 1⟩ = 4 := by decide

theorem weekDay_next {date : Date} (valid : date.Valid) :
    date.next.weekDay = (date.weekDay + 1) % 7 := by
  rw [Date.weekDay, Date.weekDay, dayNumber_next valid]
  omega

theorem weekDay_eq (date : Date) : date.weekDay = (date.julianDay + 1) % 7 := by
  rw [Date.weekDay, Date.julianDay]
  omega

end Gregorian
