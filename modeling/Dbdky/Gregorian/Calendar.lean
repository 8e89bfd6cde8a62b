import Mathlib.Tactic.Common
import Mathlib.Tactic.IntervalCases

/-!
The proleptic Gregorian calendar and the numbering of its days.

Years are counted from 1 March, so that the leap day is the last day of a year. The
first day of a century, of a year in its century and of a month in its year then lie on
rounded lines `(n * k + p) / q`, and the number of a day is the sum of three such values.

* **`floorLine_le_iff`.** A rounded line has an upper adjoint, which is a rounded line
  again: it finds the century, year or month a day lies in.
* **`dayNumber_ofDayNumber`, `ofDayNumber_dayNumber`.** Numbering days is a bijection
  between the valid dates and the integers.
-/

namespace Gregorian

/-! ### Rounded lines -/

/-- The line through `p / q` with slope `n / q`, rounded down. -/
def floorLine (n p q k : Int) : Int := (n * k + p) / q

/-- The last `k` at which the line has not passed `a`. -/
def floorIndex (n p q a : Int) : Int := (q * a + (q - 1 - p)) / n

section FloorLine

variable {n p q k a : Int}

theorem floorLine_le_iff (rising : 0 < n) (unit : 0 < q) :
    floorLine n p q k ≤ a ↔ k ≤ floorIndex n p q a := by
  rw [floorLine, floorIndex, Int.le_ediv_iff_mul_le rising, ← Int.lt_add_one_iff,
    Int.ediv_lt_iff_lt_mul unit]
  rw [Int.mul_comm k n, Int.add_mul, Int.mul_comm a q]
  omega

theorem floorIndex_eq (rising : 0 < n) (unit : 0 < q) (reached : floorLine n p q k ≤ a)
    (ahead : a < floorLine n p q (k + 1)) : floorIndex n p q a = k := by
  have least := (floorLine_le_iff rising unit).mp reached
  have greatest := mt (floorLine_le_iff rising unit).mpr (Int.not_le.mpr ahead)
  omega

theorem floorLine_floorIndex_le (rising : 0 < n) (unit : 0 < q) :
    floorLine n p q (floorIndex n p q a) ≤ a :=
  (floorLine_le_iff rising unit).mpr (Int.le_refl _)

theorem lt_floorLine_floorIndex (rising : 0 < n) (unit : 0 < q) :
    a < floorLine n p q (floorIndex n p q a + 1) := by
  have passed := mt (floorLine_le_iff (p := p) (a := a) rising unit).mp
    (Int.not_le.mpr (Int.lt_succ (floorIndex n p q a)))
  exact Int.not_le.mp passed

end FloorLine

/-! ### Dates -/

structure Date where
  year : Int
  month : Int
  day : Int
deriving DecidableEq, Repr

def IsLeap (year : Int) : Prop := year % 4 = 0 ∧ (year % 100 ≠ 0 ∨ year % 400 = 0)

instance (year : Int) : Decidable (IsLeap year) := inferInstanceAs (Decidable (_ ∧ _))

def daysInMonth (year month : Int) : Int :=
  if month = 2 then if IsLeap year then 29 else 28
  else if month = 4 ∨ month = 6 ∨ month = 9 ∨ month = 11 then 30
  else 31

structure Date.Valid (date : Date) : Prop where
  month_pos : 1 ≤ date.month
  month_le : date.month ≤ 12
  day_pos : 1 ≤ date.day
  day_le : date.day ≤ daysInMonth date.year date.month

/-- The year a date lies in if years begin on 1 March. -/
def Date.marchYear (date : Date) : Int := if date.month ≤ 2 then date.year - 1 else date.year

/-- The month of that year, from 0 for March to 11 for February. -/
def Date.marchMonth (date : Date) : Int :=
  if date.month ≤ 2 then date.month + 9 else date.month - 3

/-- The date in month `month` of the year from March `year` on, at `day` days from its first. -/
def ofMarch (year month day : Int) : Date :=
  if month < 10 then ⟨year, month + 3, day + 1⟩ else ⟨year + 1, month - 9, day + 1⟩

/-! ### Numbering the days -/

/-- The days before a century, counted from 1 March of the year 0. -/
def centuryStart : Int → Int := floorLine 146097 0 4

/-- The days of a century before one of its years. -/
def yearStart : Int → Int := floorLine 1461 0 4

/-- The days of a year before one of its months. -/
def monthStart : Int → Int := floorLine 153 2 5

def Date.dayNumber (date : Date) : Int :=
  centuryStart (date.marchYear / 100) + yearStart (date.marchYear % 100) +
    monthStart date.marchMonth + (date.day - 1)

def ofDayNumber (number : Int) : Date :=
  let century := floorIndex 146097 0 4 number
  let inCentury := number - centuryStart century
  let year := floorIndex 1461 0 4 inCentury
  let inYear := inCentury - yearStart year
  let month := floorIndex 153 2 5 inYear
  ofMarch (100 * century + year) month (inYear - monthStart month)

/-! ### Lengths -/

theorem centuryStart_eq (century : Int) : centuryStart century = 36524 * century + century / 4 := by
  unfold centuryStart floorLine
  omega

theorem yearStart_eq (year : Int) : yearStart year = 365 * year + year / 4 := by
  unfold yearStart floorLine
  omega

/-- The number of a date by the four rules of the calendar. -/
theorem Date.dayNumber_eq (date : Date) :
    date.dayNumber = 365 * date.marchYear + date.marchYear / 4 - date.marchYear / 100 +
      date.marchYear / 400 + monthStart date.marchMonth + (date.day - 1) := by
  rw [dayNumber, centuryStart_eq, yearStart_eq]
  omega

/-- Every fourth century is a day longer. -/
def centuryLength (century : Int) : Int := if century % 4 = 3 then 36525 else 36524

theorem centuryStart_succ (century : Int) :
    centuryStart (century + 1) = centuryStart century + centuryLength century := by
  rw [centuryStart_eq, centuryStart_eq, centuryLength]
  split <;> omega

/-- The days of the year from March `year` of a century on: its last day is in the next year. -/
def yearLength (century year : Int) : Int :=
  if IsLeap (100 * century + year + 1) then 366 else 365

theorem isLeap_succ {century year : Int} (first : 0 ≤ year) (last : year < 100) :
    IsLeap (100 * century + year + 1) ↔ year % 4 = 3 ∧ (year = 99 → century % 4 = 3) := by
  unfold IsLeap
  omega

/-- In its century a year ends where the next begins, or at the end of the century. -/
theorem yearStart_add_yearLength (century : Int) {year : Int} (first : 0 ≤ year)
    (last : year < 100) :
    yearStart year + yearLength century year =
      min (yearStart (year + 1)) (centuryLength century) := by
  rw [yearStart_eq, yearStart_eq, yearLength, centuryLength]
  simp only [isLeap_succ first last]
  split <;> split <;> omega

/-- The days of a month, in a year that begins on 1 March. -/
def monthLength (century year month : Int) : Int :=
  daysInMonth (ofMarch (100 * century + year) month 0).year
    (ofMarch (100 * century + year) month 0).month

/-- In its year a month ends where the next begins, or at the end of the year. -/
theorem monthStart_add_monthLength (century year : Int) {month : Int} (first : 0 ≤ month)
    (last : month < 12) :
    monthStart month + monthLength century year month =
      min (monthStart (month + 1)) (yearLength century year) := by
  unfold monthLength yearLength ofMarch daysInMonth
  by_cases leap : IsLeap (100 * century + year + 1) <;>
    interval_cases month <;> simp [monthStart, floorLine, leap]

/-! ### The bijection -/

theorem marchYear_ofMarch {year month day : Int} (first : 0 ≤ month) (last : month < 12) :
    (ofMarch year month day).marchYear = year := by
  unfold ofMarch Date.marchYear
  split <;> dsimp only <;> split <;> omega

theorem marchMonth_ofMarch {year month day : Int} (first : 0 ≤ month) (last : month < 12) :
    (ofMarch year month day).marchMonth = month := by
  unfold ofMarch Date.marchMonth
  split <;> dsimp only <;> split <;> omega

theorem day_ofMarch (year month day : Int) : (ofMarch year month day).day = day + 1 := by
  unfold ofMarch
  split <;> rfl

theorem ofMarch_march {date : Date} (valid : date.Valid) :
    ofMarch date.marchYear date.marchMonth (date.day - 1) = date := by
  obtain ⟨first, last, -, -⟩ := valid
  by_cases early : date.month ≤ 2
  · have late : ¬ date.month + 9 < 10 := by omega
    simp only [ofMarch, Date.marchMonth, Date.marchYear, early, if_true, late, if_false]
    cases date
    simp
  · have late : date.month - 3 < 10 := by omega
    simp only [ofMarch, Date.marchMonth, Date.marchYear, early, if_false, late, if_true]
    cases date
    simp

/-- The position of a day: its century, the year of the century, the month of that year and the
days of the month before it. -/
structure Position (century year month day : Int) : Prop where
  year_nonneg : 0 ≤ year
  year_lt : year < 100
  month_nonneg : 0 ≤ month
  month_lt : month < 12
  day_nonneg : 0 ≤ day
  day_lt : day < monthLength century year month

/-- A day that lies in the month also lies in the year and in the century. -/
theorem Position.bounds {century year month day : Int}
    (position : Position century year month day) :
    0 ≤ monthStart month ∧ monthStart month + day < monthStart (month + 1) ∧
      monthStart month + day < yearLength century year ∧ 0 ≤ yearStart year ∧
      yearStart year + (monthStart month + day) < yearStart (year + 1) ∧
      yearStart year + (monthStart month + day) < centuryLength century := by
  obtain ⟨year_nonneg, year_lt, month_nonneg, month_lt, day_nonneg, day_lt⟩ := position
  have month_end := monthStart_add_monthLength century year month_nonneg
    month_lt
  have year_end := yearStart_add_yearLength century year_nonneg year_lt
  have month_start : 0 ≤ monthStart month := by
    unfold monthStart floorLine
    omega
  have year_start : 0 ≤ yearStart year := by
    rw [yearStart_eq]
    omega
  omega

/-- The position of a day can be read off its number. -/
theorem Position.index {century year month day : Int} (position : Position century year month day) :
    let inYear := monthStart month + day
    let inCentury := yearStart year + inYear
    floorIndex 146097 0 4 (centuryStart century + inCentury) = century ∧
      floorIndex 1461 0 4 inCentury = year ∧ floorIndex 153 2 5 inYear = month := by
  obtain ⟨month_start, month_end, -, year_start, year_end, century_end⟩ := position.bounds
  have day_nonneg := position.day_nonneg
  have century_next := centuryStart_succ century
  refine ⟨floorIndex_eq (by decide) (by decide) ?_ ?_, floorIndex_eq (by decide) (by decide) ?_ ?_,
    floorIndex_eq (by decide) (by decide) ?_ ?_⟩
  · change centuryStart century ≤ _
    omega
  · change _ < centuryStart (century + 1)
    omega
  · change yearStart year ≤ _
    omega
  · exact year_end
  · change monthStart month ≤ _
    omega
  · exact month_end

theorem dayNumber_ofMarch {century year month day : Int}
    (position : Position century year month day) :
    (ofMarch (100 * century + year) month day).dayNumber =
      centuryStart century + (yearStart year + (monthStart month + day)) := by
  obtain ⟨year_nonneg, year_lt, month_nonneg, month_lt, -, -⟩ := position
  have of_century : (100 * century + year) / 100 = century := by omega
  have of_year : (100 * century + year) % 100 = year := by omega
  rw [Date.dayNumber, marchYear_ofMarch month_nonneg month_lt,
    marchMonth_ofMarch month_nonneg month_lt, day_ofMarch, of_century, of_year]
  omega

theorem ofDayNumber_of_position {century year month day : Int}
    (position : Position century year month day) :
    ofDayNumber (centuryStart century + (yearStart year + (monthStart month + day))) =
      ofMarch (100 * century + year) month day := by
  obtain ⟨in_century, in_year, in_month⟩ := position.index
  have drop (a b : Int) : a + b - a = b := by omega
  simp only [ofDayNumber, in_century, drop, in_year, in_month]

theorem daysInMonth_ofMarch (century year month day : Int) :
    daysInMonth (ofMarch (100 * century + year) month day).year
      (ofMarch (100 * century + year) month day).month = monthLength century year month := by
  unfold monthLength ofMarch
  split <;> rfl

theorem Position.valid {century year month day : Int} (position : Position century year month day) :
    (ofMarch (100 * century + year) month day).Valid := by
  have days := daysInMonth_ofMarch century year month day
  obtain ⟨-, -, month_nonneg, month_lt, day_nonneg, day_lt⟩ := position
  refine ⟨?_, ?_, ?_, ?_⟩
  · unfold ofMarch
    split <;> dsimp only <;> omega
  · unfold ofMarch
    split <;> dsimp only <;> omega
  · rw [day_ofMarch]
    omega
  · rw [days, day_ofMarch]
    omega

/-- Every valid date has a position. -/
theorem Date.Valid.position {date : Date} (valid : date.Valid) :
    Position (date.marchYear / 100) (date.marchYear % 100) date.marchMonth (date.day - 1) := by
  have split_year : 100 * (date.marchYear / 100) + date.marchYear % 100 = date.marchYear := by omega
  have same := ofMarch_march valid
  have days := daysInMonth_ofMarch (date.marchYear / 100) (date.marchYear % 100) date.marchMonth
    (date.day - 1)
  rw [split_year, same] at days
  obtain ⟨first, last, day_pos, day_le⟩ := valid
  refine ⟨by omega, by omega, ?_, ?_, by omega, by omega⟩
  · unfold marchMonth
    split <;> omega
  · unfold marchMonth
    split <;> omega

/-- A day of a century lies in one of its years. -/
theorem year_of_inCentury {century inCentury : Int} (first : 0 ≤ inCentury)
    (last : inCentury < centuryLength century) :
    let year := floorIndex 1461 0 4 inCentury
    0 ≤ year ∧ year < 100 ∧ yearStart year ≤ inCentury ∧
      inCentury - yearStart year < yearLength century year := by
  intro year
  have year_start : yearStart year ≤ inCentury := floorLine_floorIndex_le (by decide) (by decide)
  have year_end : inCentury < yearStart (year + 1) :=
    lt_floorLine_floorIndex (by decide) (by decide)
  have year_nonneg : 0 ≤ year := (floorLine_le_iff (by decide) (by decide)).mp first
  have year_lt : year < 100 := by
    by_contra late
    have reached : yearStart 100 ≤ inCentury :=
      (floorLine_le_iff (by decide) (by decide)).mpr (Int.not_lt.mp late)
    have century_le : centuryLength century ≤ 36525 := by
      unfold centuryLength
      split <;> omega
    have whole : yearStart 100 = 36525 := rfl
    omega
  have year_min := yearStart_add_yearLength century year_nonneg year_lt
  exact ⟨year_nonneg, year_lt, year_start, by omega⟩

/-- A day of a year lies in one of its months. -/
theorem month_of_inYear {century year inYear : Int} (first : 0 ≤ inYear)
    (last : inYear < yearLength century year) :
    let month := floorIndex 153 2 5 inYear
    0 ≤ month ∧ month < 12 ∧ monthStart month ≤ inYear ∧
      inYear - monthStart month < monthLength century year month := by
  intro month
  have month_start : monthStart month ≤ inYear := floorLine_floorIndex_le (by decide) (by decide)
  have month_end : inYear < monthStart (month + 1) :=
    lt_floorLine_floorIndex (by decide) (by decide)
  have month_nonneg : 0 ≤ month := (floorLine_le_iff (by decide) (by decide)).mp first
  have month_lt : month < 12 := by
    by_contra late
    have reached : monthStart 12 ≤ inYear :=
      (floorLine_le_iff (by decide) (by decide)).mpr (Int.not_lt.mp late)
    have year_le : yearLength century year ≤ 366 := by
      unfold yearLength
      split <;> omega
    have whole : monthStart 12 = 367 := rfl
    omega
  have month_min := monthStart_add_monthLength century year month_nonneg month_lt
  exact ⟨month_nonneg, month_lt, month_start, by omega⟩

/-- Every number is that of a position. -/
theorem exists_position (number : Int) : ∃ century year month day,
    Position century year month day ∧
      number = centuryStart century + (yearStart year + (monthStart month + day)) := by
  let century := floorIndex 146097 0 4 number
  have century_start : centuryStart century ≤ number :=
    floorLine_floorIndex_le (by decide) (by decide)
  have century_end : number < centuryStart (century + 1) :=
    lt_floorLine_floorIndex (by decide) (by decide)
  rw [centuryStart_succ] at century_end
  have in_century : number - centuryStart century < centuryLength century := by omega
  obtain ⟨year_nonneg, year_lt, year_start, year_end⟩ :=
    year_of_inCentury (Int.sub_nonneg.mpr century_start) in_century
  obtain ⟨month_nonneg, month_lt, month_start, month_end⟩ :=
    month_of_inYear (Int.sub_nonneg.mpr year_start) year_end
  refine ⟨century, _, _, _, ⟨year_nonneg, year_lt, month_nonneg, month_lt, ?_, month_end⟩, ?_⟩
  · exact Int.sub_nonneg.mpr month_start
  · omega

theorem dayNumber_ofDayNumber (number : Int) :
    (ofDayNumber number).Valid ∧ (ofDayNumber number).dayNumber = number := by
  obtain ⟨century, year, month, day, position, rfl⟩ := exists_position number
  rw [ofDayNumber_of_position position, dayNumber_ofMarch position]
  exact ⟨position.valid, rfl⟩

theorem ofDayNumber_dayNumber {date : Date} (valid : date.Valid) :
    ofDayNumber date.dayNumber = date := by
  have position := valid.position
  have number := dayNumber_ofMarch position
  have date' := ofDayNumber_of_position position
  have split_year : 100 * (date.marchYear / 100) + date.marchYear % 100 = date.marchYear := by omega
  rw [split_year, ofMarch_march valid] at number date'
  rw [number, date']

/-- The days from 1 March of the year 0 on are those of the numbers that are not negative. -/
theorem Date.Valid.marchYear_nonneg {date : Date} (valid : date.Valid)
    (later : 0 ≤ date.dayNumber) : 0 ≤ date.marchYear := by
  obtain ⟨-, -, year_end, -, -, -⟩ := valid.position.bounds
  have year_le : yearLength (date.marchYear / 100) (date.marchYear % 100) ≤ 366 := by
    unfold yearLength
    split <;> omega
  rw [dayNumber_eq] at later
  by_contra before
  have fourth : date.marchYear / 4 ≤ -1 := by omega
  have fourth_century : date.marchYear / 400 ≤ -1 := by omega
  omega

end Gregorian
