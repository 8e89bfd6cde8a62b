import Dbdky.Utils.Date

/-!
The Julian day numbers of `Date` and the calendar.

The source moves the calendar by 4800 years, a whole number of 400-year cycles, so that
it divides no negative number from 1 March -4800 on. What it calculates is the number of
the moved date, less the Julian day before that day:

* **`date_numbering`.** The two conversions are inverse to each other, without overflow
  and without dividing a negative number, on all dates from 1 March -4800 to the last
  year that allows it and on all numbers up to the last `getYearMonthDay` can take.
-/

namespace Dbdky.Date

open CInt Gregorian

/-- 4800 years later. -/
def moved (date : YearMonthDay) : YearMonthDay := { date with year := date.year + 4800 }

/-- 4800 years earlier. -/
def movedBack (date : YearMonthDay) : YearMonthDay := { date with year := date.year - 4800 }

theorem isLeap_moved (year : Int) : IsLeap (year + 4800) ↔ IsLeap year := by
  unfold IsLeap
  omega

theorem moved_valid {date : YearMonthDay} : (moved date).Valid ↔ date.Valid := by
  have days : daysInMonth (date.year + 4800) date.month = daysInMonth date.year date.month := by
    simp only [daysInMonth, isLeap_moved]
  constructor
  · rintro ⟨first, last, day_pos, day_le⟩
    exact ⟨first, last, day_pos, days ▸ day_le⟩
  · rintro ⟨first, last, day_pos, day_le⟩
    exact ⟨first, last, day_pos, days.symm ▸ day_le⟩

theorem moved_movedBack (date : YearMonthDay) : moved (movedBack date) = date := by
  cases date
  simp [moved, movedBack]

theorem movedBack_moved (date : YearMonthDay) : movedBack (moved date) = date := by
  cases date
  simp [moved, movedBack]

theorem day_le {date : YearMonthDay} (valid : date.Valid) : date.day ≤ 31 := by
  have day_le := valid.day_le
  unfold daysInMonth at day_le
  split at day_le
  · split at day_le <;> omega
  · split at day_le <;> omega

/-! ### What the two conversions calculate -/

/-- The greatest sum that `getJulianDayNumber` comes to is an `int`. -/
def Fits (date : YearMonthDay) : Prop :=
  date.day + (153 * date.marchMonth + 2) / 5 + (moved date).marchYear * 365 +
    (moved date).marchYear / 4 ≤ INT_MAX

instance (date : YearMonthDay) : Decidable (Fits date) := inferInstanceAs (Decidable (_ ≤ _))

theorem fits_of_marchYear {date : YearMonthDay} (valid : date.Valid)
    (last : (moved date).marchYear ≤ 5000000) : Fits date := by
  have month_lt := valid.position.month_lt
  have day_le := day_le valid
  unfold Fits INT_MAX
  omega

theorem getJulianDayNumber_spec {date : YearMonthDay} (valid : date.Valid)
    (first : 0 ≤ (moved date).marchYear) (fits : Fits date) :
    Runs (getJulianDayNumber date.year date.month date.day) ((moved date).dayNumber - 32044) := by
  have runs := getJulianDayNumber_runs date.year (if date.month ≤ 2 then 1 else 0)
    (moved date).marchYear date.marchMonth valid.month_pos valid.month_le valid.day_pos
    (day_le valid) ?_ ?_ ?_ first fits
  · have number : (moved date).dayNumber - 32044 = date.day + (153 * date.marchMonth + 2) / 5 +
        (moved date).marchYear * 365 + (moved date).marchYear / 4 - (moved date).marchYear / 100 +
        (moved date).marchYear / 400 - 32045 := by
      have same : (moved date).marchMonth = date.marchMonth := rfl
      have day : (moved date).day = date.day := rfl
      rw [Gregorian.Date.dayNumber_eq, same, day, monthStart, floorLine]
      omega
    rw [number]
    exact runs
  · have := valid.month_pos
    have := valid.month_le
    split <;> omega
  · unfold Gregorian.Date.marchYear moved
    dsimp only
    split <;> omega
  · unfold Gregorian.Date.marchMonth
    split <;> omega

theorem getYearMonthDay_spec (number : Int) (first : 0 ≤ number + 32044)
    (last : 4 * (number + 32044) + 3 ≤ 2147483647) :
    Runs (getYearMonthDay number) (movedBack (ofDayNumber (number + 32044))) := by
  obtain ⟨century, year, month, day, position, split⟩ := exists_position (number + 32044)
  obtain ⟨in_century, in_year, in_month⟩ := position.index
  obtain ⟨month_start, -, year_end, year_start, -, century_end⟩ := position.bounds
  have year_le : yearLength century year ≤ 366 := by
    unfold yearLength
    split <;> omega
  have century_le : centuryLength century ≤ 36525 := by
    unfold centuryLength
    split <;> omega
  have day_nonneg := position.day_nonneg
  rw [split, ofDayNumber_of_position position]
  have runs := getYearMonthDay_runs (a := number + 32044) (b := century)
    (c := yearStart year + (monthStart month + day)) (d := year) (e := monthStart month + day)
    (m := month) rfl ?_ ?_ ?_ ?_ ?_ first last (by omega) (by omega) (by omega) (by omega)
  · have date : movedBack (ofMarch (100 * century + year) month day) =
        ⟨century * 100 + year - 4800 + month / 10, month + 3 - 12 * (month / 10),
          monthStart month + day - (153 * month + 2) / 5 + 1⟩ := by
      obtain ⟨-, -, month_nonneg, month_lt, -, -⟩ := position
      have start : monthStart month = (153 * month + 2) / 5 := rfl
      unfold ofMarch movedBack
      split <;> simp only [Gregorian.Date.mk.injEq] <;> omega
    rw [date]
    exact runs
  · rw [split]
    exact in_century.symm
  · rw [split, centuryStart, floorLine]
    omega
  · exact in_year.symm
  · rw [yearStart, floorLine]
    omega
  · exact in_month.symm

/-! ### The bijection -/

/-- From 1 March -4800 on. -/
def FromFirst (date : YearMonthDay) : Prop :=
  -4800 < date.year ∨ date.year = -4800 ∧ 3 ≤ date.month

/-- The last year on all of whose days nothing overflows. -/
def lastYear : Int := 1465101

theorem marchYear_moved_nonneg {date : YearMonthDay} (first : FromFirst date) :
    0 ≤ (moved date).marchYear := by
  unfold Gregorian.Date.marchYear moved
  dsimp only
  split <;> rcases first with later | ⟨same, march⟩ <;> omega

theorem marchYear_moved_le {date : YearMonthDay} (last : date.year ≤ lastYear) :
    (moved date).marchYear ≤ 1469901 := by
  unfold lastYear at last
  unfold Gregorian.Date.marchYear moved
  dsimp only
  split <;> omega

theorem dayNumber_bounds {date : YearMonthDay} (valid : date.Valid) (first : FromFirst date)
    (last : date.year ≤ lastYear) :
    0 ≤ (moved date).dayNumber ∧ (moved date).dayNumber ≤ 536870911 := by
  have year_nonneg := marchYear_moved_nonneg first
  have year_le := marchYear_moved_le last
  have position := (moved_valid.mpr valid).position
  have month_nonneg := position.month_nonneg
  have month_lt := position.month_lt
  have day_pos : 1 ≤ (moved date).day := valid.day_pos
  have day_le : (moved date).day ≤ 31 := day_le (moved_valid.mpr valid)
  rw [Gregorian.Date.dayNumber_eq, monthStart, floorLine]
  omega

theorem getYearMonthDay_getJulianDayNumber {date : YearMonthDay} (valid : date.Valid)
    (first : FromFirst date) (last : date.year ≤ lastYear) :
    ∃ n, Runs (getJulianDayNumber date.year date.month date.day) n ∧
      Runs (getYearMonthDay n) date := by
  obtain ⟨low, high⟩ := dayNumber_bounds valid first last
  have number := getJulianDayNumber_spec valid (marchYear_moved_nonneg first)
    (fits_of_marchYear valid ((marchYear_moved_le last).trans (by decide)))
  have date' := getYearMonthDay_spec ((moved date).dayNumber - 32044) (by omega)
    (by omega)
  rw [Int.sub_add_cancel, ofDayNumber_dayNumber (moved_valid.mpr valid), movedBack_moved] at date'
  exact ⟨_, number, date'⟩

theorem getJulianDayNumber_getYearMonthDay {n : Int} (first : -32044 ≤ n)
    (last : 4 * (n + 32044) + 3 ≤ 2147483647) :
    ∃ date, Runs (getYearMonthDay n) date ∧ date.Valid ∧
      Runs (getJulianDayNumber date.year date.month date.day) n := by
  obtain ⟨valid, number⟩ := dayNumber_ofDayNumber (n + 32044)
  have date := getYearMonthDay_spec n (by omega) last
  rw [← moved_movedBack (ofDayNumber (n + 32044))] at valid number
  have valid' := moved_valid.mp valid
  have year := Gregorian.Date.dayNumber_eq (moved (movedBack (ofDayNumber (n + 32044))))
  have first_year := valid.marchYear_nonneg (by omega)
  have month_start := valid.position.bounds.1
  have day_pos := valid.day_pos
  rw [number] at year
  have last_year : (moved (movedBack (ofDayNumber (n + 32044)))).marchYear ≤ 5000000 := by omega
  have number' := getJulianDayNumber_spec valid' first_year (fits_of_marchYear valid' last_year)
  rw [number, Int.add_sub_cancel] at number'
  exact ⟨_, date, valid', number'⟩

/-- **Day numbering is a bijection with the calendar.** -/
theorem date_numbering :
    (∀ date : YearMonthDay, date.Valid → FromFirst date → date.year ≤ lastYear →
      ∃ n, Runs (getJulianDayNumber date.year date.month date.day) n ∧
        Runs (getYearMonthDay n) date) ∧
    (∃ date : YearMonthDay, date.Valid ∧ date.year = lastYear + 1 ∧
      ∃ n, Runs (getJulianDayNumber date.year date.month date.day) n ∧
        Overflows (getYearMonthDay n)) ∧
    ∀ n, -32044 ≤ n → 4 * (n + 32044) + 3 ≤ INT_MAX →
      ∃ date : YearMonthDay, Runs (getYearMonthDay n) date ∧ date.Valid ∧
        Runs (getJulianDayNumber date.year date.month date.day) n := by
  refine ⟨fun date => getYearMonthDay_getJulianDayNumber, ?_,
    fun n => getJulianDayNumber_getYearMonthDay⟩
  -- the last day of the year after
  refine ⟨⟨1465102, 12, 31⟩, ⟨by decide, by decide, by decide, by decide⟩, rfl, 536838941, ?_, ?_⟩
  · intro divided
    cases divided <;> rfl
  · intro divided
    cases divided <;> rfl

end Dbdky.Date
