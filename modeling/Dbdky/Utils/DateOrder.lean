import Dbdky.Gregorian.Succession
import Dbdky.Utils.DateNumbering

/-!
The order of the Julian day numbers of `Date`.

* **`fits_iff`.** `getJulianDayNumber` overflows on exactly the dates whose greatest sum is
  no `int`.
* **`julianDayNumbers_follow_calendar`.** The day after a date has the next number, dates
  are compared by year, month and day, and the days of the week follow one another.
-/

namespace Dbdky.Date

open CInt Gregorian

variable {date : YearMonthDay}

/-- `getJulianDayNumber` of a date. -/
def number (date : YearMonthDay) : Calc Int := getJulianDayNumber date.year date.month date.day

/-- `Date` of a date. -/
def ofYearMonthDay (date : YearMonthDay) : Calc Date := new date.year date.month date.day

/-! ### Overflow -/

theorem fits_of_not_overflows (valid : date.Valid) (first : FromFirst date)
    (fits : ¬ Overflows (number date)) : Fits date := by
  have month_nonneg := valid.position.month_nonneg
  have month_lt := valid.position.month_lt
  have y_nonneg := marchYear_moved_nonneg first
  have day_le := day_le valid
  obtain ⟨month_pos, month_le, day_pos, -⟩ := valid
  generalize a_eq : (14 - date.month) / 12 = a
  have y_eq : (moved date).marchYear = date.year + 4800 - a := by
    unfold Gregorian.Date.marchYear moved
    dsimp only
    split <;> omega
  have m_eq : date.marchMonth = date.month + 12 * a - 3 := by
    unfold Gregorian.Date.marchMonth
    split <;> omega
  unfold Fits INT_MAX
  generalize (moved date).marchYear = y at y_eq y_nonneg ⊢
  generalize date.marchMonth = m at m_eq month_nonneg month_lt ⊢
  have a_runs : Runs ((14 - int date.month) / 12) a := by
    rw [← a_eq]
    exact .div (.sub (.lit 14) (.int date.month) (by omega) (by omega)) (.lit 12) (by omega)
      (by omega) (by decide)
  have from_y := mt a_runs.bind_overflows fits
  have moved_range : _ ≤ date.year + 4800 ∧ date.year + 4800 ≤ _ :=
    range_of_not_overflows (f := (· + ·)) (.int date.year) (.lit 4800)
      fun overflows => from_y ((overflows.sub_left _).bind _)
  have y_runs : Runs (int date.year + 4800 - int a) y := by
    rw [y_eq]
    exact .sub (.add (.int date.year) (.lit 4800) moved_range.1 moved_range.2) (.int a)
      (by omega) (by omega)
  have m_runs : Runs (int date.month + 12 * int a - 3) m := by
    rw [m_eq]
    exact .sub (.add (.int date.month) (.mul (.lit 12) (.int a) (by omega) (by omega)) (by omega)
      (by omega)) (.lit 3) (by omega) (by omega)
  have from_m := mt y_runs.bind_overflows from_y
  have from_sum := mt m_runs.bind_overflows from_m
  -- the operands from the left, up to the greatest sum
  have month_start : Runs ((153 * int m + 2) / 5) ((153 * m + 2) / 5) :=
    .div (.add (.mul (.lit 153) (.int m) (by omega) (by omega)) (.lit 2) (by omega) (by omega))
      (.lit 5) (by omega) (by omega) (by decide)
  have days : Runs (int date.day + (153 * int m + 2) / 5) (date.day + (153 * m + 2) / 5) :=
    .add (.int date.day) month_start (by omega) (by omega)
  have from_fourths : ¬ Overflows (int date.day + (153 * int m + 2) / 5 + int y * 365 +
      int y / 4) :=
    fun overflows => from_sum (((overflows.sub_left _).add_left _).sub_left _)
  have from_years : ¬ Overflows (int date.day + (153 * int m + 2) / 5 + int y * 365) :=
    fun overflows => from_fourths (overflows.add_left _)
  have product := range_of_not_overflows (f := (· * ·)) (.int y) (.lit 365)
    fun overflows => from_years (days.bind_overflows (overflows.bind _))
  have years := Runs.mul (.int y) (.lit 365) product.1 product.2
  have sum := range_of_not_overflows (f := (· + ·)) days years from_years
  have fourths : Runs (int y / 4) (y / 4) :=
    .div (.int y) (.lit 4) y_nonneg (by omega) (by decide)
  exact (range_of_not_overflows (f := (· + ·)) (.add days years sum.1 sum.2) fourths
    from_fourths).2

/-- 4800 years are twelve cycles of the calendar. -/
theorem dayNumber_moved (date : YearMonthDay) :
    (moved date).dayNumber = date.dayNumber + 12 * 146097 := by
  have month : (moved date).marchMonth = date.marchMonth := rfl
  have day : (moved date).day = date.day := rfl
  have year : (moved date).marchYear = date.marchYear + 4800 := by
    unfold Gregorian.Date.marchYear moved
    dsimp only
    split <;> omega
  rw [Gregorian.Date.dayNumber_eq, Gregorian.Date.dayNumber_eq, month, day, year]
  omega

theorem julianDay_eq (date : YearMonthDay) : (moved date).dayNumber - 32044 = date.julianDay := by
  rw [dayNumber_moved, Gregorian.Date.julianDay]
  omega

theorem number_spec (valid : date.Valid) (first : FromFirst date) (fits : Fits date) :
    Runs (number date) date.julianDay := by
  rw [← julianDay_eq]
  exact getJulianDayNumber_spec valid (marchYear_moved_nonneg first) fits

theorem fits_iff (valid : date.Valid) (first : FromFirst date) :
    Fits date ↔ ¬ Overflows (number date) := by
  constructor
  · intro fits
    exact (number_spec valid first fits).not_overflows
  · exact fits_of_not_overflows valid first

theorem julianDay_ge (valid : date.Valid) (first : FromFirst date) : -32044 ≤ date.julianDay := by
  have year_nonneg := marchYear_moved_nonneg first
  have position := (moved_valid.mpr valid).position
  have month_nonneg := position.month_nonneg
  have day_nonneg := position.day_nonneg
  rw [← julianDay_eq, Gregorian.Date.dayNumber_eq, monthStart, floorLine]
  omega

theorem movedBack_ofDayNumber (n : Int) :
    movedBack (ofDayNumber (n + 12 * 146097)) = ofDayNumber n := by
  obtain ⟨valid, same⟩ := dayNumber_ofDayNumber n
  have later := dayNumber_moved (ofDayNumber n)
  rw [same] at later
  rw [← later, ofDayNumber_dayNumber (moved_valid.mpr valid), movedBack_moved]

theorem getYearMonthDay_runs_julianDay (n : Int) (first : 0 ≤ n + 32044)
    (last : 4 * (n + 32044) + 3 ≤ 2147483647) :
    Runs (getYearMonthDay n) (ofDayNumber (n - 1721120)) := by
  have runs := getYearMonthDay_spec n first last
  have shift : n + 32044 = n - 1721120 + 12 * 146097 := by omega
  rwa [shift, movedBack_ofDayNumber] at runs

/-! ### The day after -/

theorem moved_next (date : YearMonthDay) : moved date.next = (moved date).next := by
  obtain ⟨year, month, day⟩ := date
  have days : daysInMonth (year + 4800) month = daysInMonth year month := by
    simp only [daysInMonth, isLeap_moved]
  change moved (Gregorian.Date.next ⟨year, month, day⟩) =
    Gregorian.Date.next ⟨year + 4800, month, day⟩
  unfold Gregorian.Date.next
  dsimp only
  rw [days]
  split
  · rfl
  · split
    · rfl
    · simp only [moved, Int.add_right_comm]

theorem FromFirst.next (first : FromFirst date) (valid : date.Valid) : FromFirst date.next := by
  have month_pos := valid.month_pos
  unfold FromFirst Gregorian.Date.next
  split
  · exact first
  · split
    · dsimp only
      rcases first with later | ⟨same, march⟩ <;> omega
    · dsimp only
      rcases first with later | ⟨same, march⟩ <;> omega

/-- The sums grow from day to day. -/
theorem Fits.of_next (valid : date.Valid) (fits : Fits date.next) : Fits date := by
  have step := dayNumber_next (moved_valid.mpr valid)
  have later := marchYear_le_next (moved date)
  unfold Fits at *
  have month : (moved date).marchMonth = date.marchMonth := rfl
  have day : (moved date).day = date.day := rfl
  have next_month : (moved date.next).marchMonth = date.next.marchMonth := rfl
  have next_day : (moved date.next).day = date.next.day := rfl
  rw [← moved_next] at step later
  rw [Gregorian.Date.dayNumber_eq, Gregorian.Date.dayNumber_eq, monthStart, floorLine, floorLine,
    month, day, next_month, next_day] at step
  omega

theorem number_next (valid : date.Valid) (first : FromFirst date)
    (fits : ¬ Overflows (number date.next)) :
    ∃ n, Runs (number date) n ∧ Runs (number date.next) (n + 1) := by
  have next_fits := fits_of_not_overflows valid.next (first.next valid) fits
  have next_runs := number_spec valid.next (first.next valid) next_fits
  rw [julianDay_next valid] at next_runs
  exact ⟨_, number_spec valid first (next_fits.of_next valid), next_runs⟩

/-! ### Comparisons -/

theorem ofYearMonthDay_runs {n : Int} (runs : Runs (number date) n) :
    Runs (ofYearMonthDay date) ⟨n⟩ :=
  runs.bind (.pure _)

theorem ofYearMonthDay_spec {x : Date} (valid : date.Valid) (first : FromFirst date)
    (runs : Runs (ofYearMonthDay date) x) : Fits date ∧ x = ⟨date.julianDay⟩ := by
  have not_over : ¬ Overflows (number date) :=
    fun overflows => runs.not_overflows (overflows.bind _)
  have fits := fits_of_not_overflows valid first not_over
  exact ⟨fits, runs.unique (ofYearMonthDay_runs (number_spec valid first fits))⟩

theorem less_iff {d e : YearMonthDay} {x y : Date} (d_valid : d.Valid) (e_valid : e.Valid)
    (d_first : FromFirst d) (e_first : FromFirst e) (x_runs : Runs (ofYearMonthDay d) x)
    (y_runs : Runs (ofYearMonthDay e) y) : x.less y = true ↔ d.key < e.key := by
  obtain ⟨-, rfl⟩ := ofYearMonthDay_spec d_valid d_first x_runs
  obtain ⟨-, rfl⟩ := ofYearMonthDay_spec e_valid e_first y_runs
  rw [key_lt_key_iff d_valid e_valid, less, decide_eq_true_iff]
  exact Int.add_lt_add_iff_right _

theorem equal_iff {d e : YearMonthDay} {x y : Date} (d_valid : d.Valid) (e_valid : e.Valid)
    (d_first : FromFirst d) (e_first : FromFirst e) (x_runs : Runs (ofYearMonthDay d) x)
    (y_runs : Runs (ofYearMonthDay e) y) : x.equal y = true ↔ d = e := by
  obtain ⟨-, rfl⟩ := ofYearMonthDay_spec d_valid d_first x_runs
  obtain ⟨-, rfl⟩ := ofYearMonthDay_spec e_valid e_first y_runs
  rw [eq_iff_dayNumber d_valid e_valid, equal, decide_eq_true_iff]
  exact Int.add_left_inj _

/-! ### Days of the week -/

theorem weekDay_runs {n : Int} (nonneg : 0 ≤ n) (last : n < 2147483647) :
    Runs (weekDay ⟨n⟩) ((n + 1) % 7) :=
  .mod (.add (.int n) (.lit 1) (by omega) (by omega)) (.int 7) (by omega) (by omega) (by decide)

theorem julianDay_lt_of_fits (first : FromFirst date) (fits : Fits date) :
    date.julianDay < 2147483647 := by
  have year_nonneg := marchYear_moved_nonneg first
  have month : (moved date).marchMonth = date.marchMonth := rfl
  have day : (moved date).day = date.day := rfl
  unfold Fits INT_MAX at fits
  rw [← julianDay_eq, Gregorian.Date.dayNumber_eq, monthStart, floorLine, month, day]
  omega

theorem weekDay_spec {x : Date} (valid : date.Valid) (first : FromFirst date)
    (runs : Runs (ofYearMonthDay date) x) (nonneg : 0 ≤ x.julianDayNumber) :
    Runs x.weekDay date.weekDay := by
  obtain ⟨fits, rfl⟩ := ofYearMonthDay_spec valid first runs
  rw [weekDay_eq]
  exact weekDay_runs nonneg (julianDay_lt_of_fits first fits)

/-- **Julian day numbers follow the calendar.** -/
theorem julianDayNumbers_follow_calendar :
    (∀ d : YearMonthDay, d.Valid → FromFirst d → ¬ Overflows (number d.next) →
      ∃ n, Runs (number d) n ∧ Runs (number d.next) (n + 1)) ∧
    (∀ (d e : YearMonthDay) (x y : Date), d.Valid → e.Valid → FromFirst d → FromFirst e →
      Runs (ofYearMonthDay d) x → Runs (ofYearMonthDay e) y →
      (x.less y = true ↔ d.key < e.key) ∧ (x.equal y = true ↔ d.key = e.key)) ∧
    ∀ (d : YearMonthDay) (x y : Date), d.Valid → FromFirst d →
      Runs (ofYearMonthDay d) x → Runs (ofYearMonthDay d.next) y → 0 ≤ x.julianDayNumber →
      ∃ day, 0 ≤ day ∧ day < 7 ∧ Runs x.weekDay day ∧ Runs y.weekDay ((day + 1) % 7) := by
  refine ⟨fun d => number_next, ?_, ?_⟩
  · intro d e x y d_valid e_valid d_first e_first x_runs y_runs
    refine ⟨less_iff d_valid e_valid d_first e_first x_runs y_runs, ?_⟩
    rw [equal_iff d_valid e_valid d_first e_first x_runs y_runs, key_inj]
  · intro d x y valid first x_runs y_runs nonneg
    refine ⟨d.weekDay, Int.emod_nonneg _ (by decide), Int.emod_lt_of_pos _ (by decide),
      weekDay_spec valid first x_runs nonneg, ?_⟩
    have y_nonneg : 0 ≤ y.julianDayNumber := by
      obtain ⟨-, rfl⟩ := ofYearMonthDay_spec valid first x_runs
      obtain ⟨-, rfl⟩ := ofYearMonthDay_spec valid.next (first.next valid) y_runs
      rw [julianDay_next valid]
      exact Int.le_add_one nonneg
    rw [← weekDay_next valid]
    exact weekDay_spec valid.next (first.next valid) y_runs y_nonneg

end Dbdky.Date
