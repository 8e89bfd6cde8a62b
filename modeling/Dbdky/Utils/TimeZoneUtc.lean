import Dbdky.Utils.DateOrder
import Dbdky.Utils.TimeZoneLocal

/-!
UTC and back.

`toUtcTime` and `fromUtcTime` are what `gmtime_r` and `timegm` are, as long as nothing
overflows. The laws of the pair are those of calendar time.

* **`toUtcTime_spec`, `fromUtcTime_spec`.** The two refine calendar time.
* **`utc_inverse_pair`.** They are inverse to each other on every second of the days that
  `Date` can number, and weekday and day of the year are those of the date.
-/

namespace Dbdky.TimeZone

open CInt

/-- `kSecondsPerDay` -/
def kSecondsPerDay : Int := 24 * 60 * 60

/-- `detail::fillHMS`, on an `unsigned` -/
def fillHMS (seconds : Int) (utc : Tm) : Tm :=
  let minutes := seconds / 60
  { utc with tmSec := seconds % 60, tmMin := minutes % 60, tmHour := minutes / 60 }

/-- A `struct tm` that is all zeros, but for `tm_zone`. -/
def zeroTm : Tm := ⟨0, 0, 0, 0, 0, 0, 0, 0, 0, 0, some [71, 77, 84]⟩

def toUtcTime (secondsSinceEpoch : Int) (yday : Bool) : Calc Tm := do
  let seconds := toInt (secondsSinceEpoch.tmod kSecondsPerDay)
  let days := toInt (secondsSinceEpoch.tdiv kSecondsPerDay)
  let (seconds, days) ← (if seconds < 0 then do
      let seconds ← int seconds + int kSecondsPerDay
      let days ← int days - 1
      pure (seconds, days)
    else pure (seconds, days))
  let utc := fillHMS (toUnsigned seconds) zeroTm
  let julianDayNumber ← int days + Date.kJulianDayOf1970_01_01
  let date : Date := ⟨julianDayNumber⟩
  let ymd ← date.yearMonthDay
  let tmYear ← int ymd.year - 1900
  let tmMon ← int ymd.month - 1
  let tmWday ← date.weekDay
  let utc := { utc with tmYear, tmMon, tmMday := ymd.day, tmWday }
  if yday then do
    let startOfYear ← Date.new ymd.year 1 1
    let tmYday ← int date.julianDayNumber - int startOfYear.julianDayNumber
    pure { utc with tmYday }
  else pure utc

/-- `fromUtcTime` of year, month, day, hour, minute and seconds -/
def fromUtcFields (year month day hour minute seconds : Int) : Calc Int := do
  let date ← Date.new year month day
  let secondsInDay ← int hour * 3600 + int minute * 60 + int seconds
  let days ← int date.julianDayNumber - Date.kJulianDayOf1970_01_01
  pure (days * kSecondsPerDay + secondsInDay)

def fromUtcTime (utc : Tm) : Calc Int := do
  let year ← int utc.tmYear + 1900
  let month ← int utc.tmMon + 1
  fromUtcFields year month utc.tmMday utc.tmHour utc.tmMin utc.tmSec

/-! ### Calendar time -/

/-- The date in a `struct tm`. -/
def Tm.date (utc : Tm) : Gregorian.Date := ⟨utc.tmYear + 1900, utc.tmMon + 1, utc.tmMday⟩

/-- Hour, minute and second are those of a day. -/
structure Tm.TimeOfDay (utc : Tm) : Prop where
  sec_nonneg : 0 ≤ utc.tmSec
  sec_lt : utc.tmSec < 60
  min_nonneg : 0 ≤ utc.tmMin
  min_lt : utc.tmMin < 60
  hour_nonneg : 0 ≤ utc.tmHour
  hour_lt : utc.tmHour < 24

variable {utc : Tm} {t : Int}

theorem date_gmtimeR (t : Int) : (gmtimeR t).date = Gregorian.ofDayNumber (t / 86400 + epoch) := by
  simp [gmtimeR, Tm.date]

theorem timeOfDay_gmtimeR (t : Int) : (gmtimeR t).TimeOfDay := by
  constructor <;> simp only [gmtimeR] <;> omega

theorem timegm_eq (valid : utc.date.Valid) :
    timegm utc = 86400 * (utc.date.dayNumber - epoch) +
      (3600 * utc.tmHour + 60 * utc.tmMin + utc.tmSec) := by
  have month_pos : 1 ≤ utc.tmMon + 1 := valid.month_pos
  have month_le : utc.tmMon + 1 ≤ 12 := valid.month_le
  have year : utc.tmYear + 1900 + utc.tmMon / 12 = utc.date.year := by
    change _ = utc.tmYear + 1900
    omega
  have month : utc.tmMon % 12 + 1 = utc.date.month := by
    change _ = utc.tmMon + 1
    omega
  have first := dayNumber_first utc.date
  have day : utc.date.day = utc.tmMday := rfl
  simp only [timegm, year, month]
  omega

/-- `gmtime_r` undoes `timegm` on the fields that `timegm` looks at. -/
theorem gmtimeR_timegm (valid : utc.date.Valid) (time : utc.TimeOfDay) :
    (gmtimeR (timegm utc)).date = utc.date ∧ (gmtimeR (timegm utc)).tmHour = utc.tmHour ∧
      (gmtimeR (timegm utc)).tmMin = utc.tmMin ∧ (gmtimeR (timegm utc)).tmSec = utc.tmSec := by
  obtain ⟨sec_nonneg, sec_lt, min_nonneg, min_lt, hour_nonneg, hour_lt⟩ := time
  have seconds := timegm_eq valid
  have days : timegm utc / 86400 + epoch = utc.date.dayNumber := by omega
  refine ⟨?_, ?_, ?_, ?_⟩
  · rw [date_gmtimeR, days, Gregorian.ofDayNumber_dayNumber valid]
  · change timegm utc / 3600 % 24 = _
    omega
  · change timegm utc / 60 % 60 = _
    omega
  · change timegm utc % 60 = _
    omega

theorem weekDay_gmtimeR (t : Int) : (gmtimeR t).tmWday = (gmtimeR t).date.weekDay := by
  rw [date_gmtimeR, Gregorian.Date.weekDay, (Gregorian.dayNumber_ofDayNumber _).2, epoch]
  change (t / 86400 + 4) % 7 = _
  omega

/-- The days since 1 January. -/
theorem yday_gmtimeR (t : Int) : 0 ≤ (gmtimeR t).tmYday ∧
    Gregorian.Date.next^[(gmtimeR t).tmYday.toNat] ⟨(gmtimeR t).date.year, 1, 1⟩ =
      (gmtimeR t).date := by
  obtain ⟨valid, number⟩ := Gregorian.dayNumber_ofDayNumber (t / 86400 + epoch)
  rw [date_gmtimeR]
  have yday : (gmtimeR t).tmYday = t / 86400 + epoch -
    Gregorian.Date.dayNumber ⟨(Gregorian.ofDayNumber (t / 86400 + epoch)).year, 1, 1⟩ := rfl
  have january := Gregorian.january_dayNumber_le valid
  have nonneg : 0 ≤ (gmtimeR t).tmYday := by omega
  refine ⟨nonneg, (Gregorian.next_iterate_iff (Gregorian.january_valid _) valid _).mpr ?_⟩
  rw [Int.toNat_of_nonneg nonneg, yday, number]

/-! ### What the two calculate -/

theorem kJulianDayOf1970_01_01_runs : Runs Date.kJulianDayOf1970_01_01 2440588 := by
  have first : Date.FromFirst ⟨1970, 1, 1⟩ := .inl (by decide)
  have runs := Date.number_spec (Gregorian.january_valid 1970) first (by decide)
  have julianDay : Gregorian.Date.julianDay ⟨1970, 1, 1⟩ = 2440588 := by decide
  rw [julianDay] at runs
  exact runs

/-- The years of the days that `Date` can number, from 0 on. -/
theorem year_bounds {date : Gregorian.Date} (valid : date.Valid) (first : 0 ≤ date.julianDay)
    (last : date.julianDay ≤ 536838866) : -4800 < date.year ∧ date.year ≤ 1500000 := by
  have month_nonneg := valid.position.month_nonneg
  have month_lt := valid.position.month_lt
  have day_pos := valid.day_pos
  have day_le := Date.day_le valid
  have year_le : date.marchYear ≤ date.year := by
    unfold Gregorian.Date.marchYear
    split <;> omega
  have le_year : date.year ≤ date.marchYear + 1 := by
    unfold Gregorian.Date.marchYear
    split <;> omega
  rw [Gregorian.Date.julianDay, Gregorian.Date.dayNumber_eq, Gregorian.monthStart,
    Gregorian.floorLine] at first last
  omega

/-- The days of a year with such days are numbered. -/
theorem new_runs {date : Gregorian.Date} (valid : date.Valid) (first : -4800 < date.year)
    (last : date.year ≤ 1500000) :
    Runs (Date.new date.year date.month date.day) ⟨date.julianDay⟩ := by
  have marchYear_le : (Date.moved date).marchYear ≤ 5000000 := by
    unfold Gregorian.Date.marchYear Date.moved
    dsimp only
    split <;> omega
  have fits := Date.fits_of_marchYear valid marchYear_le
  exact (Date.number_spec valid (.inl first) fits).bind (.pure _)

/-- The two ways to write the seconds of the day and the days before it. -/
theorem seconds_days (t : Int) (first : -2440588 ≤ t / 86400) (last : t / 86400 ≤ 534398278) :
    Runs (if toInt (t.tmod kSecondsPerDay) < 0 then do
        let seconds ← int (toInt (t.tmod kSecondsPerDay)) + int kSecondsPerDay
        let days ← int (toInt (t.tdiv kSecondsPerDay)) - 1
        pure (seconds, days)
      else pure (toInt (t.tmod kSecondsPerDay), toInt (t.tdiv kSecondsPerDay)))
      (t % 86400, t / 86400) := by
  have perDay : kSecondsPerDay = 86400 := rfl
  rw [perDay]
  have parts := Int.tmod_add_mul_tdiv t 86400
  have above := Int.lt_tmod_of_pos t (show (0 : Int) < 86400 by decide)
  have below := Int.tmod_lt_of_pos t (show (0 : Int) < 86400 by decide)
  generalize t.tmod 86400 = seconds at parts above below ⊢
  generalize t.tdiv 86400 = days at parts ⊢
  rw [toInt_eq (by omega) (by omega), toInt_eq (by omega) (by omega)]
  split
  case isTrue negative =>
    have seconds_eq : t % 86400 = seconds + 86400 := by omega
    have days_eq : t / 86400 = days - 1 := by omega
    rw [seconds_eq, days_eq]
    have seconds_runs : Runs (int seconds + int 86400) (seconds + 86400) :=
      .add (.int seconds) (.int 86400) (by omega) (by omega)
    have days_runs : Runs (int days - 1) (days - 1) :=
      .sub (.int days) (.lit 1) (by omega) (by omega)
    exact seconds_runs.bind (days_runs.bind (.pure _))
  case isFalse nonneg =>
    have seconds_eq : t % 86400 = seconds := by omega
    have days_eq : t / 86400 = days := by omega
    rw [seconds_eq, days_eq]
    exact .pure _

theorem fillHMS_spec (t : Int) (utc : Tm) :
    fillHMS (toUnsigned (t % 86400)) utc =
      { utc with tmSec := t % 60, tmMin := t / 60 % 60, tmHour := t / 3600 % 24 } := by
  have sec : t % 86400 % 60 = t % 60 := by omega
  have min : t % 86400 / 60 % 60 = t / 60 % 60 := by omega
  have hour : t % 86400 / 60 / 60 = t / 3600 % 24 := by omega
  rw [toUnsigned_eq (by omega) (by omega)]
  simp only [fillHMS, sec, min, hour]

/-- `toUtcTime` is `gmtime_r`, up to the day of the year where it is not asked for. -/
theorem toUtcTime_spec (t : Int) (yday : Bool) (first : 0 ≤ t / 86400 + 2440588)
    (last : t / 86400 + 2440588 ≤ 536838866) :
    Runs (toUtcTime t yday)
      { gmtimeR t with tmYday := if yday then (gmtimeR t).tmYday else 0 } := by
  obtain ⟨valid, number⟩ := Gregorian.dayNumber_ofDayNumber (t / 86400 + epoch)
  have shift : t / 86400 + 2440588 - 1721120 = t / 86400 + epoch := by
    rw [epoch]
    omega
  have ymd_runs := Date.getYearMonthDay_runs_julianDay (t / 86400 + 2440588) (by omega) (by omega)
  rw [shift] at ymd_runs
  have julianDay : (Gregorian.ofDayNumber (t / 86400 + epoch)).julianDay = t / 86400 + 2440588 := by
    rw [Gregorian.Date.julianDay, number]
    omega
  obtain ⟨year_first, year_last⟩ := year_bounds valid (by omega) (by omega)
  have month_pos := valid.month_pos
  have month_le := valid.month_le
  have january : Gregorian.Date.julianDay ⟨_, 1, 1⟩ ≤ _ :=
    Int.add_le_add_right (Gregorian.january_dayNumber_le valid) 1721120
  have wday : (t / 86400 + 2440588 + 1) % 7 = (t / 86400 + 4) % 7 := by omega
  have gmt : gmtimeR t = { zeroTm with
      tmSec := t % 60, tmMin := t / 60 % 60, tmHour := t / 3600 % 24
      tmMday := (Gregorian.ofDayNumber (t / 86400 + epoch)).day
      tmMon := (Gregorian.ofDayNumber (t / 86400 + epoch)).month - 1
      tmYear := (Gregorian.ofDayNumber (t / 86400 + epoch)).year - 1900
      tmWday := (t / 86400 + 2440588 + 1) % 7
      tmYday := t / 86400 + 2440588 - Gregorian.Date.julianDay
        ⟨(Gregorian.ofDayNumber (t / 86400 + epoch)).year, 1, 1⟩ } := by
    rw [wday, ← julianDay]
    simp only [gmtimeR, Gregorian.Date.julianDay, number, Int.add_sub_add_right]
    rfl
  rw [gmt]
  generalize Gregorian.ofDayNumber (t / 86400 + epoch) = date at *
  change Gregorian.Date.julianDay ⟨date.year, 1, 1⟩ ≤ date.julianDay at january
  unfold toUtcTime
  refine (seconds_days t (by omega) (by omega)).bind ?_
  dsimp only
  rw [fillHMS_spec]
  refine .bind (.add (.int _) kJulianDayOf1970_01_01_runs (by omega) (by omega)) ?_
  refine ymd_runs.bind ?_
  have year_runs : Runs (int date.year - 1900) (date.year - 1900) :=
    .sub (.int date.year) (.lit 1900) (by omega) (by omega)
  have month_runs : Runs (int date.month - 1) (date.month - 1) :=
    .sub (.int date.month) (.lit 1) (by omega) (by omega)
  refine year_runs.bind (month_runs.bind ((Date.weekDay_runs (by omega) (by omega)).bind ?_))
  cases yday with
  | false => exact .pure _
  | true =>
      refine (new_runs (Gregorian.january_valid date.year) year_first year_last).bind ?_
      have january_first := Date.julianDay_ge (Gregorian.january_valid date.year) (.inl year_first)
      have yday_runs := Runs.sub (.int (t / 86400 + 2440588))
        (.int (Gregorian.Date.julianDay ⟨date.year, 1, 1⟩)) (by omega) (by omega)
      exact yday_runs.bind (.pure _)

theorem fromUtcTime_spec (valid : utc.date.Valid) (time : utc.TimeOfDay)
    (first : 0 ≤ utc.date.julianDay) (last : utc.date.julianDay ≤ 536838866) :
    Runs (fromUtcTime utc) (timegm utc) := by
  obtain ⟨year_first, year_last⟩ := year_bounds valid first last
  have date_runs := new_runs valid year_first year_last
  have seconds := timegm_eq valid
  obtain ⟨sec_nonneg, sec_lt, min_nonneg, min_lt, hour_nonneg, hour_lt⟩ := time
  have month_pos : 1 ≤ utc.tmMon + 1 := valid.month_pos
  have month_le : utc.tmMon + 1 ≤ 12 := valid.month_le
  change -4800 < utc.tmYear + 1900 at year_first
  change utc.tmYear + 1900 ≤ 1500000 at year_last
  have year_runs : Runs (int utc.tmYear + 1900) (utc.tmYear + 1900) :=
    .add (.int utc.tmYear) (.lit 1900) (by omega) (by omega)
  have month_runs : Runs (int utc.tmMon + 1) (utc.tmMon + 1) :=
    .add (.int utc.tmMon) (.lit 1) (by omega) (by omega)
  have hour_runs : Runs (int utc.tmHour * 3600) (utc.tmHour * 3600) :=
    .mul (.int utc.tmHour) (.lit 3600) (by omega) (by omega)
  have min_runs : Runs (int utc.tmMin * 60) (utc.tmMin * 60) :=
    .mul (.int utc.tmMin) (.lit 60) (by omega) (by omega)
  have inDay_runs : Runs (int utc.tmHour * 3600 + int utc.tmMin * 60 + int utc.tmSec)
      (utc.tmHour * 3600 + utc.tmMin * 60 + utc.tmSec) :=
    .add (.add hour_runs min_runs (by omega) (by omega)) (.int utc.tmSec) (by omega) (by omega)
  have days_runs : Runs (int utc.date.julianDay - Date.kJulianDayOf1970_01_01)
      (utc.date.julianDay - 2440588) :=
    .sub (.int _) kJulianDayOf1970_01_01_runs (by omega) (by omega)
  have same : timegm utc = (utc.date.julianDay - 2440588) * kSecondsPerDay +
      (utc.tmHour * 3600 + utc.tmMin * 60 + utc.tmSec) := by
    rw [seconds, Gregorian.Date.julianDay, epoch, kSecondsPerDay]
    omega
  rw [same]
  unfold fromUtcTime fromUtcFields
  refine year_runs.bind (month_runs.bind (date_runs.bind ?_))
  exact inDay_runs.bind (days_runs.bind (.pure _))

/-! ### The pair -/

/-- **UTC conversion is a correct inverse pair.** -/
theorem utc_inverse_pair :
    (∀ t, 0 ≤ t / 86400 + 2440588 → t / 86400 + 2440588 ≤ 536838866 →
      ∃ utc, Runs (toUtcTime t true) utc ∧ utc.TimeOfDay ∧ utc.date.Valid ∧
        utc.tmWday = utc.date.weekDay ∧ 0 ≤ utc.tmYday ∧
        Gregorian.Date.next^[utc.tmYday.toNat] ⟨utc.date.year, 1, 1⟩ = utc.date ∧
        Runs (fromUtcTime utc) t) ∧
    ∀ (utc : Tm) (yday : Bool), utc.date.Valid → utc.TimeOfDay → 0 ≤ utc.date.julianDay →
      utc.date.julianDay ≤ 536838866 →
      ∃ t back, Runs (fromUtcTime utc) t ∧ Runs (toUtcTime t yday) back ∧
        back.date = utc.date ∧ back.tmHour = utc.tmHour ∧ back.tmMin = utc.tmMin ∧
        back.tmSec = utc.tmSec := by
  constructor
  · intro t first last
    obtain ⟨valid, number⟩ := Gregorian.dayNumber_ofDayNumber (t / 86400 + epoch)
    have julianDay : (Gregorian.ofDayNumber (t / 86400 + epoch)).julianDay =
        t / 86400 + 2440588 := by
      rw [Gregorian.Date.julianDay, number, epoch]
      omega
    rw [← date_gmtimeR] at valid julianDay
    have back := fromUtcTime_spec valid (timeOfDay_gmtimeR t) (by omega) (by omega)
    have seconds : timegm (gmtimeR t) = t := timegm_gmtimeR t _ _ _
    rw [seconds] at back
    obtain ⟨yday_nonneg, yday⟩ := yday_gmtimeR t
    exact ⟨gmtimeR t, toUtcTime_spec t true first last, timeOfDay_gmtimeR t, valid,
      weekDay_gmtimeR t, yday_nonneg, yday, back⟩
  · intro utc yday valid time first last
    have seconds := timegm_eq valid
    have days : timegm utc / 86400 + 2440588 = utc.date.julianDay := by
      obtain ⟨sec_nonneg, sec_lt, min_nonneg, min_lt, hour_nonneg, hour_lt⟩ := time
      rw [Gregorian.Date.julianDay]
      rw [epoch] at seconds
      omega
    have back := toUtcTime_spec (timegm utc) yday (by omega) (by omega)
    exact ⟨timegm utc, _, fromUtcTime_spec valid time first last, back, gmtimeR_timegm valid time⟩

end Dbdky.TimeZone
