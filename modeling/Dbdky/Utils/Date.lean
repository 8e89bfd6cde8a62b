import Dbdky.CInt.Calc
import Dbdky.Gregorian.Calendar

/-!
`Date` (`src/utils/Date.{h,cpp}`): a day as its Julian day number.

The two conversions are calculations on `int`, so they say themselves where they
overflow and whether they divide a negative number.
-/

namespace Dbdky

open CInt

structure Date where
  julianDayNumber : Int
deriving DecidableEq, Repr

namespace Date

/-- `Date::YearMonthDay` -/
abbrev YearMonthDay := Gregorian.Date

/-- `detail::getJulianDayNumber` -/
def getJulianDayNumber (year month day : Int) : Calc Int := do
  let a ← (14 - int month) / 12
  let y ← int year + 4800 - int a
  let m ← int month + 12 * int a - 3
  int day + (153 * int m + 2) / 5 + int y * 365 + int y / 4 - int y / 100 + int y / 400 - 32045

/-- `detail::getYearMonthDay` -/
def getYearMonthDay (julianDayNumber : Int) : Calc YearMonthDay := do
  let a ← int julianDayNumber + 32044
  let b ← (4 * int a + 3) / 146097
  let c ← int a - int b * 146097 / 4
  let d ← (4 * int c + 3) / 1461
  let e ← int c - 1461 * int d / 4
  let m ← (5 * int e + 2) / 153
  let day ← int e - (153 * int m + 2) / 5 + 1
  let month ← int m + 3 - 12 * (int m / 10)
  let year ← int b * 100 + int d - 4800 + int m / 10
  pure ⟨year, month, day⟩

/-- `Date(year, month, day)` -/
def new (year month day : Int) : Calc Date := do
  let julianDayNumber ← getJulianDayNumber year month day
  pure ⟨julianDayNumber⟩

def yearMonthDay (date : Date) : Calc YearMonthDay := getYearMonthDay date.julianDayNumber

def kDaysPerWeek : Int := 7

def weekDay (date : Date) : Calc Int := (int date.julianDayNumber + 1) % int kDaysPerWeek

/-- `operator<` -/
def less (x y : Date) : Bool := decide (x.julianDayNumber < y.julianDayNumber)

/-- `operator==` -/
def equal (x y : Date) : Bool := decide (x.julianDayNumber = y.julianDayNumber)

/-- A constant, calculated at the start of the program. -/
def kJulianDayOf1970_01_01 : Calc Int := getJulianDayNumber 1970 1 1

/-! ### What they calculate -/

theorem getJulianDayNumber_runs (year a y m : Int) {month day : Int} (month_pos : 1 ≤ month)
    (month_le : month ≤ 12) (day_pos : 1 ≤ day) (day_le : day ≤ 31)
    (a_eq : a = (14 - month) / 12) (y_eq : y = year + 4800 - a) (m_eq : m = month + 12 * a - 3)
    (y_nonneg : 0 ≤ y) (fits : day + (153 * m + 2) / 5 + y * 365 + y / 4 ≤ 2147483647) :
    Runs (getJulianDayNumber year month day)
      (day + (153 * m + 2) / 5 + y * 365 + y / 4 - y / 100 + y / 400 - 32045) := by
  have m_nonneg : 0 ≤ m := by omega
  have m_le : m ≤ 11 := by omega
  refine .bind (v := a) ?_ (.bind (v := y) ?_ (.bind (v := m) ?_ ?_))
  · rw [a_eq]
    exact .div (.sub (.lit 14) (.int month) (by omega) (by omega)) (.lit 12) (by omega) (by omega)
      (by decide)
  · rw [y_eq]
    exact .sub (.add (.int year) (.lit 4800) (by omega) (by omega)) (.int a) (by omega) (by omega)
  · rw [m_eq]
    exact .sub (.add (.int month) (.mul (.lit 12) (.int a) (by omega) (by omega)) (by omega)
      (by omega)) (.lit 3) (by omega) (by omega)
  · have month_start : Runs ((153 * int m + 2) / 5) ((153 * m + 2) / 5) :=
      .div (.add (.mul (.lit 153) (.int m) (by omega) (by omega)) (.lit 2) (by omega) (by omega))
        (.lit 5) (by omega) (by omega) (by decide)
    have years : Runs (int y * 365) (y * 365) := .mul (.int y) (.lit 365) (by omega) (by omega)
    have divided (n : Nat) (positive : 0 < (OfNat.ofNat n : Int)) :
        Runs (int y / OfNat.ofNat n) (y / OfNat.ofNat n) :=
      .div (.int y) (.lit n) y_nonneg (by omega) positive
    exact .sub (.add (.sub (.add (.add (.add (.int day) month_start (by omega) (by omega)) years
      (by omega) (by omega)) (divided 4 (by decide)) (by omega) (by omega))
      (divided 100 (by decide)) (by omega) (by omega)) (divided 400 (by decide)) (by omega)
      (by omega)) (.lit 32045) (by omega) (by omega)

theorem getYearMonthDay_runs {number a b c d e m : Int} (a_eq : a = number + 32044)
    (b_eq : b = (4 * a + 3) / 146097) (c_eq : c = a - b * 146097 / 4)
    (d_eq : d = (4 * c + 3) / 1461) (e_eq : e = c - 1461 * d / 4)
    (m_eq : m = (5 * e + 2) / 153) (first : 0 ≤ a) (last : 4 * a + 3 ≤ 2147483647)
    (c_nonneg : 0 ≤ c) (c_le : c ≤ 36524) (e_nonneg : 0 ≤ e) (e_le : e ≤ 365) :
    Runs (getYearMonthDay number)
      ⟨b * 100 + d - 4800 + m / 10, m + 3 - 12 * (m / 10), e - (153 * m + 2) / 5 + 1⟩ := by
  have d_nonneg : 0 ≤ d := by omega
  have d_le : d ≤ 100 := by omega
  have b_nonneg : 0 ≤ b := by omega
  have product : b * 146097 ≤ 4 * a + 3 := by omega
  refine .bind (v := a) ?_ (.bind (v := b) ?_ (.bind (v := c) ?_ (.bind (v := d) ?_
    (.bind (v := e) ?_ (.bind (v := m) ?_ (.bind ?_ (.bind ?_ (.bind ?_ (.pure _)))))))))
  · rw [a_eq]
    exact .add (.int number) (.lit 32044) (by omega) (by omega)
  · rw [b_eq]
    exact .div (.add (.mul (.lit 4) (.int a) (by omega) (by omega)) (.lit 3) (by omega) last)
      (.lit 146097) (by omega) last (by decide)
  · rw [c_eq]
    exact .sub (.int a) (.div (.mul (.int b) (.lit 146097) (by omega) (by omega)) (.lit 4)
      (by omega) (by omega) (by decide)) (by omega) (by omega)
  · rw [d_eq]
    exact .div (.add (.mul (.lit 4) (.int c) (by omega) (by omega)) (.lit 3) (by omega) (by omega))
      (.lit 1461) (by omega) (by omega) (by decide)
  · rw [e_eq]
    exact .sub (.int c) (.div (.mul (.lit 1461) (.int d) (by omega) (by omega)) (.lit 4)
      (by omega) (by omega) (by decide)) (by omega) (by omega)
  · rw [m_eq]
    exact .div (.add (.mul (.lit 5) (.int e) (by omega) (by omega)) (.lit 2) (by omega) (by omega))
      (.lit 153) (by omega) (by omega) (by decide)
  · exact .add (.sub (.int e) (.div (.add (.mul (.lit 153) (.int m) (by omega) (by omega)) (.lit 2)
      (by omega) (by omega)) (.lit 5) (by omega) (by omega) (by decide)) (by omega) (by omega))
      (.lit 1) (by omega) (by omega)
  · exact .sub (.add (.int m) (.lit 3) (by omega) (by omega)) (.mul (.lit 12)
      (.div (.int m) (.lit 10) (by omega) (by omega) (by decide)) (by omega) (by omega)) (by omega)
      (by omega)
  · exact .add (.sub (.add (.mul (.int b) (.lit 100) (by omega) (by omega)) (.int d) (by omega)
      (by omega)) (.lit 4800) (by omega) (by omega)) (.div (.int m) (.lit 10) (by omega) (by omega)
      (by decide)) (by omega) (by omega)

end Date

end Dbdky
