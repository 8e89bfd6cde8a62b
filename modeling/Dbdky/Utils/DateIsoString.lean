import Dbdky.Utils.DateOrder
import Dbdky.Utils.Timestamp

/-!
`Date::toIsoString` (`src/utils/Date.cpp`).

* **`toIsoString_lt_iff`.** From the year 0 to the year 9999 the texts are in the order of the
  dates.
-/

namespace Dbdky.Date

open CInt Coding LogStream Timestamp

/-- `"%4d-%02d-%02d"` -/
def isoText (ymd : YearMonthDay) : List UInt8 :=
  Logger.padded 4 ymd.year ++ (bytes ['-'] ++ (Logger.zeroPadded 2 ymd.month ++
    (bytes ['-'] ++ Logger.zeroPadded 2 ymd.day)))

def toIsoString (date : Date) : Calc (List UInt8) := do
  let ymd ← date.yearMonthDay
  StateT.lift (buffered 32 (isoText ymd))

/-- From 1 January of the year 0 to 31 December 9999. -/
def FourDigits (date : Date) : Prop :=
  1721060 ≤ date.julianDayNumber ∧ date.julianDayNumber ≤ 5373484

def isoFields : List (Numerals.Field UInt8) :=
  [⟨[], 32, 4⟩, ⟨bytes ['-'], 48, 2⟩, ⟨bytes ['-'], 48, 2⟩]

variable {ymd : YearMonthDay} {x y : Date}

def isoNumbers (ymd : YearMonthDay) : List Nat := [ymd.year.toNat, ymd.month.toNat, ymd.day.toNat]

theorem isoText_eq (valid : ymd.Valid) (year : 0 ≤ ymd.year) :
    isoText ymd = decimal.line isoFields (isoNumbers ymd) := by
  have month : 0 ≤ ymd.month := Int.le_trans (by decide) valid.month_pos
  have day : 0 ≤ ymd.day := Int.le_trans (by decide) valid.day_pos
  rw [isoText, padded_of_nonneg 4 year, zeroPadded_of_nonneg 2 month, zeroPadded_of_nonneg 2 day]
  simp only [isoFields, isoNumbers, Numerals.line, List.nil_append, List.append_nil]

theorem isoNumbers_fit (valid : ymd.Valid) (year : ymd.year ≤ 9999) :
    decimal.Fits isoFields (isoNumbers ymd) := by
  have month_le := valid.month_le
  have day_le := day_le valid
  have two : decimal.base ^ 2 = 100 := rfl
  have four : decimal.base ^ 4 = 10000 := rfl
  refine .cons ⟨by decide, ?_⟩ (.cons ⟨by decide, ?_⟩ (.cons ⟨by decide, ?_⟩ .nil))
  all_goals
    simp only [two, four]
    omega

theorem isoNumbers_lt_iff {other : YearMonthDay} (valid : ymd.Valid) (valid' : other.Valid)
    (year : 0 ≤ ymd.year) (year' : 0 ≤ other.year) :
    isoNumbers ymd < isoNumbers other ↔ ymd.dayNumber < other.dayNumber := by
  have month := valid.month_pos
  have day := valid.day_pos
  have month' := valid'.month_pos
  have day' := valid'.day_pos
  rw [← Gregorian.key_lt_key_iff valid valid']
  simp only [isoNumbers, List.cons_lt_cons_iff, List.not_lt_nil, and_false, or_false,
    Gregorian.Date.key, Prod.Lex.toLex_lt_toLex]
  omega

theorem isoText_lt_iff {other : YearMonthDay} (valid : ymd.Valid) (valid' : other.Valid)
    (year : 0 ≤ ymd.year ∧ ymd.year ≤ 9999) (year' : 0 ≤ other.year ∧ other.year ≤ 9999) :
    isoText ymd < isoText other ↔ ymd.dayNumber < other.dayNumber := by
  rw [isoText_eq valid year.1, isoText_eq valid' year'.1,
    ← isoNumbers_lt_iff valid valid' year.1 year'.1]
  refine Numerals.line_lt_line_iff ?_ (isoNumbers_fit valid year.2) (isoNumbers_fit valid' year'.2)
  intro field mem
  refine decimal_ordered ?_
  simp only [isoFields, List.mem_cons, List.not_mem_nil, or_false] at mem
  rcases mem with rfl | rfl | rfl <;> decide

/-- The date of such a day, and its year. -/
theorem FourDigits.date (four : FourDigits x) :
    ∃ ymd : YearMonthDay, Runs x.yearMonthDay ymd ∧ ymd.Valid ∧
      ymd.dayNumber = x.julianDayNumber - 1721120 ∧ 0 ≤ ymd.year ∧ ymd.year ≤ 9999 := by
  obtain ⟨first, last⟩ := four
  obtain ⟨valid, number⟩ := Gregorian.dayNumber_ofDayNumber (x.julianDayNumber - 1721120)
  refine ⟨_, getYearMonthDay_runs_julianDay _ (by omega) (by omega), valid, number, ?_⟩
  have month_pos := valid.month_pos
  have day_pos := valid.day_pos
  have after : ¬ Gregorian.Date.key _ < Gregorian.Date.key ⟨0, 1, 1⟩ :=
    mt (Gregorian.key_lt_key_iff valid (Gregorian.january_valid 0)).mp (by
      have start : Gregorian.Date.dayNumber ⟨0, 1, 1⟩ = -60 := by decide
      omega)
  have before : Gregorian.Date.key _ < Gregorian.Date.key ⟨10000, 1, 1⟩ :=
    (Gregorian.key_lt_key_iff valid (Gregorian.january_valid 10000)).mpr (by
      have finish : Gregorian.Date.dayNumber ⟨10000, 1, 1⟩ = 3652365 := by decide
      omega)
  simp only [Gregorian.Date.key, Prod.Lex.toLex_lt_toLex] at after before
  omega

theorem toIsoString_runs (runs : Runs x.yearMonthDay ymd) (valid : ymd.Valid)
    (year : 0 ≤ ymd.year) (year_le : ymd.year ≤ 9999) :
    Runs x.toIsoString (isoText ymd) ∧ (isoText ymd).length = 10 := by
  have length : (isoText ymd).length = 10 := by
    rw [isoText_eq valid year, Numerals.length_line (isoNumbers_fit valid year_le)]
    rfl
  have plain : 0 ∉ isoText ymd := by
    have dash : 0 ∉ bytes ['-'] := by decide
    have two := Logger.zero_notMem_zeroPadded 2
    exact Logger.zero_notMem_append (Logger.zero_notMem_padded 4 _)
      (Logger.zero_notMem_append dash (Logger.zero_notMem_append (two _)
        (Logger.zero_notMem_append dash (two _))))
  refine ⟨runs.bind fun divided => ?_, length⟩
  have whole := buffered_eq (Nat.le_refl 32) (length ▸ by decide) plain
  change (buffered 32 (isoText ymd)).bind (fun text => some (text, divided)) = _
  rw [whole, Option.bind_some]

/-- **The texts are in the order of the dates.** -/
theorem toIsoString_lt_iff (four : FourDigits x) (four' : FourDigits y) :
    ∃ text text', Runs x.toIsoString text ∧ Runs y.toIsoString text' ∧ text.length = 10 ∧
      text'.length = 10 ∧ (text < text' ↔ x.less y = true) ∧ (text = text' ↔ x.equal y = true) := by
  obtain ⟨ymd, runs, valid, number, year, year_le⟩ := four.date
  obtain ⟨other, runs', valid', number', year', year_le'⟩ := four'.date
  obtain ⟨text, length⟩ := toIsoString_runs runs valid year year_le
  obtain ⟨text', length'⟩ := toIsoString_runs runs' valid' year' year_le'
  have order := isoText_lt_iff valid valid' ⟨year, year_le⟩ ⟨year', year_le'⟩
  have order' := isoText_lt_iff valid' valid ⟨year', year_le'⟩ ⟨year, year_le⟩
  refine ⟨_, _, text, text', length, length', ?_, ?_⟩
  · rw [order, less, decide_eq_true_iff]
    omega
  · rw [equal, decide_eq_true_iff]
    constructor
    · intro same
      rw [same] at order order'
      have not_before := mt order.mpr (List.lt_irrefl _)
      have not_after := mt order'.mpr (List.lt_irrefl _)
      omega
    · intro same
      obtain rfl : x = y := congrArg Date.mk same
      rw [runs.unique runs']

/-- The last day of February and the first of March. -/
theorem toIsoString_lt_iff_march :
    ∃ text text', Runs (Date.toIsoString ⟨2460370⟩) text ∧ Runs (Date.toIsoString ⟨2460371⟩) text' ∧
      text.length = 10 ∧ text'.length = 10 ∧
      (text < text' ↔ Date.less ⟨2460370⟩ ⟨2460371⟩ = true) ∧
      (text = text' ↔ Date.equal ⟨2460370⟩ ⟨2460371⟩ = true) :=
  toIsoString_lt_iff ⟨by decide, by decide⟩ ⟨by decide, by decide⟩

end Dbdky.Date
