import Dbdky.Coding.FixedWidth
import Dbdky.Utils.LoggingRecords

/-!
The texts of a `Timestamp` (`src/utils/Timestamp.{h,cpp}`).

A `Timestamp` is its microseconds since the epoch, an `int64_t`. The division truncates, so of
a time before the epoch both the seconds and the microseconds are negative.

* **`toString_eq_iff`.** Different timestamps have different texts, and no text is cut off.
* **`toFormattedString_lt_iff`.** Up to the year 9999 the dates are in the order of the times.
-/

namespace Dbdky.Timestamp

open CInt Coding LogStream

def kMicroSecondsPerSecond : Int := 1000 * 1000

/-- `char buf[32] = {0}; snprintf(buf, size, ...); return buf;` -/
def buffered (size : Nat) (text : List UInt8) : Option (List UInt8) := do
  let (buf, _) ← snprintf (List.replicate 32 0) 0 size text
  some (buf.takeWhile (· ≠ 0))

/-- `secondsSinceEpoch`, and the seconds of both texts -/
def secondsSinceEpoch (t : IntegerType.Value .long) : Int := t.val.tdiv kMicroSecondsPerSecond

def microseconds (t : IntegerType.Value .long) : Int := t.val.tmod kMicroSecondsPerSecond

/-- `"%ld.%06ld"` -/
def secondsText (t : IntegerType.Value .long) : List UInt8 :=
  decimalText (secondsSinceEpoch t) ++ (bytes ['.'] ++ Logger.zeroPadded 6 (microseconds t))

def toString (t : IntegerType.Value .long) : Option (List UInt8) := buffered 31 (secondsText t)

/-- `"%4d%02d%02d %02d:%02d:%02d.%06d"` -/
def formattedText (t : IntegerType.Value .long) : List UInt8 :=
  Logger.timeText (TimeZone.gmtimeR (secondsSinceEpoch t)) ++
    (bytes ['.'] ++ Logger.zeroPadded 6 (toInt (microseconds t)))

def toFormattedString (t : IntegerType.Value .long) : Option (List UInt8) :=
  buffered 32 (formattedText t)

/-! ### The buffer -/

theorem takeWhile_append_zero {text rest : List UInt8} (plain : 0 ∉ text) :
    (text ++ 0 :: rest).takeWhile (· ≠ 0) = text := by
  rw [List.takeWhile_append_of_pos]
  · simp
  · intro byte mem
    exact decide_eq_true fun zero => plain (zero ▸ mem)

/-- A text that fits is returned as it is. -/
theorem buffered_eq {size : Nat} {text : List UInt8} (size_le : size ≤ 32)
    (fits : text.length < size) (plain : 0 ∉ text) : buffered size text = some text := by
  have whole : text.take (size - 1) = text := List.take_of_length_le (by omega)
  have room : (text ++ [0]).length ≤ (List.replicate 32 (0 : UInt8)).length := by
    rw [List.length_append, List.length_replicate, List.length_singleton]
    omega
  have stored := Block.store_append [] (List.replicate 32 (0 : UInt8)) (text ++ [0]) room
  rw [buffered, snprintf, whole]
  change (Block.store (List.replicate 32 0) 0 (text ++ [0]) >>= _) >>= _ = _
  rw [List.nil_append, List.length_nil] at stored
  rw [stored, List.nil_append, List.append_assoc]
  exact congrArg some (takeWhile_append_zero plain)

/-! ### Seconds and microseconds -/

theorem zeroPadded_eq (width : Nat) (v : Int) :
    Logger.zeroPadded width v = decimal.paddedInt 45 width v := by
  have minus : bytes ['-'] = [45] := rfl
  unfold Logger.zeroPadded Numerals.paddedInt
  by_cases negative : v < 0
  · rw [if_pos negative, if_pos negative, decimalText_of_neg negative, minus, List.append_assoc,
      List.length_append, List.length_singleton, ← Nat.sub_sub]
    rfl
  · rw [if_neg negative, if_neg negative, decimalText_of_nonneg negative, List.nil_append]
    rfl

/-- A time is its seconds and microseconds, and neither is too long to be written. -/
theorem seconds_microseconds (t : IntegerType.Value .long) :
    t.val = secondsSinceEpoch t * 1000000 + microseconds t ∧
      (secondsSinceEpoch t).natAbs < 10 ^ 13 ∧ (microseconds t).natAbs < 10 ^ 6 := by
  have min_le : -9223372036854775808 ≤ t.val := t.min_le
  have le_max : t.val ≤ 9223372036854775807 := t.le_max
  have split := Int.mul_tdiv_add_tmod t.val 1000000
  have small : (t.val.tmod 1000000).natAbs < 10 ^ 6 := by
    rw [Int.natAbs_tmod]
    exact Nat.mod_lt _ (by decide)
  change t.val = t.val.tdiv 1000000 * 1000000 + t.val.tmod 1000000 ∧
    (t.val.tdiv 1000000).natAbs < 10 ^ 13 ∧ (t.val.tmod 1000000).natAbs < 10 ^ 6
  exact ⟨by omega, by omega, small⟩

theorem length_decimalText_le {v : Int} {k : Nat} (some_digit : 0 < k) (small : v.natAbs < 10 ^ k) :
    (decimalText v).length ≤ k + 1 := by
  have digits : (decimal.write v.natAbs).length ≤ k :=
    (Numerals.length_write_le_iff some_digit).mpr small
  by_cases negative : v < 0
  · rw [decimalText_of_neg negative, List.length_append]
    exact Nat.add_comm k 1 ▸ Nat.add_le_add_left digits 1
  · rw [decimalText_of_nonneg negative]
    exact Nat.le_succ_of_le digits

theorem length_zeroPadded_le {v : Int} {k : Nat} (some_digit : 0 < k) (small : v.natAbs < 10 ^ k) :
    (Logger.zeroPadded k v).length ≤ k + 1 := by
  have digits : (decimal.write v.natAbs).length ≤ k :=
    (Numerals.length_write_le_iff some_digit).mpr small
  rw [zeroPadded_eq, Numerals.paddedInt]
  split
  · rw [List.length_cons, Numerals.padded, List.length_append, List.length_replicate]
    omega
  · rw [Numerals.padded, List.length_append, List.length_replicate]
    omega

/-! ### `toString` -/

theorem point_notMem_write (n : Nat) : 46 ∉ decimal.write n := by
  intro mem
  obtain ⟨d, small, same⟩ := Numerals.mem_write mem
  change d < 10 at small
  interval_cases d <;> cases same

theorem point_notMem_decimalText (v : Int) : 46 ∉ decimalText v := by
  by_cases negative : v < 0
  · rw [decimalText_of_neg negative, List.mem_append]
    exact not_or.mpr ⟨by decide, point_notMem_write _⟩
  · rw [decimalText_of_nonneg negative]
    exact point_notMem_write _

theorem point_notMem_zeroPadded (width : Nat) (v : Int) : 46 ∉ Logger.zeroPadded width v := by
  unfold Logger.zeroPadded
  rw [List.mem_append, List.mem_append, not_or, not_or]
  refine ⟨⟨?_, ?_⟩, point_notMem_write _⟩
  · split <;> decide
  · intro mem
    cases List.eq_of_mem_replicate mem

/-- The point separates the two numbers. -/
theorem secondsText_injective {t u : IntegerType.Value .long}
    (same : secondsText t = secondsText u) : t = u := by
  have point : bytes ['.'] = [46] := rfl
  rw [secondsText, secondsText, point, List.singleton_append, List.singleton_append,
    List.append_cons_inj_of_notMem (point_notMem_decimalText _) (point_notMem_zeroPadded 6 _),
    zeroPadded_eq, zeroPadded_eq] at same
  obtain ⟨seconds, -, microseconds⟩ := same
  apply IntegerType.Value.ext
  rw [(seconds_microseconds t).1, (seconds_microseconds u).1,
    Numerals.writeInt_injective rfl seconds,
    Numerals.paddedInt_injective rfl microseconds]

/-- **`toString` tells the time**: no text is cut off, and different times have different texts. -/
theorem toString_eq_iff (t u : IntegerType.Value .long) :
    toString t = some (secondsText t) ∧ (toString t = toString u ↔ t = u) := by
  have whole (t : IntegerType.Value .long) : toString t = some (secondsText t) := by
    obtain ⟨-, seconds, microseconds⟩ := seconds_microseconds t
    have seconds := length_decimalText_le (by decide) seconds
    have microseconds := length_zeroPadded_le (by decide) microseconds
    have point : (bytes ['.']).length = 1 := rfl
    refine buffered_eq (by decide) ?_ ?_
    · rw [secondsText, List.length_append, List.length_append, point]
      omega
    · exact Logger.zero_notMem_append (Logger.zero_notMem_decimalText _)
        (Logger.zero_notMem_append (by decide) (Logger.zero_notMem_zeroPadded 6 _))
  refine ⟨whole t, ?_⟩
  rw [whole t, whole u]
  exact ⟨fun same => secondsText_injective (Option.some.inj same), fun same => same ▸ rfl⟩

/-! ### Dates as texts -/

/-- Year, month, day, hour, minute and second of a time since the epoch. -/
def utcFields (seconds : Int) : List Int :=
  let tm := TimeZone.gmtimeR seconds
  [tm.tmYear + 1900, tm.tmMon + 1, tm.tmMday, tm.tmHour, tm.tmMin, tm.tmSec]

def utcNumbers (seconds : Int) : List Nat := (utcFields seconds).map Int.toNat

/-- The first second of the year 10000. -/
def endOf9999 : Int := 253402300800

/-- The years from the epoch to the end of 9999. -/
theorem year_of_seconds {seconds : Int} (first : 0 ≤ seconds) (last : seconds < endOf9999) :
    1970 ≤ (TimeZone.gmtimeR seconds).date.year ∧ (TimeZone.gmtimeR seconds).date.year ≤ 9999 := by
  unfold endOf9999 at last
  rw [TimeZone.date_gmtimeR]
  have date := Gregorian.dayNumber_ofDayNumber (seconds / 86400 + TimeZone.epoch)
  set d := Gregorian.ofDayNumber (seconds / 86400 + TimeZone.epoch)
  obtain ⟨valid, number⟩ := date
  unfold TimeZone.epoch at number
  have month_pos := valid.month_pos
  have day_pos := valid.day_pos
  have after : ¬ d.key < Gregorian.Date.key ⟨1970, 1, 1⟩ := by
    rw [Gregorian.key_lt_key_iff valid (Gregorian.january_valid _), number]
    have start : Gregorian.Date.dayNumber ⟨1970, 1, 1⟩ = 719468 := by decide
    omega
  have before : d.key < Gregorian.Date.key ⟨10000, 1, 1⟩ := by
    rw [Gregorian.key_lt_key_iff valid (Gregorian.january_valid _), number]
    have finish : Gregorian.Date.dayNumber ⟨10000, 1, 1⟩ = 3652365 := by decide
    omega
  simp only [Gregorian.Date.key, Prod.Lex.toLex_lt_toLex] at after before
  omega

/-- The date and the second of the day. -/
theorem utcFields_eq (s : Int) :
    utcFields s =
      [(TimeZone.gmtimeR s).date.year, (TimeZone.gmtimeR s).date.month,
        (TimeZone.gmtimeR s).date.day, s / 3600 % 24, s / 60 % 60, s % 60] := rfl

theorem map_toNat_lt {xs ys : List Int} (nonneg : ∀ x ∈ xs, 0 ≤ x) (less : xs < ys) :
    xs.map Int.toNat < ys.map Int.toNat := by
  induction xs generalizing ys with
  | nil =>
      cases ys with
      | nil => exact absurd less (List.not_lt_nil _)
      | cons y ys => exact List.nil_lt_cons _ _
  | cons x xs ih =>
      obtain ⟨first, rest⟩ := List.forall_mem_cons.mp nonneg
      cases ys with
      | nil => exact absurd less (List.not_lt_nil _)
      | cons y ys =>
          rw [List.map_cons, List.map_cons, List.cons_lt_cons_iff]
          rcases List.cons_lt_cons_iff.mp less with less | ⟨rfl, less⟩
          · exact .inl ((Int.toNat_lt_toNat (Int.lt_of_le_of_lt first less)).mpr less)
          · exact .inr ⟨rfl, ih rest ‹_›⟩

theorem emod_lt_of_ediv_eq {a b k : Int} (less : a < b) (same : a / k = b / k) : a % k < b % k := by
  have split_a := Int.mul_ediv_add_emod a k
  have split_b := Int.mul_ediv_add_emod b k
  rw [same] at split_a
  omega

/-- Of two times of a day, the later one has greater numbers. -/
theorem timeOfDay_lt {s t : Int} (less : s < t) (same : s / 86400 = t / 86400) :
    s / 3600 % 24 < t / 3600 % 24 ∨ s / 3600 % 24 = t / 3600 % 24 ∧
      (s / 60 % 60 < t / 60 % 60 ∨ s / 60 % 60 = t / 60 % 60 ∧ s % 60 < t % 60) := by
  have hours : s / 3600 / 24 = t / 3600 / 24 := by omega
  rcases Int.lt_or_eq_of_le (Int.ediv_le_ediv (by decide : (0 : Int) < 3600) (Int.le_of_lt less))
    with hour | hour
  · exact .inl (emod_lt_of_ediv_eq hour hours)
  · have minutes : s / 60 / 60 = t / 60 / 60 := by omega
    refine .inr ⟨by rw [hour], ?_⟩
    rcases Int.lt_or_eq_of_le (Int.ediv_le_ediv (by decide : (0 : Int) < 60) (Int.le_of_lt less))
      with minute | minute
    · exact .inl (emod_lt_of_ediv_eq minute minutes)
    · exact .inr ⟨by rw [minute], emod_lt_of_ediv_eq less minute⟩

theorem utcFields_lt {s t : Int} (less : s < t) : utcFields s < utcFields t := by
  have date := TimeZone.date_gmtimeR s
  have date' := TimeZone.date_gmtimeR t
  rw [utcFields_eq, utcFields_eq]
  simp only [List.cons_lt_cons_iff]
  rcases Int.lt_or_eq_of_le (Int.ediv_le_ediv (by decide : (0 : Int) < 86400) (Int.le_of_lt less))
    with before | same
  · have earlier := Gregorian.key_lt_key_of_lt (Int.add_lt_add_right before TimeZone.epoch)
    rw [← date, ← date'] at earlier
    simp only [Gregorian.Date.key, Prod.Lex.toLex_lt_toLex] at earlier
    rcases earlier with year | ⟨year, month | ⟨month, day⟩⟩
    · exact .inl year
    · exact .inr ⟨year, .inl month⟩
    · exact .inr ⟨year, .inr ⟨month, .inl day⟩⟩
  · rw [same, ← date'] at date
    rw [date]
    refine .inr ⟨rfl, .inr ⟨rfl, .inr ⟨rfl, ?_⟩⟩⟩
    rcases timeOfDay_lt less same with hour | ⟨hour, minute | ⟨minute, second⟩⟩
    · exact .inl hour
    · exact .inr ⟨hour, .inl minute⟩
    · exact .inr ⟨hour, .inr ⟨minute, .inl second⟩⟩

/-- A later time has greater numbers. -/
theorem utcNumbers_lt {s t : Int} (first : 0 ≤ s) (less : s < t) (last : t < endOf9999) :
    utcNumbers s < utcNumbers t := by
  have year := (year_of_seconds first (Int.lt_trans less last)).1
  have valid := (Gregorian.dayNumber_ofDayNumber (s / 86400 + TimeZone.epoch)).1
  rw [← TimeZone.date_gmtimeR s] at valid
  refine map_toNat_lt ?_ (utcFields_lt less)
  rw [utcFields_eq]
  simp only [List.forall_mem_cons, List.not_mem_nil, false_implies, implies_true, and_true]
  exact ⟨Int.le_trans (by decide) year, Int.le_trans (by decide) valid.month_pos,
    Int.le_trans (by decide) valid.day_pos, Int.emod_nonneg _ (by decide),
    Int.emod_nonneg _ (by decide), Int.emod_nonneg _ (by decide)⟩

theorem decimal_ordered {filler : UInt8} (filler_le : filler ≤ 48) : decimal.Ordered filler where
  filler_lt d positive digit := by
    change d < 10 at digit
    change filler < UInt8.ofNat (48 + d)
    refine UInt8.lt_of_le_of_lt filler_le ?_
    interval_cases d <;> decide
  symbol_lt d e less digit := by
    change e < 10 at digit
    interval_cases e <;> interval_cases d <;> decide

/-! ### `toFormattedString` -/

/-- `"%4d%02d%02d %02d:%02d:%02d.%06d"` -/
def formattedFields : List (Numerals.Field UInt8) :=
  [⟨[], 32, 4⟩, ⟨[], 48, 2⟩, ⟨[], 48, 2⟩, ⟨bytes [' '], 48, 2⟩, ⟨bytes [':'], 48, 2⟩,
    ⟨bytes [':'], 48, 2⟩, ⟨bytes ['.'], 48, 6⟩]

theorem padded_of_nonneg (width : Nat) {v : Int} (nonneg : 0 ≤ v) :
    Logger.padded width v = decimal.padded 32 width v.toNat := by
  have same : v.natAbs = v.toNat := by omega
  rw [Logger.padded, decimalText_of_nonneg (Int.not_lt.mpr nonneg), same]
  rfl

theorem zeroPadded_of_nonneg (width : Nat) {v : Int} (nonneg : 0 ≤ v) :
    Logger.zeroPadded width v = decimal.padded 48 width v.toNat := by
  have same : v.natAbs = v.toNat := by omega
  rw [zeroPadded_eq, Numerals.paddedInt, if_neg (Int.not_lt.mpr nonneg), same]
  rfl

/-- The text of a time is a line of numbers. -/
theorem timeText_eq {seconds us : Int} (first : 0 ≤ seconds) (last : seconds < endOf9999)
    (us_nonneg : 0 ≤ us) :
    Logger.timeText (TimeZone.gmtimeR seconds) ++ (bytes ['.'] ++ Logger.zeroPadded 6 us) =
      decimal.line formattedFields (utcNumbers seconds ++ [us.toNat]) := by
  have year := (year_of_seconds first last).1
  have valid := (Gregorian.dayNumber_ofDayNumber (seconds / 86400 + TimeZone.epoch)).1
  rw [← TimeZone.date_gmtimeR] at valid
  have year_nonneg : 0 ≤ (TimeZone.gmtimeR seconds).tmYear + 1900 :=
    Int.le_trans (by decide) year
  have month_nonneg : 0 ≤ (TimeZone.gmtimeR seconds).tmMon + 1 :=
    Int.le_trans (by decide) valid.month_pos
  have day_nonneg : 0 ≤ (TimeZone.gmtimeR seconds).tmMday :=
    Int.le_trans (by decide) valid.day_pos
  have time := TimeZone.timeOfDay_gmtimeR seconds
  rw [Logger.timeText, padded_of_nonneg 4 year_nonneg, zeroPadded_of_nonneg 2 month_nonneg,
    zeroPadded_of_nonneg 2 day_nonneg, zeroPadded_of_nonneg 2 time.hour_nonneg,
    zeroPadded_of_nonneg 2 time.min_nonneg, zeroPadded_of_nonneg 2 time.sec_nonneg,
    zeroPadded_of_nonneg 6 us_nonneg]
  simp only [formattedFields, utcNumbers, utcFields, List.map_cons, List.map_nil, Numerals.line,
    List.cons_append, List.nil_append, List.append_assoc, List.append_nil]

/-- The numbers of a time fit four places and two for each of the others. -/
theorem utcNumbers_fit {seconds : Int} (first : 0 ≤ seconds) (last : seconds < endOf9999) :
    decimal.Fit [4, 2, 2, 2, 2, 2] (utcNumbers seconds) := by
  have year := (year_of_seconds first last).2
  have valid := (Gregorian.dayNumber_ofDayNumber (seconds / 86400 + TimeZone.epoch)).1
  rw [← TimeZone.date_gmtimeR] at valid
  have month_le := valid.month_le
  have day_le := Date.day_le valid
  rw [utcNumbers, utcFields_eq]
  have two : decimal.base ^ 2 = 100 := rfl
  have four : decimal.base ^ 4 = 10000 := rfl
  refine .cons ⟨by decide, ?_⟩ (.cons ⟨by decide, ?_⟩ (.cons ⟨by decide, ?_⟩
    (.cons ⟨by decide, ?_⟩ (.cons ⟨by decide, ?_⟩ (.cons ⟨by decide, ?_⟩ .nil)))))
  all_goals
    simp only [two, four]
    omega

/-- From the epoch up to the year 9999. -/
def Dated (t : IntegerType.Value .long) : Prop := 0 ≤ t.val ∧ t.val < endOf9999 * 1000000

variable {t u : IntegerType.Value .long}

theorem Dated.seconds (dated : Dated t) :
    secondsSinceEpoch t = t.val / 1000000 ∧ toInt (microseconds t) = t.val % 1000000 ∧
      0 ≤ t.val / 1000000 ∧ t.val / 1000000 < endOf9999 := by
  obtain ⟨first, last⟩ := dated
  have seconds : secondsSinceEpoch t = t.val / 1000000 := Int.tdiv_eq_ediv_of_nonneg first
  have micros : microseconds t = t.val % 1000000 := Int.tmod_eq_emod_of_nonneg first
  refine ⟨seconds, ?_, by omega, by omega⟩
  rw [micros, toInt_eq (by omega) (by omega)]

/-- The numbers in the text of a time. -/
def numbers (t : IntegerType.Value .long) : List Nat :=
  utcNumbers (t.val / 1000000) ++ [(t.val % 1000000).toNat]

theorem formattedText_eq (dated : Dated t) :
    formattedText t = decimal.line formattedFields (numbers t) := by
  obtain ⟨seconds, micros, first, last⟩ := dated.seconds
  rw [formattedText, seconds, micros]
  exact timeText_eq first last (Int.emod_nonneg _ (by decide))

theorem numbers_fit (dated : Dated t) : decimal.Fits formattedFields (numbers t) := by
  obtain ⟨-, -, first, last⟩ := dated.seconds
  have micros : (t.val % 1000000).toNat < decimal.base ^ 6 := by
    have six : decimal.base ^ 6 = 1000000 := rfl
    omega
  exact List.rel_append (utcNumbers_fit first last) (.cons ⟨by decide, micros⟩ .nil)

theorem numbers_lt (dated : Dated t) (dated' : Dated u) (less : t.val < u.val) :
    numbers t < numbers u := by
  obtain ⟨-, -, first, -⟩ := dated.seconds
  obtain ⟨-, -, -, last⟩ := dated'.seconds
  rcases Int.lt_or_eq_of_le (Int.ediv_le_ediv (by decide : (0 : Int) < 1000000)
    (Int.le_of_lt less)) with before | same
  · have earlier := utcNumbers_lt first before last
    exact append_lt_append (by rfl) earlier _ _
  · have later := emod_lt_of_ediv_eq less same
    have nonneg : 0 ≤ t.val % 1000000 := Int.emod_nonneg _ (by decide)
    rw [numbers, numbers, same]
    exact List.append_left_lt (List.cons_lt_cons_iff.mpr (.inl (by omega)))

theorem numbers_lt_iff (dated : Dated t) (dated' : Dated u) :
    numbers t < numbers u ↔ t.val < u.val := by
  refine ⟨fun less => ?_, numbers_lt dated dated'⟩
  rcases Int.lt_trichotomy t.val u.val with before | same | after
  · exact before
  · rw [IntegerType.Value.ext same] at less
    exact absurd less (List.lt_irrefl _)
  · exact absurd less (List.lt_asymm (numbers_lt dated' dated after))

theorem zero_notMem_timeText (tm : TimeZone.Tm) : 0 ∉ Logger.timeText tm := by
  have four := Logger.zero_notMem_padded 4
  have two := Logger.zero_notMem_zeroPadded 2
  have space : 0 ∉ bytes [' '] := by decide
  have colon : 0 ∉ bytes [':'] := by decide
  simp only [Logger.timeText, List.mem_append, not_or]
  exact ⟨⟨⟨⟨⟨⟨⟨⟨four _, two _⟩, two _⟩, space⟩, two _⟩, colon⟩, two _⟩, colon⟩, two _⟩

theorem toFormattedString_eq (dated : Dated t) :
    toFormattedString t = some (formattedText t) ∧ (formattedText t).length = 24 := by
  have length : (formattedText t).length = 24 := by
    rw [formattedText_eq dated, Numerals.length_line (numbers_fit dated)]
    rfl
  refine ⟨buffered_eq (Nat.le_refl 32) (length ▸ by decide) ?_, length⟩
  exact Logger.zero_notMem_append (zero_notMem_timeText _)
    (Logger.zero_notMem_append (by decide) (Logger.zero_notMem_zeroPadded 6 _))

/-- **Dates are in the order of the times**, up to the year 9999, as texts of 24 bytes. -/
theorem toFormattedString_lt_iff (dated : Dated t) (dated' : Dated u) :
    ∃ text text', toFormattedString t = some text ∧ toFormattedString u = some text' ∧
      text.length = 24 ∧ text'.length = 24 ∧ (text < text' ↔ t.val < u.val) := by
  obtain ⟨whole, length⟩ := toFormattedString_eq dated
  obtain ⟨whole', length'⟩ := toFormattedString_eq dated'
  refine ⟨_, _, whole, whole', length, length', ?_⟩
  rw [formattedText_eq dated, formattedText_eq dated', ← numbers_lt_iff dated dated']
  refine Numerals.line_lt_line_iff ?_ (numbers_fit dated) (numbers_fit dated')
  intro field mem
  refine decimal_ordered ?_
  simp only [formattedFields, List.mem_cons, List.not_mem_nil, or_false] at mem
  rcases mem with rfl | rfl | rfl | rfl | rfl | rfl | rfl <;> decide

/-- The last second of 2023 and the first one of 2024. -/
theorem toFormattedString_lt_iff_newYear :
    ∃ text text', toFormattedString ⟨1704067199999999, by decide, by decide⟩ = some text ∧
      toFormattedString ⟨1704067200000000, by decide, by decide⟩ = some text' ∧
      text.length = 24 ∧ text'.length = 24 ∧
      (text < text' ↔ (1704067199999999 : Int) < 1704067200000000) :=
  toFormattedString_lt_iff ⟨by decide, by decide⟩ ⟨by decide, by decide⟩

end Dbdky.Timestamp
