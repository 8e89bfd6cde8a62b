import Dbdky.Utils.Logging
import Dbdky.Utils.TimeZoneUtc

/-!
The records that a thread logs.

The header of a record is put together from four texts of fixed lengths: 17 and 9 bytes of
date and time, 6 bytes of `t_tidString` and 6 bytes of the name of the level. Two names
have 5 letters, and from 100000 on a thread id and its blank take more than 6 bytes.

* **`headers_exact_iff`.** The headers are exact, and no assertion fails, exactly if no
  record is of level `INFO` or `WARN` and the thread id has at most 5 digits.
* **`trailer_complete_iff`.** A record ends in the complete trailer exactly if 36 bytes
  are free besides those of the file name when the `Logger` is destroyed.
-/

namespace Dbdky.Logger

open CInt LogStream

/-! ### Lengths -/

theorem length_padded (width : Nat) (v : Int) :
    (padded width v).length = max width (decimalText v).length := by
  rw [padded, List.length_append, List.length_replicate]
  omega

theorem length_decimalText_le_iff {width : Nat} (some_digit : 0 < width) {v : Int}
    (nonneg : 0 ≤ v) : (decimalText v).length ≤ width ↔ v.natAbs < 10 ^ width := by
  rw [decimalText_of_nonneg (Int.not_lt.mpr nonneg)]
  exact Coding.Numerals.length_write_le_iff some_digit

theorem length_zeroPadded {width : Nat} (some_digit : 0 < width) {v : Int} (nonneg : 0 ≤ v)
    (below : v.natAbs < 10 ^ width) : (zeroPadded width v).length = width := by
  have digits := (length_decimalText_le_iff some_digit nonneg).mpr below
  have positive := Int.not_lt.mpr nonneg
  rw [zeroPadded, if_neg positive, List.nil_append, List.length_append, List.length_replicate,
    ← decimalText_of_nonneg positive]
  exact Nat.sub_add_cancel digits

theorem length_timeText {tm : TimeZone.Tm} (time : tm.TimeOfDay) (valid : tm.date.Valid)
    (year_nonneg : 0 ≤ tm.date.year) (year_le : tm.date.year ≤ 9999) :
    (timeText tm).length = 17 := by
  have day_le : tm.tmMday ≤ 31 := Date.day_le valid
  obtain ⟨month_pos, month_le, day_pos, -⟩ := valid
  change 1 ≤ tm.tmMon + 1 at month_pos
  change tm.tmMon + 1 ≤ 12 at month_le
  change 1 ≤ tm.tmMday at day_pos
  change 0 ≤ tm.tmYear + 1900 at year_nonneg
  change tm.tmYear + 1900 ≤ 9999 at year_le
  obtain ⟨sec_nonneg, sec_lt, min_nonneg, min_lt, hour_nonneg, hour_lt⟩ := time
  have four : 0 < 4 := by decide
  have two : 0 < 2 := by decide
  have year : (padded 4 (tm.tmYear + 1900)).length = 4 := by
    have digits := (length_decimalText_le_iff four year_nonneg).mpr (by omega)
    rw [length_padded]
    omega
  have space : (bytes [' ']).length = 1 := rfl
  have colon : (bytes [':']).length = 1 := rfl
  simp only [timeText, List.length_append, year, space, colon]
  rw [length_zeroPadded two (by omega) (by omega), length_zeroPadded two (by omega) (by omega),
    length_zeroPadded two hour_nonneg (by omega), length_zeroPadded two min_nonneg (by omega),
    length_zeroPadded two sec_nonneg (by omega)]

theorem length_usText {us : Int} (nonneg : 0 ≤ us) (below : us < 1000000) :
    (usText us).length = 9 := by
  have six : 0 < 6 := by decide
  simp only [usText, List.length_append]
  rw [length_zeroPadded six nonneg (by omega)]
  rfl

theorem length_tidText (tid : Int) :
    (tidText tid).length = max 5 (decimalText tid).length + 1 := by
  rw [tidText, List.length_append, length_padded]
  rfl

section ThreadId

variable {tid : Int} (positive : 1 ≤ tid)
include positive

/-- A thread id of at most five digits fills five columns and the blank. -/
theorem length_tidText_iff : (tidText tid).length = 6 ↔ tid ≤ 99999 := by
  have nonneg : 0 ≤ tid := by omega
  have five : 0 < 5 := by decide
  have digits := length_decimalText_le_iff five nonneg
  have number : tid.natAbs < 10 ^ 5 ↔ tid ≤ 99999 := by omega
  rw [← number, ← digits, length_tidText]
  omega

theorem length_tidText_bounds (tid_le : tid ≤ 4194304) :
    6 ≤ (tidText tid).length ∧ (tidText tid).length ≤ 8 := by
  have nonneg : 0 ≤ tid := by omega
  have seven : 0 < 7 := by decide
  have digits := (length_decimalText_le_iff seven nonneg).mpr (by omega)
  rw [length_tidText]
  omega

end ThreadId

/-! ### No text has a NUL -/

theorem zero_notMem_append {s t : List UInt8} (first : 0 ∉ s) (second : 0 ∉ t) : 0 ∉ s ++ t := by
  rw [List.mem_append]
  exact not_or.mpr ⟨first, second⟩

theorem zero_notMem_replicate (n : Nat) {c : UInt8} (nonzero : c ≠ 0) :
    0 ∉ List.replicate n c := by
  intro mem
  exact nonzero (List.eq_of_mem_replicate mem).symm

theorem zero_notMem_write (n : Nat) : 0 ∉ decimal.write n := by
  intro mem
  obtain ⟨d, small, same⟩ := Coding.Numerals.mem_write mem
  change d < 10 at small
  interval_cases d <;> cases same

theorem zero_notMem_sign (v : Int) : 0 ∉ if v < 0 then bytes ['-'] else [] := by
  split <;> decide

theorem zero_notMem_decimalText (v : Int) : 0 ∉ decimalText v := by
  by_cases negative : v < 0
  · rw [decimalText_of_neg negative]
    exact zero_notMem_append (by decide) (zero_notMem_write _)
  · rw [decimalText_of_nonneg negative]
    exact zero_notMem_write _

theorem zero_notMem_padded (width : Nat) (v : Int) : 0 ∉ padded width v :=
  zero_notMem_append (zero_notMem_replicate _ (by decide)) (zero_notMem_decimalText v)

theorem zero_notMem_zeroPadded (width : Nat) (v : Int) : 0 ∉ zeroPadded width v := by
  refine zero_notMem_append (zero_notMem_append (zero_notMem_sign v) ?_) (zero_notMem_write _)
  exact zero_notMem_replicate _ (by decide)

/-! ### What a thread has cached -/

section Header

variable {Double : Type} {g12 : Double → List UInt8} {strerror : Int → List UInt8} {debug : Bool}
  {tid : Int} {tl tl' : ThreadLocal} {s : Statement Double}

theorem map_memory_append {text : List UInt8} {k : Nat} (whole : k ≤ text.length)
    (rest : List UInt8) : (List.range k).map (memory (text ++ rest)) = text.take k := by
  apply List.ext_getElem
  · simp [whole]
  · intro i first second
    rw [List.length_map, List.length_range] at first
    have inside : i < text.length := Nat.lt_of_lt_of_le first whole
    simp [memory, List.getElem?_append_left inside, inside]

/-- A text that fits, in a buffer of 32 bytes that is read again. -/
theorem snprintf_spec {mem : List UInt8} (length : mem.length = 32) (text : List UInt8)
    (fits : text.length < 32) {k : Nat} (whole : k ≤ text.length) :
    ∃ mem', snprintf mem 0 32 text = some (mem', text.length) ∧ mem'.length = 32 ∧
      (List.range k).map (memory mem') = text.take k := by
  have all : text.take (32 - 1) = text := List.take_of_length_le (Nat.le_sub_one_of_lt fits)
  have room : (text ++ [0]).length ≤ mem.length := by
    rw [List.length_append, List.length_singleton, length]
    exact fits
  have stored := Block.store_append [] mem (text ++ [0]) room
  rw [List.nil_append, List.nil_append, List.length_nil, List.append_assoc] at stored
  refine ⟨_, ?_, (Block.length_store stored).trans length, map_memory_append whole _⟩
  rw [snprintf, all, stored]
  rfl

theorem guard_of {p : Prop} [Decidable p] (holds : p) : (guard p : Option Unit) = some () :=
  if_pos holds

/-- `t_time` has the text of the last second and `t_tidString` the beginning of that of the id,
once they have been written. -/
structure Cached (tid : Int) (tl : ThreadLocal) : Prop where
  time_length : tl.tTime.length = 32
  time : tl.tLastSecond ≠ 0 →
    (List.range 17).map (memory tl.tTime) = timeText (TimeZone.gmtimeR tl.tLastSecond)
  tid_length : tl.tTidString.length = 32
  tid : tl.tCachedTid ≠ 0 → (List.range 6).map (memory tl.tTidString) = (tidText tid).take 6

theorem initial_cached (tid : Int) : Cached tid .initial where
  time_length := List.length_replicate
  time := fun written => absurd rfl written
  tid_length := List.length_replicate
  tid := fun written => absurd rfl written

theorem length_timeText_gmtimeR {seconds : Int} (nonneg : 0 ≤ seconds)
    (year_le : (TimeZone.gmtimeR seconds).date.year ≤ 9999) :
    (timeText (TimeZone.gmtimeR seconds)).length = 17 := by
  obtain ⟨valid, number⟩ := Gregorian.dayNumber_ofDayNumber (seconds / 86400 + TimeZone.epoch)
  rw [← TimeZone.date_gmtimeR] at valid number
  have days : 0 ≤ seconds / 86400 := Int.ediv_nonneg nonneg (by decide)
  have year_nonneg := valid.marchYear_nonneg (by
    rw [number]
    exact Int.add_nonneg days (by decide))
  have year : (TimeZone.gmtimeR seconds).date.marchYear ≤ (TimeZone.gmtimeR seconds).date.year := by
    unfold Gregorian.Date.marchYear
    split <;> omega
  exact length_timeText (TimeZone.timeOfDay_gmtimeR seconds) valid (Int.le_trans year_nonneg year)
    year_le

theorem cacheTime_spec (debug : Bool) {seconds : Int} (cached : Cached tid tl)
    (positive : 1 ≤ seconds) (year_le : (TimeZone.gmtimeR seconds).date.year ≤ 9999) :
    ∃ tl', cacheTime debug tl seconds = some tl' ∧ Cached tid tl' ∧
      tl'.tCachedTid = tl.tCachedTid ∧
      (List.range 17).map (memory tl'.tTime) = timeText (TimeZone.gmtimeR seconds) := by
  have length := length_timeText_gmtimeR (Int.le_trans (by decide) positive) year_le
  unfold cacheTime
  split
  case isTrue =>
    obtain ⟨mem, written, mem_length, field⟩ := snprintf_spec cached.time_length
      (timeText (TimeZone.gmtimeR seconds)) (by omega) (Nat.le_of_eq length.symm)
    rw [List.take_of_length_le (Nat.le_of_eq length)] at field
    refine ⟨{ tl with tLastSecond := seconds, tTime := mem }, ?_,
      ⟨mem_length, fun _ => field, cached.tid_length, cached.tid⟩, rfl, field⟩
    simp only [written, Option.bind_eq_bind, Option.bind_some, guard_of fun _ => length]
  case isFalse same =>
    have same : seconds = tl.tLastSecond := by omega
    have time := cached.time (by omega)
    rw [← same] at time
    exact ⟨tl, rfl, cached, rfl, time⟩

/-- Where assertions are compiled in, the thread id has to have five digits at most. -/
theorem cacheTid_spec (cached : Cached tid tl) (positive : 1 ≤ tid) (tid_le : tid ≤ 4194304)
    (asserted : debug = true → tid ≤ 99999) :
    ∃ tl', cacheTid debug tid tl = some tl' ∧ Cached tid tl' ∧
      (List.range 6).map (memory tl'.tTidString) = (tidText tid).take 6 := by
  obtain ⟨least, most⟩ := length_tidText_bounds positive tid_le
  unfold cacheTid
  split
  case isTrue =>
    obtain ⟨mem, written, mem_length, field⟩ := snprintf_spec cached.tid_length (tidText tid)
      (by omega) least
    refine ⟨{ tl with tCachedTid := tid, tTidString := mem }, ?_,
      ⟨cached.time_length, cached.time, mem_length, fun _ => field⟩, field⟩
    have passed : debug = true → (tidText tid).length = 6 :=
      fun assertions => (length_tidText_iff positive).mpr (asserted assertions)
    simp only [written, Option.bind_eq_bind, Option.bind_some, guard_of passed]
  case isFalse again => exact ⟨tl, rfl, cached, cached.tid again⟩

theorem cacheTid_aborts (cached : Cached tid tl) (fresh : tl.tCachedTid = 0) (positive : 1 ≤ tid)
    (tid_le : tid ≤ 4194304) (large : ¬ tid ≤ 99999) : cacheTid true tid tl = none := by
  obtain ⟨least, most⟩ := length_tidText_bounds positive tid_le
  obtain ⟨mem, written, -, -⟩ := snprintf_spec cached.tid_length (tidText tid) (by omega)
    (Nat.zero_le _)
  have failed : ¬ (True → (tidText tid).length = 6) :=
    fun holds => large ((length_tidText_iff positive).mp (holds trivial))
  simp only [cacheTid, if_pos fresh, written, Option.bind_eq_bind, Option.bind_some]
  rw [guard, if_neg failed]
  rfl

/-! ### The header -/

/-- The exact header of the record of a statement. -/
def headerText (tid : Int) (s : Statement Double) : List UInt8 :=
  timeText (TimeZone.gmtimeR (s.now / 1000000)) ++ usText (s.now % 1000000) ++ tidText tid ++
    LogLevelName s.level

/-- The bytes that are copied for the name of a level. -/
def levelField (level : LogLevel) : List UInt8 :=
  (List.range 6).map (memory (LogLevelName level))

/-- Two names have five letters and are copied with the NUL behind them. -/
theorem levelField_eq_iff (level : LogLevel) :
    levelField level = LogLevelName level ↔ level ≠ .INFO ∧ level ≠ .WARN := by
  cases level <;> decide

/-- A clock that shows a time from one second after the epoch to the end of the year 9999. -/
def Reading (now : Int) : Prop :=
  1000000 ≤ now ∧ (TimeZone.gmtimeR (now / 1000000)).date.year ≤ 9999

theorem zero_notMem_headerText : 0 ∉ headerText tid s := by
  have name : 0 ∉ LogLevelName s.level := by cases s.level <;> decide
  have four := zero_notMem_padded 4
  have two := zero_notMem_zeroPadded 2
  have space : 0 ∉ bytes [' '] := by decide
  have colon : 0 ∉ bytes [':'] := by decide
  refine zero_notMem_append (zero_notMem_append (zero_notMem_append ?_ ?_) ?_) name
  · simp only [timeText, List.mem_append, not_or]
    exact ⟨⟨⟨⟨⟨⟨⟨⟨four _, two _⟩, two _⟩, space⟩, two _⟩, colon⟩, two _⟩, colon⟩, two _⟩
  · exact zero_notMem_append (zero_notMem_append (by decide) (zero_notMem_zeroPadded 6 _))
      (by decide)
  · exact zero_notMem_append (zero_notMem_padded 5 tid) space

theorem insertAll_prefix (g12 : Double → List UInt8) (b : FixedBuffer kSmallBuffer)
    (items : List (Item Double)) : b.data <+: (insertAll g12 b items).data := by
  obtain ⟨kept, -, added⟩ : ∃ kept : List (Item Double), kept.Sublist items ∧
      (insertAll g12 b items).data = b.data ++ kept.flatMap (Item.text g12) :=
    insertAll_data b items
  exact ⟨_, added.symm⟩

theorem insertAll_two {b : FixedBuffer kSmallBuffer} (mem₁ mem₂ : List UInt8)
    (len₁ len₂ : IntegerType.Value .int) (room : len₁.val.toNat + len₂.val.toNat < b.avail) :
    (insertAll g12 b [T mem₁ len₁, T mem₂ len₂]).data =
      b.data ++ ((List.range len₁.val.toNat).map (memory mem₁) ++
        (List.range len₂.val.toNat).map (memory mem₂)) := by
  have plain : ∀ item ∈ [T mem₁ len₁, T mem₂ len₂], Item.numeric item = true →
      Item.text g12 item ≠ [] := by
    intro item mem numeric
    simp only [List.mem_cons, List.not_mem_nil, or_false] at mem
    rcases mem with rfl | rfl <;> cases numeric
  have fit : AllFit g12 b.avail [T mem₁ len₁, T mem₂ len₂] := by
    simp only [AllFit, T, Item.text, Item.numeric, List.length_map, List.length_range]
    have plain (p : Prop) : false = true → p := fun numeric => absurd numeric Bool.false_ne_true
    exact ⟨by omega, plain _, by omega, plain _, trivial⟩
  have whole := (insertAll_whole_iff plain).mpr fit
  rwa [List.flatMap_cons, List.flatMap_singleton] at whole

theorem length_times {time : Int} (reading : Reading time) :
    (timeText (TimeZone.gmtimeR (time / 1000000)) ++ usText (time % 1000000)).length = 26 := by
  obtain ⟨after, year_le⟩ := reading
  rw [List.length_append, length_timeText_gmtimeR (by omega) year_le,
    length_usText (by omega) (by omega)]

variable (short : ∀ v, (g12 v).length < kMaxNumericSize)
include short

theorem formatTime_spec (debug : Bool) {raw : RawBuffer} {time : Int} (cached : Cached tid tl)
    (reading : Reading time) (start : Represents raw FixedBuffer.empty) :
    ∃ tl' stream b, formatTime g12 debug tl time raw = some (tl', stream) ∧ Cached tid tl' ∧
      tl'.tCachedTid = tl.tCachedTid ∧ Represents stream b ∧
      b.data = timeText (TimeZone.gmtimeR (time / 1000000)) ++ usText (time % 1000000) := by
  obtain ⟨after, year_le⟩ := reading
  have seconds : time.tdiv 1000000 = time / 1000000 := Int.tdiv_eq_ediv_of_nonneg (by omega)
  have micros : toInt (time.tmod 1000000) = time % 1000000 := by
    rw [Int.tmod_eq_emod_of_nonneg (by omega), toInt_eq (by omega) (by omega)]
  have us_length : (usText (time % 1000000)).length = 9 := length_usText (by omega) (by omega)
  have us : Fmt.new (usText (time % 1000000)) = some ⟨_, Nat.lt_of_le_of_lt
    (Nat.le_of_eq us_length) (by decide)⟩ := dif_pos _
  have positive : 1 ≤ time / 1000000 := by omega
  obtain ⟨tl', timed, cached', same_tid, time_field⟩ :=
    cacheTime_spec debug cached positive year_le
  obtain ⟨stream, inserts, represents⟩ := inserted_represents short start
    [T tl'.tTime ⟨17, by decide, by decide⟩, T (usText (time % 1000000)) ⟨9, by decide, by decide⟩]
  refine ⟨tl', stream, _, ?_, cached', same_tid, represents, ?_⟩
  · simp only [formatTime, seconds, micros, timed, us, Option.bind_eq_bind, Option.bind_some,
      guard_of fun _ => us_length, inserts]
  · have us_field : (List.range 9).map (memory (usText (time % 1000000))) = _ :=
      us_length ▸ map_memory _
    rw [insertAll_two _ _ _ _ (by decide)]
    change [] ++ ((List.range 17).map _ ++ (List.range 9).map _) = _
    rw [time_field, us_field, List.nil_append]

theorem writeHeader_spec (cached : Cached tid tl) (positive : 1 ≤ tid) (tid_le : tid ≤ 4194304)
    (reading : Reading s.now) (asserted : debug = true → tid ≤ 99999) :
    ∃ tl' stream b, writeHeader g12 debug tid tl s = some (tl', stream) ∧ Cached tid tl' ∧
      Represents stream b ∧
      b.data = timeText (TimeZone.gmtimeR (s.now / 1000000)) ++ usText (s.now % 1000000) ++
        ((tidText tid).take 6 ++ levelField s.level) := by
  have start : Represents ⟨s.data, 0⟩ FixedBuffer.empty :=
    ⟨s.data, rfl, (Nat.zero_add _).trans s.size⟩
  obtain ⟨tl₁, stream₁, b, formatted, cached₁, -, represents, timed⟩ :=
    formatTime_spec short debug cached reading start
  obtain ⟨tl₂, identified, cached₂, tid_field⟩ := cacheTid_spec cached₁ positive tid_le asserted
  obtain ⟨stream₂, inserts, represents₂⟩ := inserted_represents short represents
    [T tl₂.tTidString ⟨6, by decide, by decide⟩, T (LogLevelName s.level) ⟨6, by decide, by decide⟩]
  refine ⟨tl₂, stream₂, _, ?_, cached₂, represents₂, ?_⟩
  · simp only [writeHeader, formatted, identified, inserts, Option.bind_eq_bind, Option.bind_some]
  · have room : 12 < b.avail := by
      rw [FixedBuffer.avail, FixedBuffer.length, timed, length_times reading]
      decide
    rw [insertAll_two _ _ ⟨6, by decide, by decide⟩ ⟨6, by decide, by decide⟩ room, timed]
    change _ ++ ((List.range 6).map _ ++ _) = _
    rw [tid_field]
    rfl

/-- A statement has its items behind the header. -/
theorem construct_spec (strerror : Int → List UInt8) {head : RawBuffer}
    {b : FixedBuffer kSmallBuffer} (represents : Represents head b)
    (begun : writeHeader g12 debug tid tl s = some (tl', head)) :
    ∃ stream, construct g12 strerror debug tid tl s =
        some (tl', ⟨stream, s.level, s.line, s.file, b.data⟩) ∧
      Represents stream (insertAll g12 b (constructorItems strerror s ++ s.items)) := by
  obtain ⟨stream₁, inserts₁, represents₁⟩ := inserted_represents short represents
    (constructorItems strerror s)
  obtain ⟨stream₂, inserts₂, represents₂⟩ := inserted_represents short represents₁ s.items
  refine ⟨stream₂, ?_, ?_⟩
  · simp only [construct, begun, inserts₁, inserts₂, content_eq represents, Option.bind_eq_bind,
      Option.bind_some]
  · rwa [insertAll, List.foldl_append]

theorem log_text (strerror : Int → List UInt8) {head : RawBuffer} {b : FixedBuffer kSmallBuffer}
    (represents : Represents head b)
    (begun : writeHeader g12 debug tid tl s = some (tl', head)) :
    ∃ record, log g12 strerror debug tid tl s = some (tl', record) ∧ record.header = b.data ∧
      record.text = (insertAll g12 (insertAll g12 b (constructorItems strerror s ++ s.items))
        (trailerItems s.file s.line)).data := by
  obtain ⟨stream, constructed, represents⟩ :=
    construct_spec short strerror represents begun
  have destroyed := destroy_spec (l := ⟨stream, s.level, s.line, s.file, b.data⟩) short represents
  refine ⟨⟨_, b.data⟩, ?_, rfl, rfl⟩
  simp only [log, constructed, destroyed, Option.bind_eq_bind, Option.bind_some]

theorem log_spec (strerror : Int → List UInt8) (cached : Cached tid tl) (positive : 1 ≤ tid)
    (tid_le : tid ≤ 4194304) (reading : Reading s.now) (asserted : debug = true → tid ≤ 99999) :
    ∃ tl' record, log g12 strerror debug tid tl s = some (tl', record) ∧ Cached tid tl' ∧
      record.header = timeText (TimeZone.gmtimeR (s.now / 1000000)) ++ usText (s.now % 1000000) ++
        ((tidText tid).take 6 ++ levelField s.level) ∧
      record.header <+: record.text := by
  obtain ⟨tl', head, b, begun, cached', represents, header⟩ :=
    writeHeader_spec short cached positive tid_le reading asserted
  obtain ⟨record, logged, is_header, text⟩ := log_text short strerror represents begun
  have first := insertAll_prefix g12 b (constructorItems strerror s ++ s.items)
  have second := insertAll_prefix g12 (insertAll g12 b (constructorItems strerror s ++ s.items))
    (trailerItems s.file s.line)
  have begins := first.trans second
  rw [← is_header, ← text] at begins
  exact ⟨tl', record, logged, cached', is_header.trans header, begins⟩

/-- The record begins with the exact header, which has no NUL. -/
structure Exact (tid : Int) (s : Statement Double) (record : Record) : Prop where
  header : record.header = headerText tid s
  begins : headerText tid s <+: record.text
  time_length : (timeText (TimeZone.gmtimeR (s.now / 1000000))).length = 17
  us_length : (usText (s.now % 1000000)).length = 9
  no_nul : 0 ∉ record.header

omit short in
theorem zero_mem_levelField_iff (level : LogLevel) :
    0 ∈ levelField level ↔ level = .INFO ∨ level = .WARN := by
  cases level <;> decide

omit short in
theorem fields_eq_iff (positive : 1 ≤ tid) :
    (tidText tid).take 6 ++ levelField s.level = tidText tid ++ LogLevelName s.level ↔
      tid ≤ 99999 ∧ s.level ≠ .INFO ∧ s.level ≠ .WARN := by
  rw [← length_tidText_iff positive, ← levelField_eq_iff]
  constructor
  · intro same
    have no_nul : 0 ∉ levelField s.level := by
      intro mem
      have mem : 0 ∈ tidText tid ++ LogLevelName s.level := same ▸ List.mem_append_right _ mem
      have no_nul : 0 ∉ headerText tid s := zero_notMem_headerText
      rw [headerText, List.append_assoc _ (tidText tid)] at no_nul
      exact no_nul (List.mem_append_right _ mem)
    have name : levelField s.level = LogLevelName s.level := by
      rw [zero_mem_levelField_iff, not_or] at no_nul
      exact (levelField_eq_iff _).mpr no_nul
    rw [name] at same
    have whole := congrArg List.length (List.append_cancel_right same)
    rw [List.length_take] at whole
    have five := length_tidText tid
    exact ⟨by omega, name⟩
  · rintro ⟨length, name⟩
    rw [name, List.take_of_length_le (Nat.le_of_eq length)]

/-- Where the assertions pass, the record of a statement shows whether its header is exact. -/
theorem log_exact_iff (strerror : Int → List UInt8) (cached : Cached tid tl) (positive : 1 ≤ tid)
    (tid_le : tid ≤ 4194304) (reading : Reading s.now) (asserted : debug = true → tid ≤ 99999) :
    ∃ tl' record, log g12 strerror debug tid tl s = some (tl', record) ∧ Cached tid tl' ∧
      (Exact tid s record ↔ tid ≤ 99999 ∧ s.level ≠ .INFO ∧ s.level ≠ .WARN) := by
  obtain ⟨tl', record, logged, cached', header, begins⟩ :=
    log_spec short strerror cached positive tid_le reading asserted
  have exact_iff : record.header = headerText tid s ↔
      tid ≤ 99999 ∧ s.level ≠ .INFO ∧ s.level ≠ .WARN := by
    rw [header, headerText, List.append_assoc _ (tidText tid), List.append_right_inj,
      fields_eq_iff positive]
  refine ⟨tl', record, logged, cached', ?_⟩
  constructor
  · intro exact
    exact exact_iff.mp exact.header
  · intro good
    have same := exact_iff.mpr good
    obtain ⟨after, year_le⟩ := reading
    exact {
      header := same
      begins := same ▸ begins
      time_length := length_timeText_gmtimeR (by omega) year_le
      us_length := length_usText (by omega) (by omega)
      no_nul := same ▸ zero_notMem_headerText }

theorem run_exact_iff (positive : 1 ≤ tid) (tid_le : tid ≤ 4194304)
    (asserted : debug = true → tid ≤ 99999) {statements : List (Statement Double)}
    (cached : Cached tid tl) (readings : ∀ s ∈ statements, Reading s.now) :
    (∃ records, run g12 strerror debug tid tl statements = some records ∧
      List.Forall₂ (Exact tid) (made statements) records) ↔
      ∀ s ∈ made statements, tid ≤ 99999 ∧ s.level ≠ .INFO ∧ s.level ≠ .WARN := by
  induction statements generalizing tl with
  | nil => exact iff_of_true ⟨[], rfl, .nil⟩ fun s mem => absurd mem List.not_mem_nil
  | cons s statements ih =>
      obtain ⟨tl', record, logged, cached', exact_iff⟩ :=
        log_exact_iff short strerror cached positive tid_le
          (readings s (List.mem_cons_self ..)) asserted
      rw [run, logged, made]
      simp only [Option.bind_eq_bind, Option.bind_some]
      split
      case isTrue =>
        rw [List.forall_mem_singleton, ← exact_iff]
        constructor
        · rintro ⟨_, ran, exact_first⟩
          cases ran
          rw [List.forall₂_cons] at exact_first
          exact exact_first.1
        · intro exact_first
          exact ⟨_, rfl, .cons exact_first .nil⟩
      case isFalse =>
        rw [List.forall_mem_cons, ← exact_iff,
          ← ih cached' fun s mem => readings s (List.mem_cons_of_mem _ mem)]
        constructor
        · rintro ⟨_, ran, exact_all⟩
          obtain ⟨records, rest, same⟩ := Option.bind_eq_some_iff.mp ran
          cases same
          rw [List.forall₂_cons] at exact_all
          exact ⟨exact_all.1, records, rest, exact_all.2⟩
        · rintro ⟨exact_first, records, rest, exact_rest⟩
          rw [rest]
          exact ⟨_, rfl, .cons exact_first exact_rest⟩

theorem run_aborts (positive : 1 ≤ tid) (tid_le : tid ≤ 4194304) (large : ¬ tid ≤ 99999)
    (reading : Reading s.now) (statements : List (Statement Double)) :
    run g12 strerror true tid .initial (s :: statements) = none := by
  have start : Represents ⟨s.data, 0⟩ FixedBuffer.empty :=
    ⟨s.data, rfl, (Nat.zero_add _).trans s.size⟩
  obtain ⟨tl', stream, b, formatted, cached, same, -⟩ :=
    formatTime_spec short true (initial_cached tid) reading start
  have aborts := cacheTid_aborts cached same positive tid_le large
  have header : writeHeader g12 true tid .initial s = none := by
    rw [writeHeader, formatted, Option.bind_eq_bind, Option.bind_some]
    simp only [aborts, Option.bind_eq_bind, Option.bind_none]
  simp only [run, log, construct, header, Option.bind_eq_bind, Option.bind_none]

/-- **The headers of a thread are exact exactly if its id has at most five digits and no record is
of level `INFO` or `WARN`.** -/
theorem headers_exact_iff (positive : 1 ≤ tid) (tid_le : tid ≤ 4194304)
    (statements : List (Statement Double)) (readings : ∀ s ∈ statements, Reading s.now) :
    (∃ records, run g12 strerror debug tid .initial statements = some records ∧
      List.Forall₂ (Exact tid) (made statements) records) ↔
      ∀ s ∈ made statements, tid ≤ 99999 ∧ s.level ≠ .INFO ∧ s.level ≠ .WARN := by
  by_cases asserted : debug = true → tid ≤ 99999
  · exact run_exact_iff short positive tid_le asserted (initial_cached tid) readings
  · obtain ⟨rfl, large⟩ := Classical.not_imp.mp asserted
    cases statements with
    | nil => exact iff_of_true ⟨[], rfl, .nil⟩ fun s mem => absurd mem List.not_mem_nil
    | cons s statements =>
        have aborts : run g12 strerror true tid .initial (s :: statements) = none :=
          run_aborts short positive tid_le large (readings s (List.mem_cons_self ..)) statements
        refine iff_of_false ?_ ?_
        · rintro ⟨records, ran, -⟩
          cases aborts.symm.trans ran
        · intro small
          have first : s ∈ made (s :: statements) := by
            rw [made]
            split
            · exact List.mem_singleton_self s
            · exact List.mem_cons_self ..
          exact large (small s first).1

/-! ### The trailer -/

/-- **A record ends in the complete trailer exactly if there is room for a number of the greatest
size behind the file name.** -/
theorem trailer_complete_iff {l : Logger}
    (constructed : construct g12 strerror debug tid tl s = some (tl', l)) :
    ∃ record, destroy g12 l = some record ∧
      (record = content l.stream ++ trailer s.file s.line ↔
        (s.file.data.length : Int) + 36 ≤ l.stream.avail) := by
  obtain ⟨⟨b, represents⟩, line, file⟩ := represents_content short constructed
  refine ⟨_, destroy_spec short represents, ?_⟩
  rw [line, file, content_eq represents, represents.avail, trailer_iff]
  omega

omit short in
/-- A single free byte is never filled. -/
theorem insertAll_of_full {b : FixedBuffer kSmallBuffer} (full : b.avail = 1)
    {items : List (Item Double)} (nonempty : ∀ item ∈ items, item.text g12 ≠ []) :
    insertAll g12 b items = b := by
  induction items with
  | nil => rfl
  | cons item items ih =>
      rw [List.forall_mem_cons] at nonempty
      have positive := List.length_pos_iff.mpr nonempty.1
      have dropped : insertText g12 b item = b :=
        insertText_of_not_fits fun fits => by omega
      rw [insertAll_cons, dropped, ih nonempty.2]

end Header

/-! ### Failing statements -/

section Statements

/-- A statement of November 14th 2023 in line 12 of `a.cpp`. -/
def statement (level : LogLevel) (message : List UInt8) : Statement Unit where
  now := 1700000000123456
  constructor := .level level
  file := .new (bytes ['/', 's', '/', 'a', '.', 'c', 'p', 'p']) (by decide)
  line := ⟨12, by decide, by decide⟩
  items := [.string message]
  data := List.replicate kSmallBuffer 0
  size := List.length_replicate

theorem reading_statement (level : LogLevel) (message : List UInt8) :
    Reading (statement level message).now := by
  constructor
  · change (1000000 : Int) ≤ 1700000000123456
    decide
  · change (TimeZone.gmtimeR (1700000000123456 / 1000000)).date.year ≤ 9999
    decide

theorem short_zero (v : Unit) : ((fun _ => bytes ['0']) v).length < kMaxNumericSize := by
  change (bytes ['0']).length < kMaxNumericSize
  decide

theorem length_header (level : LogLevel) (message : List UInt8) :
    (timeText (TimeZone.gmtimeR ((statement level message).now / 1000000)) ++
      usText ((statement level message).now % 1000000) ++
      ((tidText 4242).take 6 ++ levelField level)).length = 38 := by
  rw [List.length_append, length_times (reading_statement level message)]
  cases level <;> decide

/-- Thread 4242 begins a record: 38 bytes and the message, if it fits. -/
theorem statement_begins (level : LogLevel) (message : List UInt8)
    (fits : message.length < 3962) :
    ∃ tl' head b, writeHeader (fun _ : Unit => bytes ['0']) false 4242 .initial
        (statement level message) = some (tl', head) ∧ Represents head b ∧
      (insertAll (fun _ : Unit => bytes ['0']) b [.string message]).data = b.data ++ message ∧
      b.data.length = 38 := by
  have asserted : false = true → (4242 : Int) ≤ 99999 := fun _ => by decide
  obtain ⟨tl', head, b, begun, -, represents, content_header⟩ :=
    writeHeader_spec (s := statement level message) short_zero (initial_cached 4242) (by decide)
      (by decide) (reading_statement level message) asserted
  have length : b.data.length = 38 := by
    rw [content_header]
    exact length_header level message
  have added : (insertText (fun _ : Unit => bytes ['0']) b (.string message)).data =
      b.data ++ message := by
    refine insertText_of_fits (?_ : (Item.text _ (.string message)).length < _) nofun
    change message.length < kSmallBuffer - b.data.length
    rw [length]
    exact fits
  exact ⟨tl', head, b, begun, represents, added, length⟩

/-- Neither a record of level `INFO` nor one of a thread with six digits is as it should be. -/
theorem header_with_nul :
    ¬ (∃ records, run (fun _ : Unit => bytes ['0']) (fun _ => []) false 4242 .initial
        [statement .INFO []] = some records ∧
      List.Forall₂ (Exact 4242) (made [statement .INFO []]) records) ∧
    run (fun _ : Unit => bytes ['0']) (fun _ => []) true 100000 .initial [statement .ERROR []] =
      none := by
  constructor
  · refine mt (run_exact_iff short_zero (by decide) (by decide) (fun on => absurd on (by decide))
      (initial_cached 4242) ?_).mp ?_
    · rw [List.forall_mem_singleton]
      exact reading_statement .INFO []
    intro good
    exact (good (statement .INFO []) (List.mem_singleton_self _)).2.1 rfl
  · exact run_aborts short_zero (by decide) (by decide) (by decide) (reading_statement .ERROR []) []

theorem headers_exact_of_error :
    ∃ records, run (fun _ : Unit => bytes ['0']) (fun _ => []) true 4242 .initial
        [statement .ERROR []] = some records ∧
      List.Forall₂ (Exact 4242) (made [statement .ERROR []]) records := by
  apply (headers_exact_iff short_zero (by decide) (by decide) [statement .ERROR []] (by
    rw [List.forall_mem_singleton]
    exact reading_statement .ERROR [])).mpr
  intro s mem
  rw [List.mem_singleton.mp mem]
  decide

/-- Behind a message of 3961 bytes nothing of the trailer is let in. -/
theorem trailer_dropped :
    ∃ tl' record, log (fun _ : Unit => bytes ['0']) (fun _ => []) false 4242 .initial
        (statement .WARN (List.replicate 3961 120)) = some (tl', record) ∧
      ¬ trailer (statement .WARN []).file (statement .WARN []).line <:+ record.text := by
  obtain ⟨tl', head, b, begun, represents, added, length⟩ :=
    statement_begins .WARN (List.replicate 3961 120) (by rw [List.length_replicate]; decide)
  obtain ⟨record, logged, -, text⟩ := log_text short_zero (fun _ => []) represents begun
  change record.text = (insertAll _ (insertAll _ b [.string (List.replicate 3961 120)]) _).data
    at text
  have full : (insertAll (fun _ : Unit => bytes ['0']) b
      [.string (List.replicate 3961 120)]).avail = 1 := by
    rw [FixedBuffer.avail, FixedBuffer.length, added, List.length_append, length,
      List.length_replicate]
    rfl
  rw [insertAll_of_full full, added] at text
  · refine ⟨tl', record, logged, ?_⟩
    rw [text]
    intro ends
    have last : (10 : UInt8) = 120 := by
      have nonempty : List.replicate 3961 (120 : UInt8) ≠ [] := List.cons_ne_nil _ _
      have same := ends.getLast (ne_of_beq_false rfl)
      rwa [List.getLast_append_of_ne_nil _ nonempty, List.getLast_replicate] at same
    exact absurd last (by decide)
  · intro item mem
    simp only [trailerItems, List.mem_cons, List.not_mem_nil, or_false] at mem
    rcases mem with rfl | rfl | rfl | rfl | rfl
    case inr.inr.inr.inl => exact decimalText_ne_nil 12
    all_goals exact ne_of_beq_false rfl

theorem trailer_complete_of_error :
    ∃ tl' l, construct (fun _ : Unit => bytes ['0']) (fun _ => []) false 4242 .initial
        (statement .ERROR [120]) = some (tl', l) ∧
      ∃ record, destroy (fun _ : Unit => bytes ['0']) l = some record ∧
        record = content l.stream ++
          trailer (statement .ERROR [120]).file (statement .ERROR [120]).line := by
  obtain ⟨tl', head, b, begun, represents, added, length⟩ :=
    statement_begins .ERROR [120] (by decide)
  obtain ⟨stream, constructed, represents⟩ :=
    construct_spec short_zero (fun _ => []) represents begun
  obtain ⟨record, destroyed, complete_iff⟩ := trailer_complete_iff short_zero constructed
  refine ⟨tl', _, constructed, record, destroyed, complete_iff.mpr ?_⟩
  have kept : (insertAll (fun _ : Unit => bytes ['0']) b
      (constructorItems (fun _ => []) (statement .ERROR [120]) ++
        (statement .ERROR [120]).items)).data = b.data ++ [120] := added
  rw [represents.avail, FixedBuffer.avail, FixedBuffer.length, kept, List.length_append, length]
  decide

end Statements

end Dbdky.Logger
