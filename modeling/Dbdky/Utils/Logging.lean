import Dbdky.Utils.LogStream
import Dbdky.Utils.TimeZone

/-!
`Logger` (`src/utils/Logging.{h,cpp}`): the record of one log statement.

A statement constructs a `Logger`, inserts its items and destroys the `Logger`, which hands
the record to `g_output`. The constructor reads what the thread has cached, its id and
the text of the last second; `gettid` and `strerror_r` are parameters. In a build with
assertions (`debug`) a failed one aborts.

* **`represents_content`.** A statement fills its stream like `insertAll` fills a
  `FixedBuffer`.
* **`trailer_iff`.** All of the trailer is inserted exactly if there is room for a number
  of the greatest size behind the file name.
-/

namespace Dbdky

open CInt LogStream

namespace Logger

inductive LogLevel where
  | TRACE | DEBUG | INFO | WARN | ERROR | FATAL
deriving DecidableEq, Repr

def LogLevelName : LogLevel → List UInt8
  | .TRACE => bytes ['T', 'R', 'A', 'C', 'E', ' ']
  | .DEBUG => bytes ['D', 'E', 'B', 'U', 'G', ' ']
  | .INFO => bytes ['I', 'N', 'F', 'O', ' ']
  | .WARN => bytes ['W', 'A', 'R', 'N', ' ']
  | .ERROR => bytes ['E', 'R', 'R', 'O', 'R', ' ']
  | .FATAL => bytes ['F', 'A', 'T', 'A', 'L', ' ']

structure SourceFile where
  data : List UInt8
  size : IntegerType.Value .int
  size_eq : size.val = data.length

/-- `SourceFile(filename)`: the name behind the last slash. -/
def SourceFile.new (filename : List UInt8) (fits : filename.length ≤ 2147483647) : SourceFile :=
  let data := (filename.reverse.takeWhile (· ≠ 47)).reverse
  { data
    size := {
      val := data.length
      min_le := Int.le_trans (by decide) (Int.natCast_nonneg _)
      le_max := by
        have part := (List.takeWhile_sublist (· ≠ 47) (l := filename.reverse)).length_le
        simp only [data, List.length_reverse] at part ⊢
        exact Int.ofNat_le.mpr (Nat.le_trans part fits) }
    size_eq := rfl }

/-- What a thread keeps: `t_time`, `t_lastSecond`, `t_cachedTid`, `t_tidString`. -/
structure ThreadLocal where
  tTime : List UInt8
  tLastSecond : Int
  tCachedTid : Int
  tTidString : List UInt8
deriving DecidableEq, Repr

/-- A thread that has not logged anything: everything is zero. -/
def ThreadLocal.initial : ThreadLocal := ⟨List.replicate 32 0, 0, 0, List.replicate 32 0⟩

/-! ### Texts of `snprintf` -/

/-- `%<width>d` -/
def padded (width : Nat) (v : Int) : List UInt8 :=
  List.replicate (width - (decimalText v).length) 32 ++ decimalText v

/-- `%0<width>d` -/
def zeroPadded (width : Nat) (v : Int) : List UInt8 :=
  (if v < 0 then bytes ['-'] else []) ++ List.replicate (width - (decimalText v).length) 48 ++
    decimal.write v.natAbs

/-- `"%4d%02d%02d %02d:%02d:%02d"` of a `struct tm` -/
def timeText (tm : TimeZone.Tm) : List UInt8 :=
  padded 4 (tm.tmYear + 1900) ++ zeroPadded 2 (tm.tmMon + 1) ++ zeroPadded 2 tm.tmMday ++
    bytes [' '] ++ zeroPadded 2 tm.tmHour ++ bytes [':'] ++ zeroPadded 2 tm.tmMin ++ bytes [':'] ++
    zeroPadded 2 tm.tmSec

/-- `".%06dZ "` -/
def usText (microseconds : Int) : List UInt8 :=
  bytes ['.'] ++ zeroPadded 6 microseconds ++ bytes ['Z', ' ']

/-- `"%5d "` -/
def tidText (tid : Int) : List UInt8 := padded 5 tid ++ bytes [' ']

/-! ### A log statement -/

/-- The four constructors, with the `errno` of the last one. -/
inductive Constructor where
  | plain
  | func (level : LogLevel) (func : List UInt8)
  | level (level : LogLevel)
  | toAbort (toAbort : Bool) (errno : IntegerType.Value .int)

namespace Constructor

def logLevel : Constructor → LogLevel
  | .plain => .INFO
  | .func l _ | .level l => l
  | .toAbort abort _ => if abort then .FATAL else .ERROR

def savedErrno : Constructor → IntegerType.Value .int
  | .toAbort _ e => e
  | _ => ⟨0, by decide, by decide⟩

end Constructor

/-- A log statement in the microsecond `now`. The buffer of its stream lies on `data`. -/
structure Statement (Double : Type) where
  now : Int
  constructor : Constructor
  file : SourceFile
  line : IntegerType.Value .int
  items : List (Item Double)
  data : List UInt8
  size : data.length = kSmallBuffer

def Statement.level {Double : Type} (s : Statement Double) : LogLevel := s.constructor.logLevel

end Logger

structure Logger where
  stream : RawBuffer
  level : Logger.LogLevel
  line : LogStream.IntegerType.Value .int
  basename : Logger.SourceFile
  /-- History: the bytes up to the name of the level. -/
  header : List UInt8

namespace Logger

section Code

variable {Double : Type} (g12 : Double → List UInt8) (strerror : Int → List UInt8) (debug : Bool)

/-- `operator<<` of `T(str, len)` -/
def T (str : List UInt8) (len : IntegerType.Value .int) : Item Double := .append (memory str) len

/-- `operator<<` of several items -/
def inserted (stream : RawBuffer) (items : List (Item Double)) : Option RawBuffer :=
  items.foldlM (LogStream.insert g12) stream

/-- The text of a second, written anew if it is not the last one. -/
def cacheTime (tl : ThreadLocal) (seconds : Int) : Option ThreadLocal :=
  if seconds ≠ tl.tLastSecond then do
    let (tTime, len) ← snprintf tl.tTime 0 32 (timeText (TimeZone.gmtimeR seconds))
    guard (debug → len = 17)
    some { tl with tLastSecond := seconds, tTime }
  else some tl

def formatTime (tl : ThreadLocal) (time : Int) (stream : RawBuffer) :
    Option (ThreadLocal × RawBuffer) := do
  let seconds := time.tdiv 1000000
  let microseconds := toInt (time.tmod 1000000)
  let tl ← cacheTime debug tl seconds
  let us ← Fmt.new (usText microseconds)
  guard (debug → us.text.length = 9)
  let stream ← inserted g12 stream
    [T tl.tTime ⟨17, by decide, by decide⟩, T us.text ⟨9, by decide, by decide⟩]
  some (tl, stream)

/-- `CurrentThread::cacheTid`, where `gettid` returns `tid` -/
def cacheTid (tid : Int) (tl : ThreadLocal) : Option ThreadLocal :=
  if tl.tCachedTid = 0 then do
    let (tTidString, n) ← snprintf tl.tTidString 0 32 (tidText tid)
    guard (debug → n = 6)
    some { tl with tCachedTid := tid, tTidString }
  else some tl

/-- The constructor of `Impl` up to the name of the level. -/
def writeHeader (tid : Int) (tl : ThreadLocal) (s : Statement Double) :
    Option (ThreadLocal × RawBuffer) := do
  let (tl, stream) ← formatTime g12 debug tl s.now ⟨s.data, 0⟩
  let tl ← cacheTid debug tid tl
  let stream ← inserted g12 stream
    [T tl.tTidString ⟨6, by decide, by decide⟩, T (LogLevelName s.level) ⟨6, by decide, by decide⟩]
  some (tl, stream)

/-- The items that the constructors insert behind that. -/
def constructorItems (s : Statement Double) : List (Item Double) :=
  (if s.constructor.savedErrno.val ≠ 0 then
    [.string (strerror s.constructor.savedErrno.val),
      .string (bytes [' ', '(', 'e', 'r', 'r', 'n', 'o', '=']),
      .integer .int s.constructor.savedErrno, .string (bytes [')', ' '])]
  else []) ++
  match s.constructor with
  | .func _ func => [.string func, .char 32]
  | _ => []

/-- `data()` and `length()` of the buffer -/
def content (b : RawBuffer) : List UInt8 := b.data.take b.cur

/-- A statement up to the destructor. -/
def construct (tid : Int) (tl : ThreadLocal) (s : Statement Double) :
    Option (ThreadLocal × Logger) := do
  let (tl, head) ← writeHeader g12 debug tid tl s
  let stream ← inserted g12 head (constructorItems strerror s)
  let stream ← inserted g12 stream s.items
  some (tl, ⟨stream, s.level, s.line, s.file, content head⟩)

def finish (l : Logger) : Option RawBuffer :=
  inserted g12 l.stream
    [.string (bytes [' ', '-', ' ']), .append (memory l.basename.data) l.basename.size,
      .string (bytes [':']), .integer .int l.line, .char 10]

/-- `~Logger`: what is passed to `g_output`. -/
def destroy (l : Logger) : Option (List UInt8) := do
  let stream ← finish g12 l
  some (content stream)

/-- What is passed to `g_output`, and which of it is the header. -/
structure Record where
  text : List UInt8
  header : List UInt8

/-- A log statement of the thread `tid`. -/
def log (tid : Int) (tl : ThreadLocal) (s : Statement Double) : Option (ThreadLocal × Record) := do
  let (tl, l) ← construct g12 strerror debug tid tl s
  let text ← destroy g12 l
  some (tl, ⟨text, l.header⟩)

/-- The records of a thread. `~Logger` aborts behind one of level `FATAL`. -/
def run (tid : Int) : ThreadLocal → List (Statement Double) → Option (List Record)
  | _, [] => some []
  | tl, s :: statements => do
      let (tl, record) ← log g12 strerror debug tid tl s
      if s.level = .FATAL then some [record]
      else do
        let records ← run tid tl statements
        some (record :: records)

/-- The statements that are made, up to the first of level `FATAL`. -/
def made : List (Statement Double) → List (Statement Double)
  | [] => []
  | s :: statements => if s.level = .FATAL then [s] else s :: made statements

end Code

/-! ### What a statement leaves in its stream -/

/-- What `finish` inserts. -/
def trailerItems {Double : Type} (file : SourceFile) (line : IntegerType.Value .int) :
    List (Item Double) :=
  [.string (bytes [' ', '-', ' ']), .append (memory file.data) file.size, .string (bytes [':']),
    .integer .int line, .char 10]

/-- The complete trailer. -/
def trailer (file : SourceFile) (line : IntegerType.Value .int) : List UInt8 :=
  bytes [' ', '-', ' '] ++ file.data ++ bytes [':'] ++ decimalText line.val ++ [10]

section Content

variable {Double : Type} {g12 : Double → List UInt8} {strerror : Int → List UInt8} {debug : Bool}
  {raw stream : RawBuffer} {b : FixedBuffer kSmallBuffer}

theorem content_eq (represents : Represents raw b) : content raw = b.data := represents.content.1

section Represents

variable (short : ∀ v, (g12 v).length < kMaxNumericSize) {tid : Int} {tl tl' : ThreadLocal}
  {s : Statement Double}
include short

theorem inserted_represents (represents : Represents raw b) (items : List (Item Double)) :
    ∃ raw', inserted g12 raw items = some raw' ∧ Represents raw' (insertAll g12 b items) :=
  insertAll_represents short represents items

/-- What has been inserted has left a stream with a free byte. -/
theorem represents_of_inserted {items : List (Item Double)} (represents : Represents raw b)
    (ran : inserted g12 raw items = some stream) : Represents stream (insertAll g12 b items) := by
  obtain ⟨raw', ran', represents'⟩ := inserted_represents short represents items
  cases ran.symm.trans ran'
  exact represents'

theorem formatTime_represents {time : Int} (represents : Represents raw b)
    (ran : formatTime g12 debug tl time raw = some (tl', stream)) :
    ∃ b, Represents stream b := by
  obtain ⟨tl₁, -, ran⟩ := Option.bind_eq_some_iff.mp ran
  obtain ⟨us, -, ran⟩ := Option.bind_eq_some_iff.mp ran
  obtain ⟨-, -, ran⟩ := Option.bind_eq_some_iff.mp ran
  obtain ⟨stream', inserts, ran⟩ := Option.bind_eq_some_iff.mp ran
  cases ran
  exact ⟨_, represents_of_inserted short represents inserts⟩

theorem writeHeader_represents (ran : writeHeader g12 debug tid tl s = some (tl', stream)) :
    ∃ b, Represents stream b := by
  have start : Represents ⟨s.data, 0⟩ FixedBuffer.empty :=
    ⟨s.data, rfl, (Nat.zero_add _).trans s.size⟩
  obtain ⟨⟨tl₁, timed⟩, formatted, ran⟩ := Option.bind_eq_some_iff.mp ran
  obtain ⟨tl₂, -, ran⟩ := Option.bind_eq_some_iff.mp ran
  obtain ⟨stream', inserts, ran⟩ := Option.bind_eq_some_iff.mp ran
  cases ran
  obtain ⟨b, represents⟩ := formatTime_represents short start formatted
  exact ⟨_, represents_of_inserted short represents inserts⟩

/-- **A statement fills its stream like a `FixedBuffer`.** -/
theorem represents_content {l : Logger}
    (ran : construct g12 strerror debug tid tl s = some (tl', l)) :
    (∃ b, Represents l.stream b) ∧ l.line = s.line ∧ l.basename = s.file := by
  obtain ⟨⟨tl₁, head⟩, begun, ran⟩ := Option.bind_eq_some_iff.mp ran
  obtain ⟨stream₁, inserts, ran⟩ := Option.bind_eq_some_iff.mp ran
  obtain ⟨stream₂, inserts', ran⟩ := Option.bind_eq_some_iff.mp ran
  cases ran
  obtain ⟨b, represents⟩ := writeHeader_represents short begun
  have represents := represents_of_inserted short represents inserts
  exact ⟨⟨_, represents_of_inserted short represents inserts'⟩, rfl, rfl⟩

theorem destroy_spec {l : Logger} (represents : Represents l.stream b) :
    destroy g12 l = some (insertAll g12 b (trailerItems l.basename l.line)).data := by
  obtain ⟨stream, finished, represents⟩ := inserted_represents short represents
    (trailerItems l.basename l.line)
  have finished : finish g12 l = some stream := finished
  rw [destroy, finished, Option.bind_eq_bind, Option.bind_some, content_eq represents]

end Represents

/-! ### The trailer -/

theorem text_of_file (file : SourceFile) :
    Item.text g12 (.append (memory file.data) file.size) = file.data := by
  rw [Item.text, file.size_eq, Int.toNat_natCast, map_memory]

theorem decimalText_ne_nil (v : Int) : decimalText v ≠ [] := by
  by_cases negative : v < 0
  · rw [decimalText_of_neg negative]
    exact List.cons_ne_nil _ _
  · rw [decimalText_of_nonneg negative]
    exact Coding.Numerals.write_ne_nil

section Trailer

variable (b : FixedBuffer kSmallBuffer) (file : SourceFile) (line : IntegerType.Value .int)

theorem trailerItems_text (g12 : Double → List UInt8) :
    (trailerItems file line).flatMap (Item.text g12) = trailer file line := by
  have name : Item.text g12 (.append (memory file.data) file.size) = file.data :=
    text_of_file file
  simp only [trailerItems, List.flatMap_cons, List.flatMap_nil, name]
  simp only [Item.text, trailer, List.append_assoc, List.append_nil]

/-- The line number is the only part of the trailer that is let in as a number. -/
theorem trailer_fits_iff (avail : Nat) :
    AllFit g12 avail (trailerItems file line) ↔ file.data.length + 36 ≤ avail := by
  have number := length_decimalText_le line
  have size : kMaxNumericSize = 32 := rfl
  have name : Item.text g12 (.append (memory file.data) file.size) = file.data :=
    text_of_file file
  simp only [trailerItems, AllFit, name]
  simp only [Item.text, Item.numeric]
  have dash : (bytes [' ', '-', ' ']).length = 3 := rfl
  have colon : (bytes [':']).length = 1 := rfl
  rw [dash, colon, List.length_singleton]
  constructor
  · rintro ⟨-, -, -, -, -, -, -, room, -⟩
    have room := room trivial
    omega
  · intro room
    have plain (p : Prop) : false = true → p := fun numeric => absurd numeric Bool.false_ne_true
    refine ⟨by omega, plain _, by omega, plain _, by omega, plain _, by omega, fun _ => by omega,
      by omega, plain _, trivial⟩

/-- All of the trailer is inserted exactly if there is room for the line number behind the file
name. -/
theorem trailer_iff :
    (insertAll g12 b (trailerItems file line)).data = b.data ++ trailer file line ↔
      file.data.length + 36 ≤ b.avail := by
  have nonempty : ∀ item ∈ trailerItems file line, item.numeric = true →
      Item.text g12 item ≠ [] := by
    intro item mem numeric
    simp only [trailerItems, List.mem_cons, List.not_mem_nil, or_false] at mem
    rcases mem with rfl | rfl | rfl | rfl | rfl
    case inr.inr.inr.inl => exact decimalText_ne_nil line.val
    all_goals cases numeric
  rw [← trailerItems_text file line g12, insertAll_whole_iff nonempty, trailer_fits_iff]

end Trailer

end Content

end Logger

end Dbdky
