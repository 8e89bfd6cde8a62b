import Dbdky.Utils.LogFileDays
import Dbdky.Utils.LogFileWrites
import Dbdky.Utils.Timestamp

/-!
The files that a `LogFile` leaves (`src/utils/LogFile.cpp`).

The machine of `LogFile` with the names and the bytes: a file is named after the second in
which it is opened, and each line goes to the file that is open. The bytes are those that
`fwrite_unlocked` has accepted; `line` lies in memory in front of `beyond`.

* **`files_in_order`.** Up to the year 9999 the names are in the order in which the files have
  been opened. If every line is accepted exactly, the files are the lines, one after the other.
-/

namespace Dbdky.LogFile

open Transition Coding LogStream

/-! ### Names -/

/-- What `getLogFileName` puts around the time. -/
structure Process where
  basename : List UInt8
  /-- `ProcessInfo::hostname()` -/
  hostname : List UInt8
  /-- `ProcessInfo::pid()` -/
  pid : Int
deriving DecidableEq, Repr

/-- `strftime(timebuf, sizeof timebuf, ".%Y%m%d- %H%M%S.", &tm)` -/
def timebuf (tm : TimeZone.Tm) : List UInt8 :=
  bytes ['.'] ++ decimalText (tm.tmYear + 1900) ++ Logger.zeroPadded 2 (tm.tmMon + 1) ++
    Logger.zeroPadded 2 tm.tmMday ++ bytes ['-', ' '] ++ Logger.zeroPadded 2 tm.tmHour ++
    Logger.zeroPadded 2 tm.tmMin ++ Logger.zeroPadded 2 tm.tmSec ++ bytes ['.']

/-- `getLogFileName(basename, now)`, where `time` returns `now` -/
def getLogFileName (process : Process) (now : Int) : List UInt8 :=
  process.basename ++ timebuf (TimeZone.gmtimeR now) ++ process.hostname ++
    (bytes ['.'] ++ decimalText process.pid) ++ bytes ['.', 'l', 'o', 'g']

def nameFields : List (Numerals.Field UInt8) :=
  [⟨bytes ['.'], 48, 4⟩, ⟨[], 48, 2⟩, ⟨[], 48, 2⟩, ⟨bytes ['-', ' '], 48, 2⟩, ⟨[], 48, 2⟩,
    ⟨[], 48, 2⟩]

theorem decimalText_eq_padded {v : Int} (first : 1000 ≤ v) (last : v ≤ 9999) :
    decimalText v = decimal.padded 48 4 v.toNat := by
  have nonneg : 0 ≤ v := Int.le_trans (by decide) first
  have same : v.natAbs = v.toNat := by omega
  have digits : ¬ (decimal.write v.toNat).length ≤ 3 := by
    rw [Numerals.length_write_le_iff (by decide)]
    change ¬ v.toNat < 10 ^ 3
    omega
  have none : 4 - (decimal.write v.toNat).length = 0 := by omega
  rw [decimalText_of_nonneg (Int.not_lt.mpr nonneg), same, Numerals.padded, none]
  rfl

/-- The time in a name is a line of six numbers. -/
theorem timebuf_eq {now : Int} (first : 0 ≤ now) (last : now < Timestamp.endOf9999) :
    timebuf (TimeZone.gmtimeR now) =
      decimal.line nameFields (Timestamp.utcNumbers now) ++ bytes ['.'] := by
  have year := Timestamp.year_of_seconds first last
  have valid := (Gregorian.dayNumber_ofDayNumber (now / 86400 + TimeZone.epoch)).1
  rw [← TimeZone.date_gmtimeR] at valid
  have month : 0 ≤ (TimeZone.gmtimeR now).tmMon + 1 := Int.le_trans (by decide) valid.month_pos
  have day : 0 ≤ (TimeZone.gmtimeR now).tmMday := Int.le_trans (by decide) valid.day_pos
  have time := TimeZone.timeOfDay_gmtimeR now
  have digits := decimalText_eq_padded (v := (TimeZone.gmtimeR now).tmYear + 1900)
    (Int.le_trans (by decide) year.1) year.2
  rw [timebuf, digits, Timestamp.zeroPadded_of_nonneg 2 month,
    Timestamp.zeroPadded_of_nonneg 2 day, Timestamp.zeroPadded_of_nonneg 2 time.hour_nonneg,
    Timestamp.zeroPadded_of_nonneg 2 time.min_nonneg,
    Timestamp.zeroPadded_of_nonneg 2 time.sec_nonneg]
  simp only [nameFields, Timestamp.utcNumbers, Timestamp.utcFields, List.map_cons, List.map_nil,
    Numerals.line, List.nil_append, List.append_assoc]

theorem nameFields_ordered : ∀ field ∈ nameFields, decimal.Ordered field.filler := by
  intro field mem
  refine Timestamp.decimal_ordered ?_
  simp only [nameFields, List.mem_cons, List.not_mem_nil, or_false] at mem
  rcases mem with rfl | rfl | rfl | rfl | rfl | rfl <;> decide

/-- A file that is opened later has the greater name. -/
theorem getLogFileName_lt (process : Process) {now later : Int} (first : 0 ≤ now)
    (less : now < later) (last : later < Timestamp.endOf9999) :
    getLogFileName process now < getLogFileName process later := by
  have first' : 0 ≤ later := Int.le_of_lt (Int.lt_of_le_of_lt first less)
  have fits : decimal.Fits nameFields (Timestamp.utcNumbers now) :=
    Timestamp.utcNumbers_fit first (Int.lt_trans less last)
  have fits' : decimal.Fits nameFields (Timestamp.utcNumbers later) :=
    Timestamp.utcNumbers_fit first' last
  have lines := Numerals.line_lt_line nameFields_ordered fits fits'
    (Timestamp.utcNumbers_lt first less last)
  rw [getLogFileName, getLogFileName, timebuf_eq first (Int.lt_trans less last),
    timebuf_eq first' last]
  simp only [List.append_assoc]
  refine List.append_left_lt (append_lt_append ?_ lines _ _)
  rw [Numerals.length_line fits, Numerals.length_line fits']

/-! ### The files -/

/-- A file of the log. -/
structure NamedFile where
  /-- History: the second in which it was opened. -/
  opened : Int
  name : List UInt8
  data : List UInt8
  /-- History: the lines that have gone to it. -/
  lines : List (List UInt8)
deriving DecidableEq, Repr

/-- `File(filename)`, in the second `now` -/
def NamedFile.new (process : Process) (now : Int) : NamedFile :=
  ⟨now, getLogFileName process now, [], []⟩

/-- `append(line, len)`, of which `data` is accepted -/
def NamedFile.write (f : NamedFile) (line data : List UInt8) : NamedFile :=
  { f with data := f.data ++ data, lines := f.lines ++ [line] }

/-- The bytes that the calls of `fwrite_unlocked` take from memory. -/
def acceptedBytes (memory : List UInt8) : List Write → Option (List UInt8)
  | [] => some []
  | w :: writes => do
      let cells ← Block.load memory w.offset w.accepted
      let rest ← acceptedBytes memory writes
      some (cells ++ rest)

/-- A `LogFile` and the files that it has opened. -/
structure Directory where
  log : State
  /-- The files that have been closed, in the order in which they were opened. -/
  closed : List NamedFile
  /-- `file_` -/
  current : NamedFile
  /-- History: the lines that have been appended. -/
  appended : List (List UInt8)
deriving DecidableEq, Repr

namespace Directory

inductive Label where
  /-- `append` of a line that lies in front of `beyond` -/
  | append (line beyond : List UInt8) (results : List Nat) (start now again : Int)
  | flush
deriving DecidableEq, Repr

/-- `LogFile(basename, rollSize, threadSafe, flushInterval)`, in a second after the epoch -/
def new (process : Process) (rollSize : Nat) (flushInterval now : Int) : Directory where
  log := ⟨.new rollSize flushInterval now, now⟩
  closed := []
  current := .new process now
  appended := []

def files (s : Directory) : List NamedFile := s.closed ++ [s.current]

/-- The line goes to the file that is open; after that a new one may be opened. -/
def append (process : Process) (s : Directory) (line beyond : List UInt8) (results : List Nat)
    (start now again : Int) : Option Directory := do
  let log ← LogFile.machine.step s.log (.append line.length results start now again)
  let data ← acceptedBytes (line ++ beyond) (appendWrites line.length results).1
  let written := s.current.write line data
  let appended := s.appended ++ [line]
  if log.logFile.lastRoll = s.log.logFile.lastRoll then
    some { s with log, current := written, appended }
  else
    let current := .new process log.logFile.lastRoll
    some { log, closed := s.closed ++ [written], current, appended }

def step (process : Process) (s : Directory) : Label → Option Directory
  | .append line beyond results start now again =>
      s.append process line beyond results start now again
  | .flush => (LogFile.machine.step s.log .flush).map fun log => { s with log }

/-- The files of a log under calls of `append` and `flush`. -/
def machine (process : Process) : Machine Directory Label where
  init s := ∃ rollSize flushInterval now, 0 < now ∧ s = new process rollSize flushInterval now
  step := step process

/-! ### What a step does -/

/-- The steps, branch by branch. -/
inductive Moves (process : Process) (s : Directory) : Label → Directory → Prop where
  | stay {line beyond data : List UInt8} {results : List Nat} {start now again : Int} {log : State}
      (step : LogFile.machine.step s.log (.append line.length results start now again) = some log)
      (accepted :
        acceptedBytes (line ++ beyond) (appendWrites line.length results).1 = some data)
      (same : log.logFile.lastRoll = s.log.logFile.lastRoll) :
      Moves process s (.append line beyond results start now again)
        { s with log, current := s.current.write line data, appended := s.appended ++ [line] }
  | roll {line beyond data : List UInt8} {results : List Nat} {start now again : Int} {log : State}
      (step : LogFile.machine.step s.log (.append line.length results start now again) = some log)
      (accepted :
        acceptedBytes (line ++ beyond) (appendWrites line.length results).1 = some data)
      (other : log.logFile.lastRoll ≠ s.log.logFile.lastRoll) :
      Moves process s (.append line beyond results start now again)
        { log
          closed := s.closed ++ [s.current.write line data]
          current := .new process log.logFile.lastRoll
          appended := s.appended ++ [line] }
  | flush {log : State} (step : LogFile.machine.step s.log .flush = some log) :
      Moves process s .flush { s with log }

theorem step_cases {process : Process} {s t : Directory} {l : Label}
    (h : (machine process).step s l = some t) : Moves process s l t := by
  cases l with
  | append line beyond results start now again =>
      obtain ⟨log, step, h⟩ := Option.bind_eq_some_iff.mp h
      obtain ⟨data, accepted, h⟩ := Option.bind_eq_some_iff.mp h
      dsimp only at h
      split at h
      · cases h
        exact .stay step accepted ‹_›
      · cases h
        exact .roll step accepted ‹_›
  | flush =>
      obtain ⟨log, step, rfl⟩ := Option.map_eq_some_iff.mp h
      exact .flush step

/-! ### The order of the files -/

theorem rollFile_lastRoll (s : LogFile) (now : Int) :
    (s.rollFile now).lastRoll = s.lastRoll ∨
      s.lastRoll < (s.rollFile now).lastRoll ∧ (s.rollFile now).lastRoll = now := by
  unfold rollFile
  dsimp only
  split
  · rename_i later
    exact .inr ⟨later, rfl⟩
  · exact .inl rfl

/-- A roll is later than the one before, and not later than the clock. -/
theorem append_lastRoll {s t : State} {len : Nat} {results : List Nat} {start now again : Int}
    (step : LogFile.machine.step s (.append len results start now again) = some t) :
    s.clock ≤ t.clock ∧ (t.logFile.lastRoll = s.logFile.lastRoll ∨
      s.logFile.lastRoll < t.logFile.lastRoll ∧ t.logFile.lastRoll ≤ t.clock) := by
  obtain ⟨⟨first, order, order'⟩, step⟩ := Option.ite_none_right_eq_some.mp step
  obtain ⟨logFile, appended, ⟨⟩⟩ := Option.bind_eq_some_iff.mp step
  refine ⟨Int.le_trans first (Int.le_trans order order'), ?_⟩
  have rolls {u : LogFile} {second : Int} (same : u.lastRoll = s.logFile.lastRoll)
      (reads : second ≤ again) : (u.rollFile second).lastRoll = s.logFile.lastRoll ∨
        s.logFile.lastRoll < (u.rollFile second).lastRoll ∧
          (u.rollFile second).lastRoll ≤ again := by
    rw [← same]
    rcases rollFile_lastRoll u second with kept | ⟨later, here⟩
    · exact .inl kept
    · exact .inr ⟨later, Int.le_trans (Int.le_of_eq here) reads⟩
  obtain ⟨f, g, -, -, turn⟩ := appendUnlocked_turn appended
  cases turn with
  | tooLarge => exact rolls rfl order'
  | otherDay => exact rolls rfl (Int.le_refl again)
  | sameDay => exact .inl rfl
  | count => exact .inl rfl

/-- The files have been opened one after the other, each under its name. -/
structure Opened (process : Process) (s : Directory) : Prop where
  current : s.current.opened = s.log.logFile.lastRoll
  clock : s.log.logFile.lastRoll ≤ s.log.clock
  positive : ∀ f ∈ s.files, 0 < f.opened
  order : s.files.Pairwise fun f g => f.opened < g.opened
  named : ∀ f ∈ s.files, f.name = getLogFileName process f.opened

theorem mem_files {s : Directory} {f : NamedFile} :
    f ∈ s.files ↔ f ∈ s.closed ∨ f = s.current := by
  rw [files, List.mem_append, List.mem_singleton]

theorem Opened.le_lastRoll {process : Process} {s : Directory} (opened : Opened process s)
    {f : NamedFile} (mem : f ∈ s.files) : f.opened ≤ s.log.logFile.lastRoll := by
  rcases mem_files.mp mem with mem | rfl
  · have order := (List.pairwise_append.mp opened.order).2.2
    have less := order f mem s.current (List.mem_singleton_self _)
    exact Int.le_of_lt (opened.current ▸ less)
  · exact Int.le_of_eq opened.current

/-- A line that is written leaves the names and the order alone. -/
theorem Opened.write {process : Process} {s : Directory} (opened : Opened process s) {log : State}
    (line data : List UInt8) (appended : List (List UInt8))
    (same : log.logFile.lastRoll = s.log.logFile.lastRoll) (later : s.log.clock ≤ log.clock) :
    Opened process { s with log, current := s.current.write line data, appended } where
  current := opened.current.trans same.symm
  clock := same ▸ Int.le_trans opened.clock later
  positive f mem := by
    rcases mem_files.mp mem with mem | rfl
    · exact opened.positive f (mem_files.mpr (.inl mem))
    · exact opened.positive s.current (mem_files.mpr (.inr rfl))
  order := by
    have order := List.pairwise_append.mp opened.order
    exact List.pairwise_append.mpr ⟨order.1, List.pairwise_singleton _ _, fun f mem g here => by
      rw [List.mem_singleton.mp here]
      exact order.2.2 f mem s.current (List.mem_singleton_self _)⟩
  named f mem := by
    rcases mem_files.mp mem with mem | rfl
    · exact opened.named f (mem_files.mpr (.inl mem))
    · exact opened.named s.current (mem_files.mpr (.inr rfl))

/-- A roll opens a file that is later than all the others. -/
theorem Opened.roll {process : Process} {s : Directory} (opened : Opened process s) {log : State}
    (appended : List (List UInt8)) (less : s.log.logFile.lastRoll < log.logFile.lastRoll)
    (clock : log.logFile.lastRoll ≤ log.clock) :
    Opened process
      { log, closed := s.files, current := .new process log.logFile.lastRoll, appended } where
  current := rfl
  clock := clock
  positive f mem := by
    rcases mem_files.mp mem with mem | rfl
    · exact opened.positive f mem
    · have first := opened.positive s.current (mem_files.mpr (.inr rfl))
      rw [opened.current] at first
      exact Int.lt_trans first less
  order := by
    refine List.pairwise_append.mpr ⟨opened.order, List.pairwise_singleton _ _, ?_⟩
    intro f mem g here
    rw [List.mem_singleton.mp here]
    exact Int.lt_of_le_of_lt (opened.le_lastRoll mem) less
  named f mem := by
    rcases mem_files.mp mem with mem | rfl
    · exact opened.named f mem
    · rfl

theorem step_opened {process : Process} {s t : Directory} {l : Label} (opened : Opened process s)
    (moves : Moves process s l t) : Opened process t := by
  cases moves with
  | @stay line beyond data results start now again log step accepted same =>
      exact opened.write line data _ same (append_lastRoll step).1
  | @roll line beyond data results start now again log step accepted other =>
      obtain ⟨later, rolled⟩ := append_lastRoll step
      obtain ⟨less, clock⟩ := rolled.resolve_left other
      have written := opened.write line data (s.appended ++ [line]) rfl (Int.le_refl s.log.clock)
      exact written.roll (s.appended ++ [line]) less clock
  | @flush log step =>
      obtain ⟨file, open_, ⟨⟩⟩ := Option.bind_eq_some_iff.mp step
      exact opened

theorem new_opened (process : Process) (rollSize : Nat) (flushInterval : Int) {now : Int}
    (later : 0 < now) : Opened process (new process rollSize flushInterval now) := by
  have opened : (LogFile.new rollSize flushInterval now).lastRoll = now := by
    unfold LogFile.new rollFile
    exact congrArg LogFile.lastRoll (if_pos later)
  exact {
    current := opened.symm
    clock := Int.le_of_eq opened
    positive := fun f mem => by
      rw [List.mem_singleton.mp mem]
      exact later
    order := List.pairwise_singleton _ _
    named := fun f mem => by
      rw [List.mem_singleton.mp mem]
      rfl }

theorem reachable_opened {process : Process} {s : Directory}
    (reach : (machine process).Reachable s) : Opened process s := by
  refine reach.invariant ?_ ?_
  · rintro s ⟨rollSize, flushInterval, now, later, rfl⟩
    exact new_opened process rollSize flushInterval later
  · intro s t l opened step
    exact step_opened opened (step_cases step)

theorem names_sorted {process : Process} {s : Directory} (opened : Opened process s)
    (last : s.log.clock < Timestamp.endOf9999) :
    (s.files.map NamedFile.name).Pairwise (· < ·) := by
  rw [List.pairwise_map]
  refine List.Pairwise.imp_of_mem ?_ opened.order
  intro f g mem mem' less
  rw [opened.named f mem, opened.named g mem']
  refine getLogFileName_lt process (Int.le_of_lt (opened.positive f mem)) less ?_
  exact Int.lt_of_le_of_lt (Int.le_trans (opened.le_lastRoll mem') opened.clock) last

/-! ### The lines -/

/-- What is accepted of a line is the line, whatever the pieces. -/
def ExactWrites (_ : Directory) : Label → Prop
  | .append line _ results _ _ _ =>
      stream (appendWrites line.length results).1 = List.range line.length
  | .flush => True

instance (s : Directory) (l : Label) : Decidable (ExactWrites s l) := by
  cases l <;> unfold ExactWrites <;> infer_instance

/-- The cells that the calls take are those at the positions of `stream`. -/
theorem acceptedBytes_stream {memory data : List UInt8} {writes : List Write}
    (accepted : acceptedBytes memory writes = some data) :
    data.map some = (stream writes).map (memory[·]?) := by
  induction writes generalizing data with
  | nil =>
      cases accepted
      rfl
  | cons w writes ih =>
      obtain ⟨cells, load, accepted⟩ := Option.bind_eq_some_iff.mp accepted
      obtain ⟨rest, more, ⟨⟩⟩ := Option.bind_eq_some_iff.mp accepted
      change _ = (List.range' w.offset w.accepted ++ stream writes).map (memory[·]?)
      rw [List.map_append, List.map_append, Block.map_some_load load, ih more]

theorem acceptedBytes_exact {line beyond data : List UInt8} {writes : List Write}
    (accepted : acceptedBytes (line ++ beyond) writes = some data)
    (exact_ : stream writes = List.range line.length) : data = line := by
  have cells := acceptedBytes_stream accepted
  have front : Block.load (line ++ beyond) 0 line.length = some line := by
    have inside : 0 + line.length ≤ (line ++ beyond).length := by
      rw [Nat.zero_add, List.length_append]
      exact Nat.le_add_right _ _
    rw [Block.load_eq inside, List.drop_zero, List.take_left]
  rw [exact_, List.range_eq_range', ← Block.map_some_load front] at cells
  exact List.map_injective_iff.mpr (Option.some_injective _) cells

/-- The files are the lines. -/
structure Holds (s : Directory) : Prop where
  data : ∀ f ∈ s.files, f.data = f.lines.flatten
  lines : s.files.flatMap NamedFile.lines = s.appended

theorem Holds.write {s : Directory} (holds : Holds s) (log : State) (line : List UInt8) :
    Holds
      { s with log, current := s.current.write line line, appended := s.appended ++ [line] } where
  data f mem := by
    rcases mem_files.mp mem with mem | rfl
    · exact holds.data f (mem_files.mpr (.inl mem))
    · have data := holds.data s.current (mem_files.mpr (.inr rfl))
      simp only [NamedFile.write, data, List.flatten_append, List.flatten_singleton]
  lines := by
    have lines := holds.lines
    simp only [files, List.flatMap_append, List.flatMap_singleton, NamedFile.write] at lines ⊢
    rw [← List.append_assoc, lines]

theorem Holds.roll {s : Directory} (holds : Holds s) (process : Process) (log : State) (now : Int) :
    Holds { s with log, closed := s.files, current := .new process now } where
  data f mem := by
    rcases mem_files.mp mem with mem | rfl
    · exact holds.data f mem
    · rfl
  lines := by
    have lines := holds.lines
    rw [files, List.flatMap_append, List.flatMap_singleton, lines]
    exact List.append_nil _

theorem step_holds {process : Process} {s t : Directory} {l : Label} (holds : Holds s)
    (exactly : ExactWrites s l) (moves : Moves process s l t) : Holds t := by
  cases moves with
  | @stay line beyond data results start now again log step accepted same =>
      rw [acceptedBytes_exact accepted exactly]
      exact holds.write log line
  | @roll line beyond data results start now again log step accepted other =>
      rw [acceptedBytes_exact accepted exactly]
      exact (holds.write s.log line).roll process log log.logFile.lastRoll
  | flush step => exact ⟨holds.data, holds.lines⟩

theorem reachable_holds {process : Process} {s : Directory}
    (reach : (machine process).ReachableWhere ExactWrites s) : Holds s := by
  refine reach.invariant ?_ ?_
  · rintro s ⟨rollSize, flushInterval, now, later, rfl⟩
    refine ⟨fun f mem => ?_, rfl⟩
    rw [List.mem_singleton.mp mem]
    rfl
  · intro s t l holds exactly step
    exact step_holds holds exactly (step_cases step)

/-- The files in the order of their names hold the lines in the order in which they came, and
no line goes to two files. -/
theorem files_in_order {process : Process} {s : Directory}
    (reach : (machine process).ReachableWhere ExactWrites s)
    (last : s.log.clock < Timestamp.endOf9999) :
    (s.files.map NamedFile.name).Pairwise (· < ·) ∧
      (∀ f ∈ s.files, f.data = f.lines.flatten) ∧
      s.files.flatMap NamedFile.lines = s.appended := by
  have holds := reachable_holds reach
  exact ⟨names_sorted (reachable_opened reach.reachable) last, holds.data, holds.lines⟩

/-- The first line is taken by the second write only and fills the file. -/
def rolled : Directory :=
  ((machine ⟨bytes ['d'], bytes ['h'], 7⟩).run (new ⟨bytes ['d'], bytes ['h'], 7⟩ 1 3 1)
    [.append (bytes ['h', 'i']) [10] [0, 2, 0] 90000 90000 90000,
      .append (bytes ['y', 'o', 'u']) [] [3] 90001 90001 90001]).get rfl

theorem files_in_order_rolled :
    rolled.files.map NamedFile.data = [bytes ['h', 'i'], bytes ['y', 'o', 'u']] ∧
      (rolled.files.map NamedFile.name).Pairwise (· < ·) := by
  have reach : (machine ⟨bytes ['d'], bytes ['h'], 7⟩).ReachableWhere ExactWrites rolled := by
    refine ⟨_, ⟨1, 3, 1, by decide, rfl⟩, Machine.leadsWhere_of_run _ ?_ (Option.some_get _).symm⟩
    decide
  exact ⟨rfl, (files_in_order reach (by decide)).1⟩

end Directory

end Dbdky.LogFile
