import Dbdky.Transition.Machine
import Dbdky.Utils.FixedBuffer
import Dbdky.Utils.LogStreamFormat

/-!
`AsyncLogging` (`src/utils/AsyncLogging.{h,cpp}`): front-end threads append lines to a
buffer under a lock, a backend thread swaps the buffers out and writes them.

The model is a machine over the statements of `threadFunc`, the locked `append`, and
`start`/`stop` of the owner. A `BufferPtr` is an `Option`: `release()` and `move` leave
the null pointer behind. What reaches `LogFile::append` is recorded call by call. A
step whose source statement would fail an assertion or dereference a null pointer is
not enabled.
-/

namespace Dbdky

open Transition

namespace AsyncLogging

abbrev Buffer := FixedBuffer kLargeBuffer

/-- One call of `output.append`: the notice of a dropped batch, or a whole buffer. -/
inductive Handed where
  /-- The notice, which states how many buffers were dropped. -/
  | notice (dropped : Nat) (text : List UInt8)
  | buffer (data : List UInt8)
deriving DecidableEq, Repr

/-- The statement of `threadFunc` the backend is about to execute. -/
inductive Pc where
  | notStarted
  /-- `assert(running_ == true); latch_.countDown();` and the allocations. -/
  | start
  /-- `while (running_)` -/
  | whileRunning
  /-- The top of a round: the assertions, then the lock and `if (buffers_.empty())`. -/
  | lockBuffers
  /-- `cond_.waitForSeconds`: the lock is released. -/
  | wait
  /-- The lock is released; `if (buffersToWrite.size() > 25)` is next. -/
  | dropExcess
  /-- The loop over `buffersToWrite`, at index `i`. -/
  | writeBuffers (i : Nat)
  /-- `resize(2)`, the two refills, `clear()` and `flush()`. -/
  | recycle
  | finished
deriving DecidableEq, Repr

/-- The statement of `start` or `stop` the owner is about to execute. -/
inductive OwnerPc where
  | constructed
  /-- `start`: `latch_.wait()` -/
  | waitLatch
  | started
  /-- `stop`: `thread_.join()` -/
  | join
  /-- `stop` has returned. -/
  | stopped
deriving DecidableEq, Repr

structure State where
  running : Bool
  latch : Nat
  owner : OwnerPc
  currentBuffer : Option Buffer
  nextBuffer : Option Buffer
  buffers : List Buffer
  pc : Pc
  newBuffer1 : Option Buffer
  newBuffer2 : Option Buffer
  buffersToWrite : List Buffer
  /-- What `LogFile::append` has been given, call by call. -/
  output : List Handed
  /-- History: the lines appended so far, in lock order. -/
  appended : List (List UInt8)
  /-- History: the batches that rounds have swapped out. -/
  batches : List (List Buffer)
  /-- History: what the clock read at the size test of each of them. -/
  times : List String
deriving DecidableEq, Repr

/-- The state after the constructor. -/
def State.new : State where
  running := false
  latch := 1
  owner := .constructed
  currentBuffer := some .empty
  nextBuffer := some .empty
  buffers := []
  pc := .notStarted
  newBuffer1 := none
  newBuffer2 := none
  buffersToWrite := []
  output := []
  appended := []
  batches := []
  times := []

/-! ### The member functions -/

/-- `append(logline, len)`, under the lock. -/
def append (s : State) (logline : List UInt8) : Option State := do
  let currentBuffer ← s.currentBuffer
  let s := { s with appended := s.appended ++ [logline] }
  if currentBuffer.avail > logline.length then
    some { s with currentBuffer := some (currentBuffer.append logline) }
  else
    let fresh := s.nextBuffer.getD .empty
    some { s with
      buffers := s.buffers ++ [currentBuffer]
      nextBuffer := none
      currentBuffer := some (fresh.append logline) }

/-- The locked block of a round, from `buffers_.push_back` on. -/
def swapBuffers (s : State) : Option State := do
  let currentBuffer ← s.currentBuffer
  some { s with
    buffersToWrite := s.buffers ++ [currentBuffer]
    buffers := s.buffersToWrite
    currentBuffer := s.newBuffer1
    newBuffer1 := none
    -- if (!nextBuffer_) nextBuffer_ = move(newBuffer2)
    nextBuffer := if s.nextBuffer.isNone then s.newBuffer2 else s.nextBuffer
    newBuffer2 := if s.nextBuffer.isNone then none else s.newBuffer2
    pc := .dropExcess
    batches := s.batches ++ [s.buffers ++ [currentBuffer]] }

def utf8 (text : String) : List UInt8 := text.toUTF8.data.toList

/-- `", %zd larger buffers\n"` -/
def larger (dropped : Nat) : List UInt8 :=
  utf8 ", " ++ LogStream.decimalText dropped ++ utf8 " larger buffers\n"

/-- The text `snprintf` leaves in `buf[256]`; that of the time has come from the `buf[32]` of
`toFormattedString`. -/
def dropNotice (time : String) (dropped : Nat) : List UInt8 :=
  (utf8 "Dropped log messages at " ++ (utf8 time).take 31 ++ larger dropped).take 255

/-- `if (buffersToWrite.size() > 25)`, at a time that reads `time`. -/
def dropExcess (s : State) (time : String) : Option State :=
  -- assert(!buffersToWrite.empty())
  if s.buffersToWrite = [] then none
  else if s.buffersToWrite.length > 25 then
    let dropped := s.buffersToWrite.length - 2
    some { s with
      output := s.output ++ [.notice dropped (dropNotice time dropped)]
      buffersToWrite := s.buffersToWrite.take 2
      pc := .writeBuffers 0
      times := s.times ++ [time] }
  else some { s with pc := .writeBuffers 0, times := s.times ++ [time] }

/-- Refill a buffer pointer: a null one takes the last of `buffersToWrite`, reset. -/
def refill (newBuffer : Option Buffer) (buffersToWrite : List Buffer) :
    Option (Option Buffer × List Buffer) :=
  match newBuffer with
  | some b => some (some b, buffersToWrite)
  | none =>
      -- assert(!buffersToWrite.empty())
      if buffersToWrite = [] then none
      else some (some .empty, buffersToWrite.dropLast)

/-- What `if (buffersToWrite.size() > 2) buffersToWrite.resize(2)` leaves. -/
def resized (s : State) : List Buffer :=
  if s.buffersToWrite.length > 2 then s.buffersToWrite.take 2 else s.buffersToWrite

/-- From the `resize` to the end of the round. -/
def recycle (s : State) : Option State := do
  let (newBuffer1, kept) ← refill s.newBuffer1 (resized s)
  let (newBuffer2, _) ← refill s.newBuffer2 kept
  some { s with newBuffer1, newBuffer2, buffersToWrite := [], pc := .whileRunning }

/-! ### The steps -/

inductive Label where
  | append (logline : List UInt8)
  /-- `start()`: `running_ = true; thread_.start();` -/
  | start
  /-- `start()`: `latch_.wait()` returns. -/
  | latchDown
  /-- `stop()`: `running_ = false; cond_.notify();` -/
  | stop
  /-- `stop()`: `thread_.join()` returns. -/
  | join
  | countDown
  | whileRunning
  | lockBuffers
  /-- `waitForSeconds` returns: notified, timed out or spuriously. -/
  | wakeUp
  | dropExcess (time : String)
  | writeBuffer
  | recycle
deriving DecidableEq, Repr

/-- A buffer pointer that is not null and points to an empty buffer. -/
def ownedEmpty : Option Buffer → Bool
  | some b => b.length == 0
  | none => false

def step (s : State) : Label → Option State
  | .append logline => append s logline
  | .start =>
      if s.owner = .constructed then
        some { s with running := true, owner := .waitLatch, pc := .start }
      else none
  | .latchDown =>
      if s.owner = .waitLatch ∧ s.latch = 0 then some { s with owner := .started } else none
  | .stop =>
      if s.owner = .started then some { s with running := false, owner := .join } else none
  | .join =>
      if s.owner = .join ∧ s.pc = .finished then some { s with owner := .stopped } else none
  | .countDown =>
      -- assert(running_ == true)
      if s.pc = .start ∧ s.running then
        some { s with
          latch := s.latch - 1
          newBuffer1 := some .empty
          newBuffer2 := some .empty
          pc := .whileRunning }
      else none
  | .whileRunning =>
      if s.pc = .whileRunning then
        if s.running then some { s with pc := .lockBuffers } else some { s with pc := .finished }
      else none
  | .lockBuffers =>
      -- assert(newBuffer1 && newBuffer1->length() == 0), the same for newBuffer2,
      -- assert(buffersToWrite.empty())
      if s.pc = .lockBuffers ∧ ownedEmpty s.newBuffer1 ∧ ownedEmpty s.newBuffer2 ∧
          s.buffersToWrite = [] then
        if s.buffers = [] then some { s with pc := .wait } else swapBuffers s
      else none
  | .wakeUp => if s.pc = .wait then swapBuffers s else none
  | .dropExcess time => if s.pc = .dropExcess then dropExcess s time else none
  | .writeBuffer =>
      match s.pc with
      | .writeBuffers i =>
          match s.buffersToWrite[i]? with
          | some b =>
              some { s with output := s.output ++ [.buffer b.data], pc := .writeBuffers (i + 1) }
          | none => some { s with pc := .recycle }
      | _ => none
  | .recycle => if s.pc = .recycle then recycle s else none

/-- All interleavings of appending threads, the backend and the owner. -/
def machine : Machine State Label where
  init s := s = .new
  step := step

/-! ### What a step can do -/

/-- The steps as a relation: the guard each of them passes and the state it leaves. -/
inductive Step : State → Label → State → Prop where
  | appendFits {s b logline} : s.currentBuffer = some b → logline.length < b.avail →
      Step s (.append logline)
        { s with
          appended := s.appended ++ [logline], currentBuffer := some (b.append logline) }
  | appendFull {s b logline} : s.currentBuffer = some b → b.avail ≤ logline.length →
      Step s (.append logline)
        { s with
          appended := s.appended ++ [logline]
          buffers := s.buffers ++ [b]
          nextBuffer := none
          currentBuffer := some ((s.nextBuffer.getD .empty).append logline) }
  | start {s} : s.owner = .constructed →
      Step s .start { s with running := true, owner := .waitLatch, pc := .start }
  | latchDown {s} : s.owner = .waitLatch → s.latch = 0 →
      Step s .latchDown { s with owner := .started }
  | stop {s} : s.owner = .started → Step s .stop { s with running := false, owner := .join }
  | join {s} : s.owner = .join → s.pc = .finished → Step s .join { s with owner := .stopped }
  | countDown {s} : s.pc = .start → s.running = true →
      Step s .countDown
        { s with
          latch := s.latch - 1
          newBuffer1 := some .empty
          newBuffer2 := some .empty
          pc := .whileRunning }
  | enterRound {s} : s.pc = .whileRunning → s.running = true →
      Step s .whileRunning { s with pc := .lockBuffers }
  | exitLoop {s} : s.pc = .whileRunning → s.running = false →
      Step s .whileRunning { s with pc := .finished }
  | startWait {s} : s.pc = .lockBuffers → ownedEmpty s.newBuffer1 = true →
      ownedEmpty s.newBuffer2 = true → s.buffersToWrite = [] → s.buffers = [] →
      Step s .lockBuffers { s with pc := .wait }
  | swapNow {s t} : s.pc = .lockBuffers → ownedEmpty s.newBuffer1 = true →
      ownedEmpty s.newBuffer2 = true → s.buffersToWrite = [] → s.buffers ≠ [] →
      swapBuffers s = some t → Step s .lockBuffers t
  | wakeUp {s t} : s.pc = .wait → swapBuffers s = some t → Step s .wakeUp t
  | dropExcess {s time} : s.pc = .dropExcess → 25 < s.buffersToWrite.length →
      Step s (.dropExcess time)
        { s with
          output := s.output ++ [.notice (s.buffersToWrite.length - 2)
            (dropNotice time (s.buffersToWrite.length - 2))]
          buffersToWrite := s.buffersToWrite.take 2
          pc := .writeBuffers 0
          times := s.times ++ [time] }
  | keepAll {s time} : s.pc = .dropExcess → s.buffersToWrite ≠ [] →
      s.buffersToWrite.length ≤ 25 →
      Step s (.dropExcess time) { s with pc := .writeBuffers 0, times := s.times ++ [time] }
  | writeBuffer {s i b} : s.pc = .writeBuffers i → s.buffersToWrite[i]? = some b →
      Step s .writeBuffer
        { s with output := s.output ++ [.buffer b.data], pc := .writeBuffers (i + 1) }
  | allWritten {s i} : s.pc = .writeBuffers i → s.buffersToWrite.length ≤ i →
      Step s .writeBuffer { s with pc := .recycle }
  | recycle {s t} : s.pc = .recycle → recycle s = some t → Step s .recycle t

/-- **Inversion.** -/
theorem step_cases {s t : State} {l : Label} (h : step s l = some t) : Step s l t := by
  cases l with
  | append logline =>
      obtain ⟨b, current, h⟩ := Option.bind_eq_some_iff.mp h
      split at h
      · rename_i fits
        cases h
        exact .appendFits current fits
      · rename_i full
        cases h
        exact .appendFull current (Nat.not_lt.mp full)
  | start =>
      obtain ⟨owner, ⟨⟩⟩ := Option.ite_none_right_eq_some.mp h
      exact .start owner
  | latchDown =>
      obtain ⟨⟨owner, latch⟩, ⟨⟩⟩ := Option.ite_none_right_eq_some.mp h
      exact .latchDown owner latch
  | stop =>
      obtain ⟨owner, ⟨⟩⟩ := Option.ite_none_right_eq_some.mp h
      exact .stop owner
  | join =>
      obtain ⟨⟨owner, pc⟩, ⟨⟩⟩ := Option.ite_none_right_eq_some.mp h
      exact .join owner pc
  | countDown =>
      obtain ⟨⟨pc, running⟩, ⟨⟩⟩ := Option.ite_none_right_eq_some.mp h
      exact .countDown pc running
  | whileRunning =>
      obtain ⟨pc, h⟩ := Option.ite_none_right_eq_some.mp h
      split at h <;> cases h
      · exact .enterRound pc ‹_›
      · exact .exitLoop pc (Bool.not_eq_true _ ▸ ‹¬ s.running = true›)
  | lockBuffers =>
      obtain ⟨⟨pc, first, second, written⟩, h⟩ := Option.ite_none_right_eq_some.mp h
      split at h
      · cases h
        exact .startWait pc first second written ‹_›
      · exact .swapNow pc first second written ‹_› h
  | wakeUp =>
      obtain ⟨pc, h⟩ := Option.ite_none_right_eq_some.mp h
      exact .wakeUp pc h
  | dropExcess time =>
      obtain ⟨pc, h⟩ := Option.ite_none_right_eq_some.mp h
      obtain ⟨nonempty, h⟩ := Option.ite_none_left_eq_some.mp h
      split at h <;> cases h
      · exact .dropExcess pc ‹_›
      · exact .keepAll pc nonempty (Nat.not_lt.mp ‹_›)
  | writeBuffer =>
      simp only [step] at h
      split at h
      · rename_i i pc
        split at h <;> cases h
        · exact .writeBuffer pc ‹_›
        · exact .allWritten pc (List.getElem?_eq_none_iff.mp ‹_›)
      · cases h
  | recycle =>
      obtain ⟨pc, h⟩ := Option.ite_none_right_eq_some.mp h
      exact .recycle pc h

/-! ### The two functions that move buffers -/

/-- What the locked block of a round leaves. -/
structure Swapped (s t : State) : Prop where
  current : ∃ b, s.currentBuffer = some b ∧ t.buffersToWrite = s.buffers ++ [b]
  buffers : t.buffers = s.buffersToWrite
  currentBuffer : t.currentBuffer = s.newBuffer1
  nextBuffer : t.nextBuffer = s.nextBuffer ∨ t.nextBuffer = s.newBuffer2
  pc : t.pc = .dropExcess
  output : t.output = s.output
  appended : t.appended = s.appended
  running : t.running = s.running
  owner : t.owner = s.owner
  batches : t.batches = s.batches ++ [t.buffersToWrite]
  times : t.times = s.times

theorem swapBuffers_spec {s t : State} (h : swapBuffers s = some t) : Swapped s t := by
  obtain ⟨b, current, ⟨⟩⟩ := Option.bind_eq_some_iff.mp h
  refine ⟨⟨b, current, rfl⟩, rfl, rfl, ?_, rfl, rfl, rfl, rfl, rfl, rfl, rfl⟩
  cases s.nextBuffer with
  | none => exact .inr rfl
  | some spare => exact .inl rfl

/-- The end of a round touches the backend's own buffers only. -/
theorem recycle_spec {s t : State} (h : recycle s = some t) :
    ∃ newBuffer1 newBuffer2,
      t = { s with newBuffer1, newBuffer2, buffersToWrite := [], pc := .whileRunning } := by
  obtain ⟨⟨first, kept⟩, -, h⟩ := Option.bind_eq_some_iff.mp h
  obtain ⟨⟨second, -⟩, -, ⟨⟩⟩ := Option.bind_eq_some_iff.mp h
  exact ⟨first, second, rfl⟩

/-! ### The notice -/

theorem length_larger_le {dropped : Nat} (small : dropped < 2 ^ 63) :
    (larger dropped).length ≤ 38 := by
  have digits : (LogStream.decimalText dropped).length ≤ 20 := by
    rw [LogStream.decimalText_of_nonneg (Int.not_lt.mpr (Int.natCast_nonneg _))]
    exact (Coding.Numerals.length_write_le_iff (by decide)).mpr
      (Nat.lt_of_lt_of_le small (by decide))
  have comma : (utf8 ", ").length = 2 := by decide
  have rest : (utf8 " larger buffers\n").length = 16 := by decide
  rw [larger, List.length_append, List.length_append, comma, rest]
  omega

/-- The notice is not cut off: it ends with the number of buffers that are dropped. -/
theorem larger_suffix_dropNotice (time : String) {dropped : Nat} (small : dropped < 2 ^ 63) :
    larger dropped <:+ dropNotice time dropped := by
  have front : (utf8 "Dropped log messages at ").length = 24 := by decide
  have short := length_larger_le small
  rw [dropNotice, List.take_of_length_le]
  · exact List.suffix_append ..
  · rw [List.length_append, List.length_append, front, List.length_take]
    omega

end AsyncLogging

end Dbdky
