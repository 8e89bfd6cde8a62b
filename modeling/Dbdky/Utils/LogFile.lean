import Mathlib.Algebra.GroupWithZero.Nat
import Dbdky.Transition.Machine

/-!
`LogFile` (`src/utils/LogFile.{h,cpp}`): a log that moves on to a new file.

What the calls of `fwrite_unlocked` accept and the seconds that `time` returns are part of
the label; an `append` whose results do not fit it, or that has not returned by the last
of them, is not enabled. Opening a file succeeds. A file remembers what has been passed
to `fwrite_unlocked` since it was opened.
-/

namespace Dbdky

open Transition

namespace LogFile

/-- A call of `fwrite_unlocked`: where in the line it begins, how many bytes it is to take
and how many it accepts. -/
structure Write where
  offset : Nat
  count : Nat
  accepted : Nat
deriving DecidableEq, Repr

structure File where
  writtenBytes : Nat
  /-- History: the second in which the file was opened. -/
  opened : Int
  /-- History: the second in which the last line was appended. -/
  lastAppend : Option Int
  /-- History: the calls of `fwrite_unlocked`. -/
  writes : List Write
deriving DecidableEq, Repr

namespace File

/-- `File(filename)`, in the second `now`. -/
def new (now : Int) : File where
  writtenBytes := 0
  opened := now
  lastAppend := none
  writes := []

/-- The bytes that `fwrite_unlocked` has accepted since the file was opened. -/
def accepted (f : File) : Nat := (f.writes.map Write.accepted).sum

def write (f : File) (offset count accepted : Nat) : Option File :=
  if accepted ≤ count then some { f with writes := f.writes ++ [⟨offset, count, accepted⟩] }
  else none

/-- The `while` loop of `append`, for these results of `write`. -/
def retry (f : File) (len remain n : Nat) : List Nat → Option File
  | [] => if remain > 0 then none else some f
  | x :: results =>
      if remain > 0 then do
        let f ← f.write n remain x
        if x = 0 then if results = [] then some f else none
        else retry { f with writtenBytes := f.writtenBytes + len } len remain (n + x) results
      else none

def append (f : File) (len : Nat) : List Nat → Option File
  | [] => none
  | n :: results => do
      let f ← f.write 0 len n
      let remain := len - n
      f.retry len remain n results

end File

def kCheckTimeRoll : Nat := 1024
def kRollPerSeconds : Int := 60 * 60 * 24

/-- The start of the day, as C calculates it. -/
def period (now : Int) : Int := now.tdiv kRollPerSeconds * kRollPerSeconds

end LogFile

structure LogFile where
  rollSize : Nat
  flushInterval : Int
  count : Nat
  startOfPeriod : Int
  lastRoll : Int
  lastFlush : Int
  file : Option LogFile.File
  /-- History: the seconds that the calls of `rollFile` have read. -/
  rollCalls : List Int
deriving DecidableEq, Repr

namespace LogFile

def rollFile (s : LogFile) (now : Int) : LogFile :=
  let start := period now
  let s := { s with rollCalls := s.rollCalls ++ [now] }
  if now > s.lastRoll then
    { s with
      lastRoll := now
      lastFlush := now
      startOfPeriod := start
      file := some (.new now) }
  else s

/-- `LogFile(basename, rollSize, threadSafe, flushInterval)` -/
def new (rollSize : Nat) (flushInterval now : Int) : LogFile :=
  rollFile
    { rollSize, flushInterval, count := 0, startOfPeriod := 0, lastRoll := 0, lastFlush := 0
      file := none, rollCalls := [] } now

/-- `append_unlocked(logline, len)`; `now` and `again` are what the first and the second
call of `time` return. -/
def appendUnlocked (s : LogFile) (len : Nat) (results : List Nat) (now again : Int) :
    Option LogFile := do
  let file ← s.file
  let file ← file.append len results
  let s := { s with file := some file }
  if file.writtenBytes > s.rollSize then some (s.rollFile now)
  else if s.count > kCheckTimeRoll then
    let s := { s with count := 0 }
    let thisPeriod := period now
    if thisPeriod ≠ s.startOfPeriod then some (s.rollFile again)
    else if now - s.lastFlush > s.flushInterval then some { s with lastFlush := now }
    else some s
  else some { s with count := s.count + 1 }

/-- A line comes in for the current file. -/
def received (s : LogFile) (start : Int) : LogFile :=
  { s with file := s.file.map fun f => { f with lastAppend := some start } }

structure State where
  logFile : LogFile
  clock : Int
deriving DecidableEq, Repr

inductive Label where
  /-- `append` of a line of `len` bytes in the second `start` -/
  | append (len : Nat) (results : List Nat) (start now again : Int)
  | flush

/-- The log under calls of `append` and `flush`, with a clock that does not go back. -/
def machine : Machine State Label where
  init s := ∃ rollSize flushInterval now, s = ⟨new rollSize flushInterval now, now⟩
  step s
    | .append len results start now again =>
        if s.clock ≤ start ∧ start ≤ now ∧ now ≤ again then do
          let logFile ← (s.logFile.received start).appendUnlocked len results now again
          some ⟨logFile, again⟩
        else none
    | .flush => do
        let _ ← s.logFile.file
        some s

end LogFile

end Dbdky
