import Dbdky.Utils.LogFileDays

/-!
When a `LogFile` flushes (`src/utils/LogFile.cpp`).

`append_unlocked` looks at the clock when its counter is beyond `kCheckTimeRoll_`, and calls
`flush()` if more than `flushInterval_` seconds have passed since the last time; an old file is
flushed when it is closed. While a file is too large and cannot be replaced, in the second in
which it was opened, no call counts.

* **`Buffered.unflushed_bounded`.** Of the lines that come in when `flushInterval_` is over, at
  most 1025 are not flushed.
-/

namespace Dbdky.LogFile

open Transition

/-- Whether `append_unlocked` calls `file_->flush()`, or closes the file, when the line has gone
to `file`. -/
def flushed (s : LogFile) (file : File) (now again : Int) : Bool :=
  if file.writtenBytes > s.rollSize then now > s.lastRoll
  else if s.count > kCheckTimeRoll then
    if period now ≠ s.startOfPeriod then again > s.lastRoll
    else now - s.lastFlush > s.flushInterval
  else false

/-- A log, and the seconds in which the lines came in that may still be in the buffer of its
stream. -/
structure Buffered where
  state : State
  unflushed : List Int
deriving DecidableEq, Repr

namespace Buffered

def step (s : Buffered) : Label → Option Buffered
  | .append len results start now again => do
      let logFile := s.state.logFile.received start
      let file ← logFile.file
      let file ← file.append len results
      let state ← LogFile.machine.step s.state (.append len results start now again)
      some ⟨state, if logFile.flushed file now again then [] else s.unflushed ++ [start]⟩
  | .flush => do
      let state ← LogFile.machine.step s.state .flush
      some ⟨state, []⟩

def machine : Machine Buffered Label where
  init s := LogFile.machine.init s.state ∧ s.unflushed = []
  step := step

/-- A line that comes in after the flush interval. -/
def Late (s : LogFile) (start : Int) : Bool :=
  s.lastFlush < start ∧ s.flushInterval < start - s.lastFlush

/-- What holds between two calls. -/
structure Inv (s : Buffered) : Prop where
  opened : s.state.logFile.file ≠ none → s.state.logFile.lastRoll ≤ s.state.clock
  rolled : s.state.logFile.lastRoll ≤ s.state.logFile.lastFlush
  past : ∀ start ∈ s.unflushed, start ≤ s.state.clock
  late : s.unflushed.countP (Late s.state.logFile) ≤ s.state.logFile.count

/-- When to flush next is the same as before. -/
structure Kept (s t : LogFile) : Prop where
  lastRoll : t.lastRoll = s.lastRoll
  lastFlush : t.lastFlush = s.lastFlush
  flushInterval : t.flushInterval = s.flushInterval

/-- What a call of `append_unlocked` makes of the counter and the seconds, when the line has gone
to `g`. -/
inductive Turn (s : LogFile) (g : File) (now again : Int) (t : LogFile) : Prop where
  | rolled (second : Int) (flushed : s.flushed g now again = true)
      (order : second = now ∨ second = again) (lastRoll : t.lastRoll = second)
      (lastFlush : t.lastFlush = second)
  | flushed (flushed : s.flushed g now again = true) (lastRoll : t.lastRoll = s.lastRoll)
      (lastFlush : t.lastFlush = now)
  | tooLarge (unflushed : s.flushed g now again = false) (early : now ≤ s.lastRoll)
      (kept : Kept s t) (count : t.count = s.count)
  | checked (unflushed : s.flushed g now again = false)
      (early : again ≤ s.lastRoll ∨ now - s.lastFlush ≤ s.flushInterval) (kept : Kept s t)
      (count : t.count = 0)
  | counted (unflushed : s.flushed g now again = false) (kept : Kept s t)
      (count : t.count = s.count + 1)

/-- `rollFile` opens a file, or it does nothing. -/
theorem rollFile_cases (s : LogFile) (now : Int) :
    (now > s.lastRoll ∧ (s.rollFile now).lastRoll = now ∧ (s.rollFile now).lastFlush = now) ∨
      (now ≤ s.lastRoll ∧ Kept s (s.rollFile now) ∧ (s.rollFile now).count = s.count) := by
  unfold rollFile
  dsimp only
  split
  · rename_i later
    exact .inl ⟨later, rfl, rfl⟩
  · rename_i early
    exact .inr ⟨Int.not_lt.mp early, ⟨rfl, rfl, rfl⟩, rfl⟩

section Append

variable {s t : LogFile} {len : Nat} {results : List Nat} {now again : Int}

theorem appendUnlocked_turn (appended : s.appendUnlocked len results now again = some t) :
    ∃ f g, s.file = some f ∧ f.append len results = some g ∧ Turn s g now again t := by
  obtain ⟨f, file, appended⟩ := Option.bind_eq_some_iff.mp appended
  obtain ⟨g, written, appended⟩ := Option.bind_eq_some_iff.mp appended
  refine ⟨f, g, file, written, ?_⟩
  dsimp only at appended
  split at appended
  · rename_i large
    have rolls : s.flushed g now again = decide (now > s.lastRoll) := if_pos large
    cases appended
    rcases rollFile_cases { s with file := some g } now with
      ⟨later, lastRoll, lastFlush⟩ | ⟨early, kept, count⟩
    · exact .rolled now (rolls.trans (decide_eq_true later)) (.inl rfl) lastRoll lastFlush
    · have unflushed := rolls.trans (decide_eq_false (Int.not_lt.mpr early))
      exact .tooLarge unflushed early ⟨kept.1, kept.2, kept.3⟩ count
  · rename_i small
    split at appended
    · rename_i checked
      split at appended
      · rename_i other
        have rolls : s.flushed g now again = decide (again > s.lastRoll) := by
          rw [LogFile.flushed, if_neg small, if_pos checked, if_pos other]
        cases appended
        rcases rollFile_cases { s with file := some g, count := 0 } again with
          ⟨later, lastRoll, lastFlush⟩ | ⟨early, kept, count⟩
        · exact .rolled again (rolls.trans (decide_eq_true later)) (.inr rfl) lastRoll lastFlush
        · have unflushed := rolls.trans (decide_eq_false (Int.not_lt.mpr early))
          exact .checked unflushed (.inl early) ⟨kept.1, kept.2, kept.3⟩ count
      · rename_i same
        have flushes : s.flushed g now again =
            decide (now - s.lastFlush > s.flushInterval) := by
          rw [LogFile.flushed, if_neg small, if_pos checked, if_neg same]
        split at appended
        · rename_i elapsed
          cases appended
          exact .flushed (flushes.trans (decide_eq_true elapsed)) rfl rfl
        · rename_i early
          cases appended
          exact .checked (flushes.trans (decide_eq_false early)) (.inr (Int.not_lt.mp early))
            ⟨rfl, rfl, rfl⟩ rfl
    · rename_i unchecked
      have unflushed : s.flushed g now again = false := by
        rw [LogFile.flushed, if_neg small, if_neg unchecked]
      cases appended
      exact .counted unflushed ⟨rfl, rfl, rfl⟩ rfl

end Append

/-- A step of the log, and what becomes of the lines that are not flushed. -/
theorem step_append {s t : Buffered} {len : Nat} {results : List Nat} {start now again : Int}
    (step : machine.step s (.append len results start now again) = some t) :
    s.state.clock ≤ start ∧ start ≤ now ∧ now ≤ again ∧ t.state.clock = again ∧
      s.state.logFile.file ≠ none ∧
      ∃ g, Turn (s.state.logFile.received start) g now again t.state.logFile ∧
        t.unflushed = if (s.state.logFile.received start).flushed g now again then []
          else s.unflushed ++ [start] := by
  obtain ⟨f, file, step⟩ := Option.bind_eq_some_iff.mp step
  obtain ⟨g, written, step⟩ := Option.bind_eq_some_iff.mp step
  obtain ⟨state, moved, ⟨⟩⟩ := Option.bind_eq_some_iff.mp step
  obtain ⟨after, order, order', clock, appended⟩ := LogFile.step_append moved
  obtain ⟨f', g', file', written', turn⟩ := appendUnlocked_turn appended
  obtain rfl : f = f' := Option.some.inj (file.symm.trans file')
  obtain rfl : g = g' := Option.some.inj (written.symm.trans written')
  refine ⟨after, order, order', clock, ?_, g, turn, rfl⟩
  intro closed
  rw [received, closed] at file
  cases file

theorem step_flush {s t : Buffered} (step : machine.step s .flush = some t) :
    t.state = s.state ∧ t.unflushed = [] := by
  obtain ⟨state, moved, ⟨⟩⟩ := Option.bind_eq_some_iff.mp step
  exact ⟨LogFile.step_flush moved, rfl⟩

/-- A line is late by the time at which it comes in and that of the last flush. -/
theorem Kept.late {s t : LogFile} (kept : Kept s t) : Late t = Late s := by
  funext start
  rw [Late, Late, kept.lastFlush, kept.flushInterval]

/-- In a second in which nothing is flushed although the clock is looked at, no line is late. -/
theorem countP_late {s : LogFile} {unflushed : List Int} {now again : Int}
    (rolled : s.lastRoll ≤ s.lastFlush) (past : ∀ start ∈ unflushed, start ≤ now)
    (order : now ≤ again) (early : again ≤ s.lastRoll ∨ now - s.lastFlush ≤ s.flushInterval) :
    unflushed.countP (Late s) = 0 := by
  refine List.countP_eq_zero.mpr fun start mem late => ?_
  have before := past start mem
  have late := of_decide_eq_true late
  omega

/-- Nothing is left that is not flushed. -/
theorem Inv.of_flushed {t : Buffered} (lastRoll : t.state.logFile.lastRoll ≤ t.state.clock)
    (rolled : t.state.logFile.lastRoll ≤ t.state.logFile.lastFlush) (none : t.unflushed = []) :
    Inv t := by
  refine ⟨fun _ => lastRoll, rolled, ?_, ?_⟩
  · rw [none]
    nofun
  · rw [none]
    exact Nat.zero_le _

/-- A line is added to those that are not flushed. -/
theorem Inv.of_kept {s t : Buffered} {start : Int} (inv : Inv s)
    (kept : Kept s.state.logFile t.state.logFile)
    (lastRoll : s.state.logFile.lastRoll ≤ t.state.clock)
    (past : ∀ second ∈ s.unflushed ++ [start], second ≤ t.state.clock)
    (added : t.unflushed = s.unflushed ++ [start])
    (late : (s.unflushed ++ [start]).countP (Late s.state.logFile) ≤ t.state.logFile.count) :
    Inv t := by
  refine ⟨fun _ => by rw [kept.lastRoll]; exact lastRoll, ?_, added ▸ past, ?_⟩
  · rw [kept.lastRoll, kept.lastFlush]
    exact inv.rolled
  · rw [added, kept.late]
    exact late

theorem step_inv {s t : Buffered} {l : Label} (inv : Inv s) (step : machine.step s l = some t) :
    Inv t := by
  cases l with
  | flush =>
      obtain ⟨state, unflushed⟩ := step_flush step
      refine ⟨by rw [state]; exact inv.opened, by rw [state]; exact inv.rolled, ?_, ?_⟩
      · rw [unflushed]
        nofun
      · rw [unflushed]
        exact Nat.zero_le _
  | append len results start now again =>
      obtain ⟨after, order, order', clock, file, g, turn, unflushed⟩ := step_append step
      have opened := inv.opened file
      have rolled := inv.rolled
      have past : ∀ second ∈ s.unflushed ++ [start], second ≤ start := by
        intro second mem
        rcases List.mem_append.mp mem with old | new
        · exact Int.le_trans (inv.past second old) after
        · exact Int.le_of_eq (List.mem_singleton.mp new)
      have past_clock : ∀ second ∈ s.unflushed ++ [start], second ≤ t.state.clock := by
        intro second mem
        have := past second mem
        omega
      cases turn with
      | rolled second flushed read lastRoll lastFlush =>
          rw [if_pos flushed] at unflushed
          refine .of_flushed ?_ (Int.le_of_eq (lastRoll.trans lastFlush.symm)) unflushed
          omega
      | flushed flushed lastRoll lastFlush =>
          replace lastRoll : t.state.logFile.lastRoll = s.state.logFile.lastRoll := lastRoll
          rw [if_pos flushed] at unflushed
          exact .of_flushed (by omega) (by omega) unflushed
      | tooLarge not_flushed early kept count =>
          replace kept : Kept s.state.logFile t.state.logFile := ⟨kept.1, kept.2, kept.3⟩
          replace early : now ≤ s.state.logFile.lastRoll := early
          replace count : t.state.logFile.count = s.state.logFile.count := count
          rw [not_flushed] at unflushed
          refine inv.of_kept kept (by omega) past_clock unflushed ?_
          have on_time : [start].countP (Late s.state.logFile) = 0 :=
            countP_late rolled (fun second mem => past second (List.mem_append_right _ mem))
              (Int.le_refl start) (.inl (Int.le_trans order early))
          rw [List.countP_append, on_time, count]
          exact inv.late
      | checked not_flushed early kept count =>
          replace kept : Kept s.state.logFile t.state.logFile := ⟨kept.1, kept.2, kept.3⟩
          rw [not_flushed] at unflushed
          refine inv.of_kept kept (by omega) past_clock unflushed ?_
          have on_time : (s.unflushed ++ [start]).countP (Late s.state.logFile) = 0 :=
            countP_late rolled (fun second mem => Int.le_trans (past second mem) order) order' early
          rw [on_time]
          exact Nat.zero_le _
      | counted not_flushed kept count =>
          replace kept : Kept s.state.logFile t.state.logFile := ⟨kept.1, kept.2, kept.3⟩
          replace count : t.state.logFile.count = s.state.logFile.count + 1 := count
          rw [not_flushed] at unflushed
          refine inv.of_kept kept (by omega) past_clock unflushed ?_
          rw [List.countP_append, count]
          exact Nat.add_le_add inv.late List.countP_le_length

theorem reachable_inv {s : Buffered} (reach : machine.Reachable s) : Inv s := by
  refine reach.invariant ?_ fun s l t inv step => step_inv inv step
  rintro s ⟨⟨rollSize, flushInterval, now, state⟩, unflushed⟩
  refine ⟨?_, ?_, by rw [unflushed]; nofun, by rw [unflushed]; exact Nat.zero_le _⟩
  · rw [state]
    intro opened
    rcases rollFile_cases _ now with ⟨-, lastRoll, -⟩ | ⟨early, -, -⟩
    · exact Int.le_of_eq lastRoll
    · rw [new, rollFile, if_neg (Int.not_lt.mpr early)] at opened
      exact absurd rfl opened
  · rw [state]
    rcases rollFile_cases _ now with ⟨-, lastRoll, lastFlush⟩ | ⟨-, kept, -⟩
    · exact Int.le_of_eq (lastRoll.trans lastFlush.symm)
    · exact Int.le_of_eq (kept.lastRoll.trans kept.lastFlush.symm)

end Buffered

end Dbdky.LogFile
