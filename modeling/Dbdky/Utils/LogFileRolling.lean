import Dbdky.Utils.LogFile

/-!
Rolling a `LogFile` by size.

`File::append` does not count what the first write accepts, and counts the whole line for
every later write that accepts something. `rollFile` and the decision to call it are
right, so a log whose counter is right rolls by size.

* **`File.append_counts_iff`.** When the counter stays right.
* **`rolls_by_size`.** In a run in which it does, no file is left too large once the clock
  has moved on from the second it was opened in.
-/

namespace Dbdky.LogFile

open Transition

/-! ### What an `append` writes and counts -/

namespace File

variable {f g : File} {len remain n : Nat} {results : List Nat}

/-- The results of the loop that are not zero. -/
def taken (results : List Nat) : List Nat := results.filter (· ≠ 0)

/-- `g` is `f` with more writes. -/
structure Extends (f g : File) (accepted counted : Nat) : Prop where
  opened : g.opened = f.opened
  lastAppend : g.lastAppend = f.lastAppend
  accepted : g.accepted = f.accepted + accepted
  writtenBytes : g.writtenBytes = f.writtenBytes + counted

theorem write_extends {offset count accepted : Nat}
    (written : f.write offset count accepted = some g) :
    accepted ≤ count ∧ Extends f g accepted 0 := by
  obtain ⟨bound, ⟨⟩⟩ := Option.ite_none_right_eq_some.mp written
  refine ⟨bound, rfl, rfl, ?_, rfl⟩
  simp [File.accepted]

/-- The loop asks for `remain` bytes again and again, until none is accepted. -/
theorem retry_extends (retried : f.retry len remain n results = some g) :
    (∀ x ∈ taken results, x ≤ remain) ∧
      Extends f g (taken results).sum ((taken results).length * len) := by
  induction results generalizing f n with
  | nil =>
      obtain ⟨-, ⟨⟩⟩ := Option.ite_none_left_eq_some.mp retried
      exact ⟨by simp [taken], rfl, rfl, rfl, by simp [taken]⟩
  | cons x results ih =>
      obtain ⟨-, retried⟩ := Option.ite_none_right_eq_some.mp retried
      obtain ⟨f', written, retried⟩ := Option.bind_eq_some_iff.mp retried
      obtain ⟨bound, first⟩ := write_extends written
      split at retried
      · rename_i stop
        obtain ⟨rfl, ⟨⟩⟩ := Option.ite_none_right_eq_some.mp retried
        rw [stop] at first
        simpa [taken, stop] using first
      · rename_i more
        obtain ⟨bounds, rest⟩ := ih retried
        have cons : taken (x :: results) = x :: taken results := by simp [taken, more]
        rw [cons]
        refine ⟨List.forall_mem_cons.mpr ⟨bound, bounds⟩, ?_, ?_, ?_, ?_⟩
        · exact rest.opened.trans first.opened
        · exact rest.lastAppend.trans first.lastAppend
        · rw [rest.accepted, List.sum_cons, ← Nat.add_assoc]
          exact congrArg (· + _) first.accepted
        · have counted := first.writtenBytes
          rw [rest.writtenBytes, List.length_cons, Nat.succ_mul]
          dsimp only
          omega

theorem append_extends (appended : f.append len (n :: results) = some g) :
    n ≤ len ∧ (∀ x ∈ taken results, x ≤ len - n) ∧
      Extends f g (n + (taken results).sum) ((taken results).length * len) := by
  obtain ⟨f', written, retried⟩ := Option.bind_eq_some_iff.mp appended
  obtain ⟨bound, first⟩ := write_extends written
  obtain ⟨bounds, rest⟩ := retry_extends retried
  refine ⟨bound, bounds, ?_, ?_, ?_, ?_⟩
  · exact rest.opened.trans first.opened
  · exact rest.lastAppend.trans first.lastAppend
  · rw [rest.accepted, first.accepted, Nat.add_assoc]
  · rw [rest.writtenBytes, first.writtenBytes, Nat.add_zero]

theorem sum_taken (results : List Nat) : (taken results).sum = results.sum := by
  induction results with
  | nil => rfl
  | cons x results ih =>
      by_cases zero : x = 0
      · simp [taken, zero, ← ih]
      · simp [taken, zero, ← ih]

/-- What `fwrite_unlocked` has accepted since the file was opened grows by its results. -/
theorem append_accepted (appended : f.append len results = some g) :
    g.accepted = f.accepted + results.sum := by
  cases results with
  | nil => cases appended
  | cons n results =>
      obtain ⟨-, -, after⟩ := append_extends appended
      rw [after.accepted, sum_taken, List.sum_cons]

/-- The results on which the counter stays right: one retry takes exactly what the first
write has left, or the first write takes nothing and every retry that takes anything takes a
whole line's length. -/
def Counted (len : Nat) : List Nat → Prop
  | [] => True
  | n :: results =>
      (n = 0 ∧ ∀ x ∈ taken results, x = len) ∨ ∃ x, taken results = [x] ∧ n + x = len

/-- Numbers below a bound whose sum is as large as the bound allows. -/
theorem sum_le_mul {bound : Nat} {xs : List Nat} (bounded : ∀ x ∈ xs, x ≤ bound) :
    xs.sum ≤ xs.length * bound ∧ (xs.sum = xs.length * bound ↔ ∀ x ∈ xs, x = bound) := by
  induction xs with
  | nil => simp
  | cons x xs ih =>
      obtain ⟨first, bounded⟩ := List.forall_mem_cons.mp bounded
      obtain ⟨le, eq⟩ := ih bounded
      rw [List.sum_cons, List.length_cons, Nat.succ_mul, List.forall_mem_cons, ← eq]
      omega

/-- **When the counter stays right.** -/
theorem append_counts_iff (appended : f.append len results = some g)
    (before : f.writtenBytes = f.accepted) :
    g.writtenBytes = g.accepted ↔ Counted len results := by
  cases results with
  | nil => cases appended
  | cons n results =>
      obtain ⟨bound, bounds, after⟩ := append_extends appended
      rw [after.writtenBytes, after.accepted, before, Nat.add_left_cancel_iff, Counted, eq_comm]
      generalize taken results = taken at bounds
      cases taken with
      | nil => simp
      | cons x rest =>
          cases rest with
          | nil =>
              have := bounds x (List.mem_cons_self ..)
              simp
              omega
          | cons y rest =>
              obtain ⟨le, eq⟩ := sum_le_mul bounds
              have split : (x :: y :: rest).length * len =
                  (x :: y :: rest).length * (len - n) + (x :: y :: rest).length * n := by
                rw [← Nat.mul_add, Nat.sub_add_cancel bound]
              have several : 2 * n ≤ (x :: y :: rest).length * n :=
                Nat.mul_le_mul_right n (by simp)
              constructor
              · intro sum
                obtain rfl : n = 0 := by omega
                rw [Nat.zero_add] at sum
                exact .inl ⟨rfl, eq.mp sum⟩
              · rintro (⟨rfl, all⟩ | ⟨z, single, -⟩)
                · rw [Nat.zero_add]
                  exact eq.mpr all
                · cases single

end File

/-! ### Rolling -/

/-- Every `append` of the run keeps the counter right. -/
def CountsAll (_ : State) : Label → Prop
  | .append len results _ _ _ => File.Counted len results
  | .flush => True

/-- The counter is right, and a file that is too large has had its last line in the second it
was opened in. -/
structure Rolls (s : LogFile) : Prop where
  opened : ∀ f, s.file = some f → f.opened = s.lastRoll
  counted : ∀ f, s.file = some f → f.writtenBytes = f.accepted
  small : ∀ f second, s.file = some f → f.lastAppend = some second → f.opened < second →
    f.accepted ≤ s.rollSize

/-- `rollFile` leaves the file alone or opens one that is empty. -/
theorem rollFile_rolls {s : LogFile} {now : Int}
    (opened : ∀ f, s.file = some f → f.opened = s.lastRoll)
    (counted : ∀ f, s.file = some f → f.writtenBytes = f.accepted)
    (small : ¬ now > s.lastRoll → ∀ f second, s.file = some f → f.lastAppend = some second →
      f.opened < second → f.accepted ≤ s.rollSize) : Rolls (s.rollFile now) := by
  unfold rollFile
  dsimp only
  split
  · refine ⟨?_, ?_, ?_⟩
    · rintro f ⟨⟩
      rfl
    · rintro f ⟨⟩
      rfl
    · rintro f second ⟨⟩ ⟨⟩
  · rename_i early
    exact ⟨opened, counted, small early⟩

theorem rollFile_rollCalls (s : LogFile) (now : Int) :
    (s.rollFile now).rollCalls = s.rollCalls ++ [now] := by
  unfold rollFile
  dsimp only
  split <;> rfl

theorem rollFile_file {s : LogFile} {now : Int} (later : now > s.lastRoll) :
    (s.rollFile now).file = some (.new now) := by
  unfold rollFile
  rw [if_pos later]

theorem new_rolls (rollSize : Nat) (flushInterval now : Int) :
    Rolls (new rollSize flushInterval now) := by
  refine rollFile_rolls ?_ ?_ ?_
  · rintro f ⟨⟩
  · rintro f ⟨⟩
  · rintro - f second ⟨⟩

/-- What `append_unlocked` does with the file that the line has gone to. -/
inductive Outcome (s : LogFile) (g : File) (now again : Int) : LogFile → Prop where
  | tooLarge (large : g.writtenBytes > s.rollSize) :
      Outcome s g now again (rollFile { s with file := some g } now)
  | nextPeriod (small : g.writtenBytes ≤ s.rollSize) :
      Outcome s g now again (rollFile { s with file := some g, count := 0 } again)
  | goOn (small : g.writtenBytes ≤ s.rollSize) {count : Nat} {lastFlush : Int} :
      Outcome s g now again { s with file := some g, count, lastFlush }

theorem appendUnlocked_cases {s t : LogFile} {len : Nat} {results : List Nat} {now again : Int}
    (appended : s.appendUnlocked len results now again = some t) :
    ∃ f g, s.file = some f ∧ f.append len results = some g ∧ Outcome s g now again t := by
  obtain ⟨f, file, appended⟩ := Option.bind_eq_some_iff.mp appended
  obtain ⟨g, written, appended⟩ := Option.bind_eq_some_iff.mp appended
  refine ⟨f, g, file, written, ?_⟩
  dsimp only at appended
  split at appended
  · rename_i large
    cases appended
    exact .tooLarge large
  · rename_i small
    replace small := Nat.not_lt.mp small
    split at appended
    · split at appended
      · cases appended
        exact .nextPeriod small
      · split at appended
        · cases appended
          exact .goOn small
        · cases appended
          exact .goOn small
    · cases appended
      exact .goOn small

/-- The line stays in the current file, or a new one is opened. -/
theorem Outcome.file {s t : LogFile} {g : File} {now again : Int}
    (outcome : Outcome s g now again t) :
    t.file = some g ∨ ∃ second, t.file = some (.new second) := by
  have rolled (s : LogFile) (second : Int) :
      (s.rollFile second).file = s.file ∨ (s.rollFile second).file = some (.new second) := by
    unfold rollFile
    dsimp only
    split
    · exact .inr rfl
    · exact .inl rfl
  cases outcome with
  | tooLarge => exact (rolled { s with file := some g } now).imp_right fun new => ⟨now, new⟩
  | nextPeriod =>
      exact (rolled { s with file := some g, count := 0 } again).imp_right fun new => ⟨again, new⟩
  | goOn => exact .inl rfl

section Append

variable {s t : LogFile} {len : Nat} {results : List Nat} {start now again : Int}

/-- A line goes to the current file. -/
theorem received_append (inv : Rolls s) (counted : File.Counted len results) {f g : File}
    (file : (s.received start).file = some f) (written : f.append len results = some g) :
    g.opened = s.lastRoll ∧ g.lastAppend = some start ∧ g.writtenBytes = g.accepted := by
  obtain ⟨f, here, rfl⟩ := Option.map_eq_some_iff.mp file
  cases results with
  | nil => cases written
  | cons n results =>
      obtain ⟨-, -, after⟩ := File.append_extends written
      refine ⟨after.opened.trans (inv.opened f here), after.lastAppend, ?_⟩
      exact (File.append_counts_iff written (inv.counted f here)).mpr counted

theorem append_rolls (inv : Rolls s) (counted : File.Counted len results) (order : start ≤ now)
    (appended : (s.received start).appendUnlocked len results now again = some t) : Rolls t := by
  obtain ⟨f, g, file, written, outcome⟩ := appendUnlocked_cases appended
  obtain ⟨opened, last, right⟩ := received_append inv counted file written
  have is_g {P : File → Prop} (holds : P g) : ∀ f, some g = some f → P f := by
    rintro f ⟨⟩
    exact holds
  cases outcome with
  | tooLarge large =>
      refine rollFile_rolls (is_g opened) (is_g right) ?_
      rintro early f second ⟨⟩ same later
      -- a file that is too large has been opened in this second
      rw [last] at same
      cases same
      exact absurd (Int.lt_of_lt_of_le later order) (opened ▸ early)
  | nextPeriod small =>
      refine rollFile_rolls (is_g opened) (is_g right) ?_
      rintro - f second ⟨⟩ - -
      exact right ▸ small
  | goOn small =>
      refine ⟨is_g opened, is_g right, ?_⟩
      rintro f second ⟨⟩ - -
      exact right ▸ small

end Append

theorem step_rolls {s t : State} {l : Label} (inv : Rolls s.logFile) (counts : CountsAll s l)
    (step : machine.step s l = some t) : Rolls t.logFile := by
  cases l with
  | append len results start now again =>
      obtain ⟨⟨-, order, -⟩, step⟩ := Option.ite_none_right_eq_some.mp step
      obtain ⟨logFile, appended, ⟨⟩⟩ := Option.bind_eq_some_iff.mp step
      exact append_rolls inv counts order appended
  | flush =>
      obtain ⟨-, -, ⟨⟩⟩ := Option.bind_eq_some_iff.mp step
      exact inv

theorem reachable_rolls {s : State} (reach : machine.ReachableWhere CountsAll s) :
    Rolls s.logFile := by
  refine reach.invariant (I := fun s => Rolls s.logFile) ?_ ?_
  · rintro s ⟨rollSize, flushInterval, now, rfl⟩
    exact new_rolls _ _ _
  · intro s l t inv counts step
    exact step_rolls inv counts step

/-- **Rolling by size.** What has been accepted is zero in a new file and grows by the results of
`fwrite_unlocked`; the counter is equal to it. -/
theorem rolls_by_size {s : State} (reach : machine.ReachableWhere CountsAll s) :
    (∀ f, s.logFile.file = some f → f.writtenBytes = f.accepted) ∧
    (∀ f second, s.logFile.file = some f → f.lastAppend = some second → f.opened < second →
      f.accepted ≤ s.logFile.rollSize) ∧
    ∀ len results start now again t, File.Counted len results →
      machine.step s (.append len results start now again) = some t →
      ∃ f g, (s.logFile.received start).file = some f ∧ f.append len results = some g ∧
        g.accepted = f.accepted + results.sum ∧
        (t.logFile.file = some g ∨ ∃ second, t.logFile.file = some (.new second)) ∧
        (g.accepted > s.logFile.rollSize →
          t.logFile.rollCalls = s.logFile.rollCalls ++ [now] ∧
            (now > s.logFile.lastRoll → t.logFile.file = some (.new now))) := by
  have inv := reachable_rolls reach
  refine ⟨inv.counted, inv.small, ?_⟩
  intro len results start now again t counted step
  obtain ⟨-, step⟩ := Option.ite_none_right_eq_some.mp step
  obtain ⟨logFile, appended, ⟨⟩⟩ := Option.bind_eq_some_iff.mp step
  obtain ⟨f, g, file, written, outcome⟩ := appendUnlocked_cases appended
  refine ⟨f, g, file, written, File.append_accepted written, outcome.file, ?_⟩
  intro large
  obtain ⟨-, -, right⟩ := received_append inv counted file written
  rw [← right] at large
  cases outcome with
  | tooLarge =>
      refine ⟨rollFile_rollCalls _ now, ?_⟩
      intro later
      exact rollFile_file later
  | nextPeriod small => exact absurd small (Nat.not_le.mpr large)
  | goOn small => exact absurd small (Nat.not_le.mpr large)

/-- A log for files of 10 bytes after a line of 5 bytes that only the second write took. -/
def retried : State :=
  ⟨{ new 10 3 1 with
      count := 1
      file := some { writtenBytes := 5, opened := 1, lastAppend := some 4,
                     writes := [⟨0, 5, 0⟩, ⟨0, 5, 5⟩, ⟨5, 5, 0⟩] } }, 4⟩

/-- The next line, which is taken in the same way, fills the file. -/
theorem rolls_by_size_retried : machine.ReachableWhere CountsAll retried ∧
    (∀ f, retried.logFile.file = some f → f.writtenBytes = f.accepted) ∧
    ∃ f g, (retried.logFile.received 6).file = some f ∧ f.append 8 [0, 8, 0] = some g ∧
      g.accepted = f.accepted + [0, 8, 0].sum ∧ g.accepted > 10 ∧
      ∃ t, machine.step retried (.append 8 [0, 8, 0] 6 6 6) = some t ∧
        t.logFile.file = some (.new 6) := by
  have reach : machine.ReachableWhere CountsAll retried := by
    refine ⟨⟨new 10 3 1, 1⟩, ⟨10, 3, 1, rfl⟩, ?_⟩
    refine Machine.leadsWhere_of_run [.append 5 [0, 5, 0] 4 4 4] ⟨?_, fun _ _ => trivial⟩
      (by decide)
    exact .inl ⟨rfl, by decide⟩
  obtain ⟨counted, -, rolled⟩ := rolls_by_size reach
  obtain ⟨f, g, file, written, accepted, -, roll⟩ :=
    rolled 8 [0, 8, 0] 6 6 6 _ (.inl ⟨rfl, by decide⟩) rfl
  have large : g.accepted > 10 := by
    cases file
    rw [accepted]
    decide
  exact ⟨reach, counted, f, g, file, written, accepted, large, _, rfl, (roll large).2 (by decide)⟩

/-- A line that is written at once is not counted, and the file is not rolled. -/
theorem full_write_not_counted : ∃ s f, machine.Reachable s ∧ s.logFile.file = some f ∧
    f.writtenBytes ≠ f.accepted ∧ f.lastAppend = some 4 ∧ f.opened < 4 ∧
    s.logFile.rollSize < f.accepted := by
  refine ⟨_, _, Machine.reachable_of_run [.append 20 [20] 4 4 4] ⟨10, 3, 1, rfl⟩ rfl, rfl, ?_⟩
  decide

end Dbdky.LogFile
