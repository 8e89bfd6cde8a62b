import Dbdky.Utils.LogFileRolling

/-!
Rolling a `LogFile` by the day.

`append_unlocked` looks at the clock in every 1026th call only, unless the file is too
large. `startOfPeriod_` is always the start of the day of the last roll, so the first look
on a later day opens a new file.

* **`day_roll_bounded`.** At most 1026 consecutive lines of later days go to one file.
-/

namespace Dbdky.LogFile

open Transition

/-! ### Days -/

theorem period_le {a b : Int} (le : a ≤ b) : period a ≤ period b :=
  Int.mul_le_mul_of_nonneg_right (Int.tdiv_le_tdiv (by decide) le) (by decide)

theorem lt_of_period_lt {a b : Int} (less : period a < period b) : a < b := by
  by_contra not_less
  exact absurd (period_le (Int.not_lt.mp not_less)) (Int.not_le.mpr less)

/-- What the counter and the day are like between two calls. -/
structure Dated (s : LogFile) : Prop where
  opened : ∀ f, s.file = some f → f.opened = s.lastRoll
  unopened : s.file = none → s.lastRoll = 0
  nonneg : 0 ≤ s.lastRoll
  day : s.startOfPeriod = period s.lastRoll
  count_le : s.count ≤ kCheckTimeRoll + 1

/-- What a call of `append_unlocked` makes of them, when the line has gone to `g`. -/
inductive Turn (s : LogFile) (g : File) (now again : Int) : LogFile → Prop where
  | tooLarge : Turn s g now again (rollFile { s with file := some g } now)
  | otherDay (checked : s.count > kCheckTimeRoll) (other : period now ≠ s.startOfPeriod) :
      Turn s g now again (rollFile { s with file := some g, count := 0 } again)
  | sameDay (checked : s.count > kCheckTimeRoll) (same : period now = s.startOfPeriod)
      (lastFlush : Int) : Turn s g now again { s with file := some g, count := 0, lastFlush }
  | count (unchecked : s.count ≤ kCheckTimeRoll) :
      Turn s g now again { s with file := some g, count := s.count + 1 }

section Append

variable {s t : LogFile} {len : Nat} {results : List Nat} {start now again : Int}

theorem appendUnlocked_turn (appended : s.appendUnlocked len results now again = some t) :
    ∃ f g, s.file = some f ∧ g.opened = f.opened ∧ Turn s g now again t := by
  obtain ⟨f, file, appended⟩ := Option.bind_eq_some_iff.mp appended
  obtain ⟨g, written, appended⟩ := Option.bind_eq_some_iff.mp appended
  have opened : g.opened = f.opened := by
    cases results with
    | nil => cases written
    | cons n results => exact (File.append_extends written).2.2.opened
  refine ⟨f, g, file, opened, ?_⟩
  dsimp only at appended
  split at appended
  · cases appended
    exact .tooLarge
  · split at appended
    · rename_i checked
      split at appended
      · rename_i other
        cases appended
        exact .otherDay checked other
      · rename_i same
        split at appended
        · cases appended
          exact .sameDay checked (not_not.mp same) now
        · cases appended
          exact .sameDay checked (not_not.mp same) s.lastFlush
    · rename_i unchecked
      cases appended
      exact .count (Nat.not_lt.mp unchecked)

theorem rollFile_dated (dated : Dated s) (now : Int) :
    Dated (s.rollFile now) ∧ s.lastRoll ≤ (s.rollFile now).lastRoll := by
  unfold rollFile
  dsimp only
  split
  · rename_i later
    have passed := Int.le_of_lt later
    refine ⟨⟨?_, nofun, Int.le_trans dated.nonneg passed, rfl, dated.count_le⟩, passed⟩
    rintro f ⟨⟩
    rfl
  · exact ⟨⟨dated.opened, dated.unopened, dated.nonneg, dated.day, dated.count_le⟩,
      Int.le_refl _⟩

theorem new_dated (rollSize : Nat) (flushInterval now : Int) :
    Dated (new rollSize flushInterval now) := by
  refine (rollFile_dated ⟨?_, fun _ => rfl, Int.le_refl 0, rfl, Nat.zero_le _⟩ now).1
  rintro f ⟨⟩

/-- A line goes to the file of the last roll. -/
theorem Dated.wrote (dated : Dated s) {f g : File} (file : s.file = some f)
    (opened : g.opened = f.opened) {count : Nat} {lastFlush : Int}
    (count_le : count ≤ kCheckTimeRoll + 1) :
    Dated { s with file := some g, count, lastFlush } := by
  refine ⟨?_, nofun, dated.nonneg, dated.day, count_le⟩
  rintro _ ⟨⟩
  exact opened.trans (dated.opened f file)

theorem append_dated (dated : Dated s)
    (appended : s.appendUnlocked len results now again = some t) :
    Dated t ∧ s.lastRoll ≤ t.lastRoll := by
  obtain ⟨f, g, file, opened, turn⟩ := appendUnlocked_turn appended
  cases turn with
  | tooLarge => exact rollFile_dated (dated.wrote file opened dated.count_le) now
  | otherDay => exact rollFile_dated (dated.wrote file opened (Nat.zero_le _)) again
  | sameDay => exact ⟨dated.wrote file opened (Nat.zero_le _), Int.le_refl _⟩
  | count unchecked =>
      exact ⟨dated.wrote file opened (Nat.succ_le_succ unchecked), Int.le_refl _⟩

/-- A call on a later day counts, or it opens a new file. -/
theorem append_later (dated : Dated s) (order : start ≤ now) (order' : now ≤ again)
    (later : s.startOfPeriod < period start)
    (appended : s.appendUnlocked len results now again = some t) :
    start ≤ t.lastRoll ∧ s.lastRoll < t.lastRoll ∨
      t.lastRoll = s.lastRoll ∧ t.count = s.count + 1 := by
  have rolls {u : LogFile} {second : Int} (same : u.lastRoll = s.lastRoll)
      (reads : start ≤ second) :
      start ≤ (u.rollFile second).lastRoll ∧ s.lastRoll < (u.rollFile second).lastRoll := by
    rw [dated.day] at later
    have after : s.lastRoll < second := Int.lt_of_lt_of_le (lt_of_period_lt later) reads
    rw [rollFile, if_pos (same ▸ after)]
    exact ⟨reads, after⟩
  obtain ⟨f, g, file, opened, turn⟩ := appendUnlocked_turn appended
  cases turn with
  | tooLarge => exact .inl (rolls rfl order)
  | otherDay => exact .inl (rolls rfl (Int.le_trans order order'))
  | sameDay checked same =>
      have reached := period_le order
      omega
  | count => exact .inr ⟨rfl, rfl⟩

end Append

/-! ### Runs -/

/-- The seconds in which the lines of a run come in. -/
def starts (labels : List Label) : List Int :=
  labels.filterMap fun
    | .append _ _ start _ _ => some start
    | .flush => none

/-- The line of this step, if it is one, goes to the file opened in the second `opened`, on a
later day. -/
def LateLine (opened : Int) (s : State) (l : Label) : Prop :=
  (∃ f, s.logFile.file = some f ∧ f.opened = opened) ∧
    ∀ start ∈ starts [l], period opened < period start

section Run

variable {s t : State} {len : Nat} {results : List Nat} {start now again : Int} {l : Label}
  {labels : List Label}

theorem received_dated {s : LogFile} (dated : Dated s) (start : Int) :
    Dated (s.received start) := by
  refine ⟨?_, fun none_open => ?_, dated.nonneg, dated.day, dated.count_le⟩
  · intro f file
    obtain ⟨g, here, rfl⟩ := Option.map_eq_some_iff.mp file
    exact dated.opened g here
  · exact dated.unopened (Option.map_eq_none_iff.mp none_open)

theorem step_append (step : machine.step s (.append len results start now again) = some t) :
    s.clock ≤ start ∧ start ≤ now ∧ now ≤ again ∧ t.clock = again ∧
      (s.logFile.received start).appendUnlocked len results now again = some t.logFile := by
  obtain ⟨⟨after, order, order'⟩, step⟩ := Option.ite_none_right_eq_some.mp step
  obtain ⟨logFile, appended, ⟨⟩⟩ := Option.bind_eq_some_iff.mp step
  exact ⟨after, order, order', rfl, appended⟩

theorem step_flush (step : machine.step s .flush = some t) : t = s := by
  obtain ⟨-, -, ⟨⟩⟩ := Option.bind_eq_some_iff.mp step
  rfl

theorem step_dated (dated : Dated s.logFile) (step : machine.step s l = some t) :
    Dated t.logFile ∧ s.logFile.lastRoll ≤ t.logFile.lastRoll := by
  cases l with
  | append len results start now again =>
      obtain ⟨-, -, -, -, appended⟩ := step_append step
      have kept := append_dated (received_dated dated start) appended
      exact kept
  | flush =>
      rw [step_flush step]
      exact ⟨dated, Int.le_refl _⟩

theorem reachable_dated (reach : machine.Reachable s) : Dated s.logFile := by
  refine reach.invariant (I := fun s => Dated s.logFile) ?_ fun s l t dated step =>
    (step_dated dated step).1
  rintro s ⟨rollSize, flushInterval, now, rfl⟩
  exact new_dated _ _ _

theorem run_lastRoll (dated : Dated s.logFile) (run : machine.run s labels = some t) :
    s.logFile.lastRoll ≤ t.logFile.lastRoll := by
  induction labels generalizing s with
  | nil =>
      cases run
      exact Int.le_refl _
  | cons l labels ih =>
      obtain ⟨u, step, tail⟩ := Option.bind_eq_some_iff.mp run
      obtain ⟨dated', le⟩ := step_dated dated step
      exact Int.le_trans le (ih dated' tail)

/-- Lines of later days are counted until a new file is opened. -/
theorem run_later (dated : Dated s.logFile) (run : machine.run s labels = some t) {first : Int}
    (from_first : ∀ start ∈ starts labels, first ≤ start)
    (later : ∀ start ∈ starts labels, s.logFile.startOfPeriod < period start) :
    first ≤ t.logFile.lastRoll ∧ s.logFile.lastRoll < t.logFile.lastRoll ∨
      t.logFile.count = s.logFile.count + (starts labels).length := by
  induction labels generalizing s with
  | nil =>
      cases run
      exact .inr rfl
  | cons l labels ih =>
      obtain ⟨u, step, tail⟩ := Option.bind_eq_some_iff.mp run
      obtain ⟨dated', -⟩ := step_dated dated step
      cases l with
      | append len results start now again =>
          obtain ⟨-, order, order', -, appended⟩ := step_append step
          obtain ⟨first_le, from_first⟩ := List.forall_mem_cons.mp from_first
          obtain ⟨late, later⟩ := List.forall_mem_cons.mp later
          rcases append_later (received_dated dated start) order order' late appended with
            ⟨reached, rolled⟩ | ⟨same, counted⟩
          · have kept := run_lastRoll dated' tail
            exact .inl ⟨Int.le_trans first_le (Int.le_trans reached kept),
              Int.lt_of_lt_of_le rolled kept⟩
          · replace same : u.logFile.lastRoll = s.logFile.lastRoll := same
            replace counted : u.logFile.count = s.logFile.count + 1 := counted
            have day : u.logFile.startOfPeriod = s.logFile.startOfPeriod := by
              rw [dated'.day, dated.day, same]
            rw [← day] at later
            rw [← same]
            refine (ih dated' tail from_first later).imp_right fun count => ?_
            change _ = _ + ((starts labels).length + 1)
            rw [count, counted]
            omega
      | flush =>
          obtain rfl := step_flush step
          exact ih dated tail from_first later

/-- The clock does not go back. -/
theorem run_starts (run : machine.run s labels = some t) :
    ∀ start ∈ starts labels, s.clock ≤ start := by
  induction labels generalizing s with
  | nil => exact fun start mem => absurd mem List.not_mem_nil
  | cons l labels ih =>
      obtain ⟨u, step, tail⟩ := Option.bind_eq_some_iff.mp run
      cases l with
      | append len results start now again =>
          obtain ⟨after, order, order', clock, -⟩ := step_append step
          refine List.forall_mem_cons.mpr ⟨after, fun later mem => ?_⟩
          have := ih tail later mem
          omega
      | flush =>
          obtain rfl := step_flush step
          exact ih tail

theorem first_le (run : machine.run s labels = some t) {first : Int}
    (is_first : first ∈ (starts labels).head?) : ∀ start ∈ starts labels, first ≤ start := by
  induction labels generalizing s with
  | nil => cases is_first
  | cons l labels ih =>
      obtain ⟨u, step, tail⟩ := Option.bind_eq_some_iff.mp run
      cases l with
      | append len results start now again =>
          obtain ⟨-, order, order', clock, -⟩ := step_append step
          cases is_first
          refine List.forall_mem_cons.mpr ⟨Int.le_refl _, fun later mem => ?_⟩
          have := run_starts tail later mem
          omega
      | flush => exact ih tail is_first

/-- A log does nothing before its first file has been opened. -/
theorem file_of_step (step : machine.step s l = some t) : ∃ f, s.logFile.file = some f := by
  cases l with
  | append len results start now again =>
      obtain ⟨-, -, -, -, appended⟩ := step_append step
      obtain ⟨f, -, file, -⟩ := appendUnlocked_turn appended
      obtain ⟨g, here, -⟩ := Option.map_eq_some_iff.mp file
      exact ⟨g, here⟩
  | flush =>
      obtain ⟨f, file, -⟩ := Option.bind_eq_some_iff.mp step
      exact ⟨f, file⟩

/-- A later file than the one at the beginning of the run. -/
theorem files_of_lt (dated : Dated s.logFile) (dated' : Dated t.logFile)
    (run : machine.run s labels = some t) (rolled : s.logFile.lastRoll < t.logFile.lastRoll) :
    ∃ f g, s.logFile.file = some f ∧ t.logFile.file = some g ∧ f.opened < g.opened := by
  have before : ∃ f, s.logFile.file = some f := by
    cases labels with
    | nil =>
        cases run
        exact absurd rolled (Int.lt_irrefl _)
    | cons l labels =>
        obtain ⟨u, step, -⟩ := Option.bind_eq_some_iff.mp run
        exact file_of_step step
  obtain ⟨f, file⟩ := before
  cases after : t.logFile.file with
  | none =>
      have never := dated'.unopened after
      have nonneg := dated.nonneg
      omega
  | some g =>
      refine ⟨f, g, file, rfl, ?_⟩
      rw [dated.opened f file, dated'.opened g after]
      exact rolled

/-- The file takes no line of a later day once the counter has been through. -/
theorem late_lines (dated : Dated s.logFile) (run : machine.run s labels = some t) {opened : Int}
    (late : machine.Meets (LateLine opened) s labels) :
    (starts labels).length + s.logFile.count ≤ 1026 := by
  induction labels generalizing s with
  | nil =>
      have bound := dated.count_le
      rw [kCheckTimeRoll] at bound
      change 0 + _ ≤ _
      omega
  | cons l labels ih =>
      obtain ⟨u, step, tail⟩ := Option.bind_eq_some_iff.mp run
      obtain ⟨⟨⟨f, file, same_file⟩, later⟩, rest⟩ := late
      obtain ⟨dated', -⟩ := step_dated dated step
      cases l with
      | append len results start now again =>
          obtain ⟨-, order, order', -, appended⟩ := step_append step
          have this_later := later start (List.mem_singleton_self _)
          rw [← same_file, dated.opened f file, ← dated.day] at this_later
          change (starts labels).length + 1 + _ ≤ _
          rcases append_later (received_dated dated start) order order' this_later appended with
            ⟨-, rolled⟩ | ⟨-, counted⟩
          · -- no further line can go to the old file
            replace rolled : s.logFile.lastRoll < u.logFile.lastRoll := rolled
            have ended : labels = [] := by
              cases labels with
              | nil => rfl
              | cons l labels =>
                  obtain ⟨⟨⟨g, file', again_same⟩, -⟩, -⟩ := rest u step
                  rw [← same_file, dated.opened f file, dated'.opened g file'] at again_same
                  omega
            have bound := dated.count_le
            rw [kCheckTimeRoll] at bound
            rw [ended]
            change 0 + 1 + _ ≤ _
            omega
          · replace counted : u.logFile.count = s.logFile.count + 1 := counted
            have := ih dated' tail (rest u step)
            omega
      | flush =>
          obtain rfl := step_flush step
          exact ih dated tail (rest u step)

end Run

/-- **The day roll is bounded.** -/
theorem day_roll_bounded {s : State} (reach : machine.Reachable s) :
    (∀ labels t, machine.run s labels = some t → 1026 ≤ (starts labels).length →
      (∀ start ∈ starts labels, s.logFile.startOfPeriod < period start) →
      (∃ f g, s.logFile.file = some f ∧ t.logFile.file = some g ∧ f.opened < g.opened) ∧
        ∀ first ∈ (starts labels).head?, period first ≤ t.logFile.startOfPeriod) ∧
    ∀ labels t opened, machine.run s labels = some t →
      machine.Meets (LateLine opened) s labels → (starts labels).length ≤ 1026 := by
  have dated := reachable_dated reach
  refine ⟨fun labels t run many later => ?_, fun labels t opened run late => ?_⟩
  · have dated' := reachable_dated (reach.trans (Machine.leads_of_run labels run))
    have rolled {first : Int} (from_first : ∀ start ∈ starts labels, first ≤ start) :
        first ≤ t.logFile.lastRoll ∧ s.logFile.lastRoll < t.logFile.lastRoll := by
      refine (run_later dated run from_first later).resolve_right fun counted => ?_
      have bound := dated'.count_le
      rw [kCheckTimeRoll] at bound
      omega
    refine ⟨files_of_lt dated dated' run (rolled (run_starts run)).2, fun first is_first => ?_⟩
    rw [dated'.day]
    exact period_le (rolled (first_le run is_first)).1
  · have := late_lines dated run late
    omega

/-- A log whose file is open takes a line. -/
theorem whole_line {s : State} {second : Int} (file : ∃ f, s.logFile.file = some f)
    (not_before : s.clock ≤ second) (len : Nat) :
    ∃ t, machine.step s (.append len [len] second second second) = some t ∧
      (∃ f, t.logFile.file = some f) ∧ t.clock = second := by
  obtain ⟨f, file⟩ := file
  have order : s.clock ≤ second ∧ second ≤ second ∧ second ≤ second :=
    ⟨not_before, Int.le_refl _, Int.le_refl _⟩
  have written (f : File) : ∃ g, f.append len [len] = some g := by
    simp [File.append, File.write, File.retry]
  obtain ⟨g, written⟩ := written { f with lastAppend := some second }
  have rolls (u : LogFile) (open_file : ∃ f, u.file = some f) :
      ∃ f, (u.rollFile second).file = some f := by
    unfold rollFile
    dsimp only
    split
    · exact ⟨_, rfl⟩
    · exact open_file
  have appends : ∃ logFile, (s.logFile.received second).appendUnlocked len [len] second second =
      some logFile ∧ ∃ f, logFile.file = some f := by
    simp only [appendUnlocked, received, file, Option.map_some, Option.bind_eq_bind,
      Option.bind_some, written]
    split
    · exact ⟨_, rfl, rolls _ ⟨_, rfl⟩⟩
    · split
      · split
        · exact ⟨_, rfl, rolls _ ⟨_, rfl⟩⟩
        · split
          · exact ⟨_, rfl, _, rfl⟩
          · exact ⟨_, rfl, _, rfl⟩
      · exact ⟨_, rfl, _, rfl⟩
  obtain ⟨logFile, appended, file'⟩ := appends
  refine ⟨⟨logFile, second⟩, ?_, file', rfl⟩
  simp only [machine, if_pos order, appended, Option.bind_eq_bind, Option.bind_some]

theorem whole_lines {s : State} {second : Int} (file : ∃ f, s.logFile.file = some f)
    (not_before : s.clock ≤ second) (len k : Nat) :
    ∃ t, machine.run s (List.replicate k (.append len [len] second second second)) = some t := by
  induction k generalizing s with
  | zero => exact ⟨s, rfl⟩
  | succ k ih =>
      obtain ⟨u, step, file', clock⟩ := whole_line file not_before len
      obtain ⟨t, run⟩ := ih file' (Int.le_of_eq clock)
      refine ⟨t, ?_⟩
      rw [List.replicate_succ, Machine.run_cons, step]
      exact run

/-- 1026 lines on January 2nd open a new file. -/
theorem day_roll_bounded_january :
    ∃ t f g, machine.run ⟨new 1000 3 1, 1⟩
        (List.replicate 1026 (.append 5 [5] 90000 90000 90000)) = some t ∧
      (new 1000 3 1).file = some f ∧ t.logFile.file = some g ∧ f.opened < g.opened ∧
      (starts [.append 5 [5] 90000 90000 90000]).length ≤ 1026 := by
  have reach : machine.Reachable ⟨new 1000 3 1, 1⟩ := .of_init ⟨1000, 3, 1, rfl⟩
  have not_before : (⟨new 1000 3 1, 1⟩ : State).clock ≤ 90000 := by decide
  obtain ⟨t, run⟩ := whole_lines ⟨_, rfl⟩ not_before 5 1026
  have lines : starts (List.replicate 1026 (.append 5 [5] 90000 90000 90000)) =
      List.replicate 1026 90000 := List.filterMap_replicate_of_some rfl
  have many : 1026 ≤ (starts (List.replicate 1026 (.append 5 [5] 90000 90000 90000))).length := by
    apply Nat.le_of_eq
    rw [lines, List.length_replicate]
  obtain ⟨⟨f, g, before, after, rolled⟩, -⟩ := (day_roll_bounded reach).1 _ t run many (by
    rw [lines]
    intro start mem
    rw [List.eq_of_mem_replicate mem]
    decide)
  refine ⟨t, f, g, run, before, after, rolled, ?_⟩
  refine (day_roll_bounded reach).2 [.append 5 [5] 90000 90000 90000] _ 1 rfl
    ⟨⟨⟨_, rfl, rfl⟩, ?_⟩, ?_⟩
  · decide
  · exact fun _ _ => trivial

end Dbdky.LogFile
