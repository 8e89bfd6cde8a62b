import Mathlib.Algebra.Group.Int.Defs
import Dbdky.Port.TimerLifecycle

/-!
The timerfd wakes the loop up in time.

The timerfd is set in two places only: for a timer that comes before all others, and at the
end of `reset`, where it is left alone when the next expiration is not valid. So while the
loop is in `handleRead` the timerfd covers the earliest timer only if that one's expiration
is not positive: such a timer was added in the same `handleRead`, since what was there
before has been taken out and what `reset` puts back expires after `now`. This is the
invariant (`Watched`), and `reset` restores the rest of it before `handleRead` returns.
-/

namespace Dbdky.Port.TimerQueue

open Transition

/-! ### The timespec -/

/-- What the kernel accepts and does not read as a request to disarm. -/
structure Timespec.Proper (ts : Timespec) : Prop where
  nonzero : ts.tv_sec ≠ 0 ∨ ts.tv_nsec ≠ 0
  nonneg : 0 ≤ ts.tv_nsec
  normal : ts.tv_nsec < 10 ^ 9

/-- A delay of at least 100 microseconds, in seconds and nanoseconds. -/
theorem split_delay {delay : Int} (enough : 100 ≤ delay) :
    let ts : Timespec :=
      ⟨delay.tdiv kMicroSecondsPerSecond, delay.tmod kMicroSecondsPerSecond * 1000⟩
    ts.Proper ∧ ts.microseconds = delay := by
  have nonneg : 0 ≤ delay := by omega
  simp only [Timespec.microseconds, kMicroSecondsPerSecond, Int.tdiv_eq_ediv_of_nonneg nonneg,
    Int.tmod_eq_emod_of_nonneg nonneg]
  exact ⟨⟨by dsimp only; omega, by dsimp only; omega, by dsimp only; omega⟩, by omega⟩

theorem howMuchTimeFromNow_spec (when now : Int) :
    (howMuchTimeFromNow when now).Proper ∧
      (howMuchTimeFromNow when now).microseconds = max (when - now) 100 := by
  have enough : 100 ≤ if when - now < 100 then 100 else when - now := by
    split <;> omega
  obtain ⟨proper, same⟩ := split_delay enough
  refine ⟨proper, same.trans ?_⟩
  split <;> omega

/-! ### The deadline -/

/-- The deadline of a timerfd that is armed, or has expired and is not handled yet. -/
def Timerfd.deadline : Timerfd → Option Int
  | .disarmed => none
  | .armed deadline => some deadline
  | .expired deadline => some deadline

/-- The timerfd wakes the loop up no later than at `expiration`, or 100 microseconds after
it was last set. -/
def Covered (s : State) (expiration : Int) : Prop :=
  ∃ deadline ∈ s.timerfd.deadline, ∃ last ∈ s.settimes.getLast?,
    deadline ≤ max expiration (last.time + 100)

theorem Covered.mono {s : State} {earlier later : Int} (covered : Covered s earlier)
    (le : earlier ≤ later) : Covered s later := by
  obtain ⟨deadline, armed, last, set, bound⟩ := covered
  exact ⟨deadline, armed, last, set, by omega⟩

theorem covered_resetTimerfd {s : State} {expiration later : Int} (le : expiration ≤ later) :
    Covered (resetTimerfd s expiration) later := by
  refine ⟨_, rfl, _, List.getLast?_concat, ?_⟩
  rw [(howMuchTimeFromNow_spec expiration s.clock).2]
  dsimp only
  omega

/-- An entry shows the expiration its timer has. -/
theorem Inv.expiration_eq {s : State} {e : Entry} {timer : Timer} (inv : Inv s)
    (mem : e ∈ s.timers) (held : s.heap e.timer = some timer) :
    timer.expiration = e.expiration := by
  obtain ⟨object, held', same⟩ := inv.owns.entries e (List.mem_append_left _ mem)
  obtain rfl : timer = object := Option.some.inj (held.symm.trans held')
  exact congrArg Entry.expiration same

structure Watched (s : State) : Prop where
  clock : 0 < s.clock
  now : ∀ now ∈ batchNow s.phase, 0 < now
  covered : ∀ first ∈ s.timers.first?, s.phase = .idle ∨ first.expiration ≤ 0 →
    Covered s first.expiration
  proper : ∀ call ∈ s.settimes, call.value.Proper

theorem expiration_le_of_le {e f : Entry} (le : e ≤ f) : e.expiration ≤ f.expiration :=
  Prod.Lex.monotone_fst_ofLex le

/-- The earliest timer after one has been added. -/
theorem first_insert {timers : OrderedSet Entry} {object : Timer} {addr : Addr} {first : Entry}
    (least : (timers.insert (entry object addr)).first? = some first) :
    object.expiration = first.expiration ∨
      ∃ before, timers.first? = some before ∧ before.expiration ≤ first.expiration := by
  rcases OrderedSet.mem_insert.mp (OrderedSet.first?_mem least) with rfl | mem
  · exact .inl rfl
  · obtain ⟨before, least, le⟩ := OrderedSet.exists_first? mem
    exact .inr ⟨before, least, expiration_le_of_le le⟩

theorem proper_resetTimerfd {s : State} {expiration : Int}
    (proper : ∀ call ∈ s.settimes, call.value.Proper) :
    ∀ call ∈ (resetTimerfd s expiration).settimes, call.value.Proper := by
  intro call mem
  rcases List.mem_append.mp mem with mem | mem
  · exact proper call mem
  · obtain rfl := List.mem_singleton.mp mem
    exact (howMuchTimeFromNow_spec expiration s.clock).1

theorem step_watched {s t : State} {l : Label} (watched : Watched s) (inv : Inv s)
    (step : machine.step s l = some t) : Watched t := by
  obtain ⟨clock, now, covered, proper⟩ := watched
  cases step_cases step with
  | tick delay => exact ⟨by dsimp only; omega, now, covered, proper⟩
  | newTimer | cancelInBatch | cancelNothing => exact ⟨clock, now, covered, proper⟩
  | @addEarliest timer object _ _ _ _ earliest =>
      refine ⟨clock, now, fun first least _ => covered_resetTimerfd ?_, proper_resetTimerfd proper⟩
      rcases first_insert least with same | ⟨before, leastBefore, le⟩
      · exact le_of_eq same
      · simp only [earliestChanged, leastBefore, decide_eq_true_eq] at earliest
        omega
  | @addLater timer object _ _ _ _ later =>
      refine ⟨clock, now, fun first least when => ?_, proper⟩
      -- some timer expires no later than the new one
      obtain ⟨before, leastBefore, le⟩ : ∃ before, s.timers.first? = some before ∧
          before.expiration ≤ first.expiration := by
        rcases first_insert least with same | earlier
        · cases leastBefore : s.timers.first? with
          | none => simp [earliestChanged, leastBefore] at later
          | some before =>
              simp only [earliestChanged, leastBefore, decide_eq_false_iff_not] at later
              exact ⟨before, rfl, by omega⟩
        · exact earlier
      exact (covered before leastBefore (when.imp_right le.trans)).mono le
  | cancelActive _ active _ _ => exact absurd active (inv.inactive _)
  | @expire deadline armed due =>
      refine ⟨clock, now, fun first least when => ?_, proper⟩
      obtain ⟨d, same, last⟩ := covered first least when
      rw [armed] at same
      exact ⟨d, same, last⟩
  | @handleRead activeTimers phase _ _ =>
      refine ⟨clock, ?_, fun first least when => ?_, proper⟩
      · rintro _ ⟨⟩
        exact clock
      · -- what is left expires after `now`
        have late :=
          expiration_le_of_le (OrderedSet.le_of_mem_notBelow (OrderedSet.first?_mem least))
        have positive : s.clock ≤ first.expiration := late
        rcases when with idle | nonpositive
        · cases idle
        · omega
  | run phase _ | reset phase =>
      rw [phase] at now
      refine ⟨clock, now, fun first least when => covered first least (.inr ?_), proper⟩
      exact when.resolve_left nofun
  | @restart batchNow e expired timer phase _ periodic _ _ =>
      rw [phase] at now
      refine ⟨clock, now, fun first least when => ?_, proper⟩
      have nonpositive := when.resolve_left nofun
      have nonneg := timer.interval.nonneg periodic
      have positive := now batchNow rfl
      rcases first_insert least with same | ⟨before, leastBefore, le⟩
      · simp only [Timer.restart, periodic, if_true, addTime] at same
        omega
      · exact (covered before leastBefore (.inr (by omega))).mono le
  | delete phase _ _ =>
      rw [phase] at now
      refine ⟨clock, now, fun first least when => covered first least (.inr ?_), proper⟩
      exact when.resolve_left nofun
  | rearmNothing _ invalid =>
      refine ⟨clock, nofun, fun first least _ => covered first least (.inr ?_), proper⟩
      obtain ⟨timer, held, notValid⟩ := invalid first least
      rw [← inv.expiration_eq (OrderedSet.first?_mem least) held]
      exact Int.not_lt.mp notValid
  | @rearm batchNow first timer _ least held _ =>
      refine ⟨clock, nofun, fun other least' _ => covered_resetTimerfd ?_,
        proper_resetTimerfd proper⟩
      obtain rfl : first = other := Option.some.inj (least.symm.trans least')
      exact le_of_eq (inv.expiration_eq (OrderedSet.first?_mem least) held)

theorem init_watched {s : State} (initial : machine.init s) : Watched s := by
  obtain ⟨clock, positive, rfl⟩ := initial
  exact ⟨positive, nofun, nofun, nofun⟩

theorem reachable_watched {s : State} (reach : machine.Reachable s) : Watched s := by
  have both := reach.invariant (I := fun s => Watched s ∧ Inv s)
    (fun _ initial => ⟨init_watched initial, init_inv initial⟩)
    fun _ _ _ ⟨watched, inv⟩ step => ⟨step_watched watched inv step, step_inv inv step⟩
  exact both.1

/-- **No wakeup is missed.** Outside of `handleRead`, whenever `timers_` is not empty the
timerfd is armed, or has expired and is still unhandled, with a deadline no later than the
earliest expiration or 100 microseconds after it was last set; and every timespec it was
ever set to is proper. -/
theorem wakeup_in_time {s : State} (reach : machine.Reachable s) :
    (s.phase = .idle → ∀ first ∈ s.timers.first?, Covered s first.expiration) ∧
      ∀ call ∈ s.settimes, call.value.Proper := by
  have watched := reachable_watched reach
  exact ⟨fun idle first least => watched.covered first least (.inl idle), watched.proper⟩

/-- A callback adds a timer that has expired already; it is covered when `reset` returns. -/
theorem wakeup_in_time_past : ∃ s : State, s.phase = .idle ∧
    s.timers.first? = some (toLex (-3, 32)) ∧ s.timerfd = .armed 110 ∧
    Covered s (-3) ∧ ∀ call ∈ s.settimes, call.value.Proper := by
  let labels : List Label :=
    [.newTimer 16 5 ⟨false, 0, nofun⟩, .addTimerInLoop 16, .tick 9, .handleRead, .run,
      .newTimer 32 (-3) ⟨false, 0, nofun⟩, .addTimerInLoop 32, .reset, .resetNext, .rearm]
  have reach := Machine.reachable_of_run (M := machine) labels ⟨1, by decide, rfl⟩ rfl
  exact ⟨_, rfl, rfl, rfl, (wakeup_in_time reach).1 rfl _ rfl, (wakeup_in_time reach).2⟩

end Dbdky.Port.TimerQueue
