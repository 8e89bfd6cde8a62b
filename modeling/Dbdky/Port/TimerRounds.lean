import Dbdky.Port.TimerExpiry
import Dbdky.Port.TimerSets
import Dbdky.Port.TimerWakeup

/-!
A round of `handleRead`: the batch it reads, the callbacks, and `reset`.

* **`round_runs_due`.** Whatever the callbacks and other threads do meanwhile, a round that comes
  to its end has run the timers that were due when it began, each once and in the order of their
  expirations; those that repeat and were not cancelled in the round are filed again, and the others
  are deleted.
* **`timer_runs_in_time`.** A timer that has expired is run by the next round, and the timerfd
  expires no later than that one may begin.
-/

namespace Dbdky.Port.TimerQueue

open Transition

/-- What `getExpired` takes out of `timers_`. -/
def due (s : State) : List Entry := s.timers.below (toLex (s.clock, uint32Max))

/-- The call of a callback in the round that begins in `s`. -/
def invocation (s : State) (e : Entry) : Option Invocation :=
  (s.heap e.timer).map fun timer => ⟨timer, s.clock, s.batch + 1⟩

/-- The timer that a step cancels. -/
def Label.cancelled : Label → Option TimerId
  | .cancelInLoop timerId => some timerId
  | _ => none

/-- The timers that a round cancels from `handleRead` on: `cancelInLoop` is called for them before
`reset`, while the callbacks run. -/
def cancelledIn (ls : List Label) : List TimerId :=
  (ls.takeWhile (· ≠ .reset)).filterMap Label.cancelled

/-- What `reset` has done with a timer of the round that began in `s`, if these timers were
cancelled. -/
def Handled (s u : State) (cancelled : List TimerId) (e : Entry) : Prop :=
  ∀ timer, s.heap e.timer = some timer →
    if timer.repeats = true ∧ ⟨e.timer, timer.sequence⟩ ∉ cancelled then
      u.heap e.timer = some (timer.restart s.clock) ∧
        entry (timer.restart s.clock) e.timer ∈ u.timers
    else ⟨e.timer, timer.sequence⟩ ∈ u.deleted

/-- What is in `cancelingTimers_`. -/
def canceling (s : State) : List TimerId :=
  s.cancelingTimers.toList.map fun timer => ⟨(ofLex timer).1, (ofLex timer).2⟩

theorem mem_canceling {s : State} {timerId : TimerId} :
    timerId ∈ canceling s ↔ timerId.active ∈ s.cancelingTimers := by
  rw [canceling, List.mem_map]
  constructor
  · rintro ⟨timer, mem, rfl⟩
    exact mem
  · intro mem
    exact ⟨timerId.active, mem, rfl⟩

/-- How far the round has come. -/
def Progress (s : State) (invocations : List Invocation) : Phase → Prop
  | .calling now called uncalled =>
      now = s.clock ∧ called ++ uncalled = due s ∧
        invocations = s.invocations ++ called.filterMap (invocation s)
  | .resetting now expired =>
      now = s.clock ∧ expired ⊆ due s ∧
        invocations = s.invocations ++ (due s).filterMap (invocation s)
  | .idle => invocations = s.invocations ++ (due s).filterMap (invocation s)

/-- The round that began in `s` has come to `u`. -/
structure Round (s u : State) : Prop where
  progress : Progress s u.invocations u.phase
  batch : u.batch = s.batch + 1
  /-- `cancelingTimers_` grows only while the callbacks run. -/
  calling : u.callingExpiredTimers = true → ∃ now called uncalled,
    u.phase = .calling now called uncalled
  /-- A timer that `reset` has not come to is as it was. -/
  kept : ∀ e ∈ remaining u.phase, u.heap e.timer = s.heap e.timer
  handled : ∀ e ∈ due s, e ∉ remaining u.phase → Handled s u (canceling u) e

variable {s t u v : State} {l : Label}

theorem Handled.mono {e : Entry} {before after : List TimerId} (handled : Handled s u before e)
    (same : ∀ timerId, timerId ∈ after ↔ timerId ∈ before)
    (heap : ∀ timer, u.heap e.timer = some timer → v.heap e.timer = some timer)
    (timers : ∀ f : Entry, f.timer = e.timer → f ∈ u.timers → f ∈ v.timers)
    (deleted : ∀ id ∈ u.deleted, id ∈ v.deleted) : Handled s v after e := by
  intro timer held
  have was := handled timer held
  simp only [same]
  split at was
  · rename_i again
    rw [if_pos again]
    exact ⟨heap _ was.1, timers _ rfl was.2⟩
  · rename_i gone
    rw [if_neg gone]
    exact deleted _ was

/-- While the callbacks run, `reset` has not come to any timer. -/
theorem Round.remaining_calling (round : Round s u) (calls : u.callingExpiredTimers = true) :
    remaining u.phase = due s := by
  obtain ⟨now, called, uncalled, phase⟩ := round.calling calls
  have progress := round.progress
  rw [phase] at progress ⊢
  exact progress.2.1

/-- A step that is none of the round leaves it where it is. -/
theorem Round.frame (round : Round s u) (live : ∀ e ∈ remaining u.phase, u.heap e.timer ≠ none)
    (phase : v.phase = u.phase) (invocations : v.invocations = u.invocations)
    (batch : v.batch = u.batch) (calling : v.callingExpiredTimers = u.callingExpiredTimers)
    (canceling : v.cancelingTimers = u.cancelingTimers ∨ remaining u.phase = due s)
    (heap : ∀ a timer, u.heap a = some timer → v.heap a = some timer)
    (timers : ∀ e ∈ u.timers, e ∈ v.timers) (deleted : v.deleted = u.deleted) : Round s v where
  progress := by
    rw [phase, invocations]
    exact round.progress
  batch := batch.trans round.batch
  calling := by
    rw [phase, calling]
    exact round.calling
  kept e mem := by
    rw [phase] at mem
    obtain ⟨timer, held⟩ := Option.ne_none_iff_exists'.mp (live e mem)
    rw [heap _ _ held, ← held, round.kept e mem]
  handled e mem past := by
    rw [phase] at past
    rcases canceling with same | all
    · exact (round.handled e mem past).mono (fun _ => by rw [mem_canceling, mem_canceling, same])
        (heap _) (fun f _ => timers f) (fun id mem => deleted ▸ mem)
    · exact absurd (all ▸ mem) past

/-- Different entries of a batch are of different timers. -/
theorem Owns.apart (owns : Owns s.heap s.toAdd (stored s)) {e f : Entry} (first : e ∈ due s)
    (second : f ∈ due s) (same : e.timer = f.timer) : e = f := by
  have nodup := owns.nodup.of_append_right
  refine List.inj_on_of_nodup_map nodup ?_ ?_ same
  · exact List.mem_append_left _ (OrderedSet.mem_below.mp first).1
  · exact List.mem_append_left _ (OrderedSet.mem_below.mp second).1

/-- `reset` comes to the entry `e`, and changes only what belongs to its timer. -/
theorem Round.next {now : Int} {e : Entry} {expired : List Entry} {timer : Timer}
    (round : Round s u) (owns : Owns s.heap s.toAdd (stored s))
    (batch : ((remaining u.phase).map Entry.timer).Nodup)
    (from_phase : u.phase = .resetting now (e :: expired)) (held : u.heap e.timer = some timer)
    (phase : v.phase = .resetting now expired) (invocations : v.invocations = u.invocations)
    (number : v.batch = u.batch) (calling : v.callingExpiredTimers = u.callingExpiredTimers)
    (canceling : v.cancelingTimers = u.cancelingTimers)
    (heap : ∀ a ≠ e.timer, v.heap a = u.heap a) (timers : ∀ f ∈ u.timers, f ∈ v.timers)
    (deleted : ∀ id ∈ u.deleted, id ∈ v.deleted)
    (handled : s.heap e.timer = some timer → Handled s v (TimerQueue.canceling v) e) :
    Round s v := by
  have progress := round.progress
  rw [from_phase] at progress batch
  obtain ⟨now_eq, subset, invoked⟩ := progress
  have here : e ∈ due s := subset List.mem_cons_self
  have kept := round.kept
  rw [from_phase] at kept
  have first : e.timer ∉ expired.map Entry.timer := (List.nodup_cons.mp batch).1
  constructor
  · rw [phase, invocations]
    exact ⟨now_eq, fun f mem => subset (List.mem_cons_of_mem _ mem), invoked⟩
  · exact number.trans round.batch
  · intro calls
    obtain ⟨_, _, _, other⟩ := round.calling (calling ▸ calls)
    rw [from_phase] at other
    cases other
  · intro f mem
    rw [phase] at mem
    have other : f.timer ≠ e.timer := fun same => first (same ▸ List.mem_map_of_mem mem)
    rw [heap _ other, kept f (List.mem_cons_of_mem _ mem)]
  · intro f mem past
    rw [phase] at past
    by_cases same : f = e
    · subst same
      exact handled ((kept f List.mem_cons_self).symm.trans held)
    · have other : f.timer ≠ e.timer := fun timers => same (owns.apart mem here timers)
      have before : f ∉ remaining u.phase := by
        rw [from_phase]
        exact fun mem => (List.mem_cons.mp mem).elim same past
      exact (round.handled f mem before).mono
        (fun _ => by rw [mem_canceling, mem_canceling, canceling])
        (fun _ held => (heap _ other).trans held) (fun g _ => timers g) deleted

theorem Round.begin {activeTimers : OrderedSet ActiveTimer} : Round s { s with
    timerfd := readTimerfd s.timerfd
    timers := s.timers.notBelow (toLex (s.clock, uint32Max))
    activeTimers
    callingExpiredTimers := true
    cancelingTimers := .empty
    phase := .calling s.clock [] (s.timers.below (toLex (s.clock, uint32Max)))
    batch := s.batch + 1 } where
  progress := ⟨rfl, rfl, (List.append_nil _).symm⟩
  batch := rfl
  calling _ := ⟨_, _, _, rfl⟩
  kept _ _ := rfl
  handled _ mem past := absurd mem past

theorem Round.step (round : Round s u) (owns : Owns s.heap s.toAdd (stored s)) (inv : Inv u)
    (goes_on : l ≠ .handleRead) (step : machine.step u l = some v) : Round s v := by
  have live : ∀ e ∈ remaining u.phase, u.heap e.timer ≠ none :=
    fun e mem => inv.owns.live_entry (List.mem_append_right _ mem)
  have batch := inv.owns.batch_nodup
  cases step_cases step with
  | tick | cancelNothing | expire =>
      exact round.frame live rfl rfl rfl rfl (.inl rfl) (fun _ _ => id) (fun _ => id) rfl
  | newTimer _ _ free =>
      refine round.frame live rfl rfl rfl rfl (.inl rfl) (fun a object held => ?_) (fun _ => id) rfl
      exact update_some_eq_some_iff.mpr (.inr ⟨fun same => by simp [same, free] at held, held⟩)
  | addEarliest | addLater =>
      exact round.frame live rfl rfl rfl rfl (.inl rfl) (fun _ _ => id)
        (fun _ mem => OrderedSet.mem_insert.mpr (.inr mem)) rfl
  | cancelActive _ active _ _ => exact absurd active (inv.inactive _)
  | cancelInBatch _ _ calls =>
      exact round.frame live rfl rfl rfl rfl (.inr (round.remaining_calling calls)) (fun _ _ => id)
        (fun _ => id) rfl
  | handleRead => exact absurd rfl goes_on
  | @run now called e uncalled timer phase held =>
      obtain ⟨progress, number, calling, kept, handled⟩ := round
      rw [phase] at progress kept handled
      obtain ⟨now_eq, split, invoked⟩ := progress
      have before : s.heap e.timer = some timer := by
        rw [← kept e (by simp [remaining]), held]
      have same : called ++ [e] ++ uncalled = called ++ e :: uncalled := List.append_cons .. |>.symm
      refine ⟨⟨now_eq, same.trans split, ?_⟩, number, fun _ => ⟨_, _, _, rfl⟩, ?_, ?_⟩
      · simp [invoked, List.filterMap_append, invocation, before, now_eq, number]
      · change ∀ f ∈ called ++ [e] ++ uncalled, _
        rwa [same]
      · change ∀ f ∈ due s, f ∉ called ++ [e] ++ uncalled → _
        rwa [same]
  | @reset now called phase =>
      obtain ⟨progress, number, calling, kept, handled⟩ := round
      rw [phase] at progress kept handled
      obtain ⟨now_eq, split, invoked⟩ := progress
      rw [List.append_nil] at split
      refine ⟨⟨now_eq, split ▸ List.Subset.refl _, split ▸ invoked⟩, number, ?_, ?_, ?_⟩
      · exact fun calls => Bool.noConfusion calls
      · simpa [remaining] using kept
      · exact fun e mem past => handled e mem (by simpa [remaining] using past)
  | @restart now e expired timer phase held repeats kept new =>
      have now_eq : now = s.clock := by
        have progress := round.progress
        rw [phase] at progress
        exact progress.1
      refine round.next owns batch phase held rfl rfl rfl rfl rfl
        (fun _ other => Function.update_of_ne other _ _)
        (fun _ mem => OrderedSet.mem_insert.mpr (.inr mem)) (fun _ => id) ?_
      intro before again same
      obtain rfl : timer = again := Option.some.inj (before.symm.trans same)
      rw [if_pos ⟨repeats, mem_canceling.not.mpr kept⟩, ← now_eq]
      exact ⟨Function.update_self .., OrderedSet.mem_insert.mpr (.inl rfl)⟩
  | @delete now e expired timer phase held why =>
      refine round.next owns batch phase held rfl rfl rfl rfl rfl
        (fun _ other => Function.update_of_ne other _ _) (fun _ => id)
        (fun _ mem => List.mem_append_left _ mem) ?_
      intro before again same
      obtain rfl : timer = again := Option.some.inj (before.symm.trans same)
      have gone : ¬ (timer.repeats = true ∧ ⟨e.timer, timer.sequence⟩ ∉ canceling u) := by
        rintro ⟨repeats, kept⟩
        rcases why with once | cancelled
        · exact Bool.false_ne_true (once.symm.trans repeats)
        · exact kept (mem_canceling.mpr cancelled)
      exact (if_neg gone).mpr (List.mem_append_right _ (List.mem_singleton_self _))
  | rearmNothing phase | rearm phase =>
      obtain ⟨progress, number, calling, kept, handled⟩ := round
      rw [phase] at progress handled
      refine ⟨progress.2.2, number, fun calls => ?_, fun f mem => absurd mem List.not_mem_nil,
        handled⟩
      obtain ⟨_, _, _, other⟩ := calling calls
      rw [phase] at other
      cases other

/-! ### A whole round -/

theorem round_of_run {ls : List Label} (reach : machine.Reachable s)
    (run : machine.run s (.handleRead :: ls) = some t) (one : ∀ l ∈ ls, l ≠ .handleRead) :
    Round s t := by
  have inv := reachable_inv reach
  obtain ⟨u, step, run⟩ := Option.bind_eq_some_iff.mp run
  have begins : Round s u := by
    cases step_cases step
    exact .begin
  have leads : machine.LeadsWhere (fun _ l => l ≠ .handleRead) u t :=
    Machine.leadsWhere_of_run ls ((Machine.meets_label_iff run).mpr one) run
  have both := leads.invariant (I := fun u => Round s u ∧ Inv u) ⟨begins, step_inv inv step⟩
    fun u l v ⟨round, inv'⟩ goes_on step =>
      ⟨round.step inv.owns inv' goes_on step, step_inv inv' step⟩
  exact both.1

/-- `cancelingTimers_` grows by the timers that are cancelled before `reset`. -/
theorem canceling_step (inv : Inv u) (step : machine.step u l = some v)
    (goes_on : l ≠ .handleRead) :
    ∀ timerId, timerId ∈ canceling v ↔ timerId ∈ canceling u ∨
      u.callingExpiredTimers = true ∧ l.cancelled = some timerId := by
  intro timerId
  rw [mem_canceling, mem_canceling]
  cases step_cases step with
  | cancelActive _ active _ _ => exact absurd active (inv.inactive _)
  | @cancelInBatch id _ _ calls =>
      have same : timerId.active = id.active ↔ id = timerId := by
        cases timerId
        cases id
        simp [TimerId.active, eq_comm]
      rw [OrderedSet.mem_insert, or_comm, same, calls]
      simp [Label.cancelled]
  | cancelNothing _ _ calls => simp [calls]
  | handleRead => exact absurd rfl goes_on
  | _ => simp [Label.cancelled, resetTimerfd]

/-- Only `handleRead` and `reset` change `callingExpiredTimers_`. -/
theorem calling_step (step : machine.step u l = some v) (goes_on : l ≠ .handleRead) :
    v.callingExpiredTimers = (u.callingExpiredTimers && decide (l ≠ .reset)) := by
  cases step_cases step with
  | handleRead => exact absurd rfl goes_on
  | reset => simp
  | _ => simp [resetTimerfd]

theorem canceling_run {ls : List Label} (inv : Inv u) (run : machine.run u ls = some t)
    (one : ∀ l ∈ ls, l ≠ .handleRead) (timerId : TimerId) :
    timerId ∈ canceling t ↔ timerId ∈ canceling u ∨
      u.callingExpiredTimers = true ∧ timerId ∈ cancelledIn ls := by
  induction ls generalizing u with
  | nil =>
      cases run
      simp [cancelledIn]
  | cons l ls ih =>
      obtain ⟨first, one⟩ := List.forall_mem_cons.mp one
      obtain ⟨v, step, run⟩ := Option.bind_eq_some_iff.mp run
      rw [ih (step_inv inv step) run one, canceling_step inv step first, calling_step step first]
      by_cases last : l = .reset
      · subst last
        simp [cancelledIn, Label.cancelled]
      · have cons : cancelledIn (l :: ls) = l.cancelled.toList ++ cancelledIn ls := by
          cases cancelled : l.cancelled <;> simp [cancelledIn, last, cancelled]
        rw [cons]
        cases u.callingExpiredTimers <;> simp [last, or_assoc, eq_comm]

/-- The assertion of `getExpired` holds, so all that are due have been taken. -/
theorem mem_due_iff (step : machine.step s .handleRead = some u) (e : Entry) :
    e ∈ due s ↔ e ∈ s.timers ∧ e.expiration ≤ s.clock := by
  cases step_cases step with
  | handleRead _ later _ =>
      rw [due, OrderedSet.mem_below]
      refine and_congr_right fun mem => ⟨due_of_lt_sentry, fun expired => not_le.mp fun late => ?_⟩
      have left_over := OrderedSet.mem_notBelow.mpr ⟨mem, late⟩
      obtain ⟨first, least, le⟩ := OrderedSet.exists_first? left_over
      have := later first least
      have := expiration_le_of_le le
      omega

/-- **A round runs what was due when it began.** -/
theorem round_runs_due {ls : List Label} (reach : machine.Reachable s)
    (run : machine.run s (.handleRead :: ls) = some t) (one : ∀ l ∈ ls, l ≠ .handleRead)
    (back : t.phase = .idle) :
    (∀ e, e ∈ due s ↔ e ∈ s.timers ∧ e.expiration ≤ s.clock) ∧ (due s).Pairwise (· < ·) ∧
      t.invocations = s.invocations ++ (due s).filterMap (invocation s) ∧
      ∀ e ∈ due s, Handled s t (cancelledIn ls) e := by
  have round := round_of_run reach run one
  obtain ⟨u, step, rest⟩ := Option.bind_eq_some_iff.mp run
  refine ⟨mem_due_iff step, s.timers.below_sorted _, ?_, fun e mem => ?_⟩
  · have progress := round.progress
    rw [back] at progress
    exact progress
  · have past : e ∉ remaining t.phase := by
      rw [back]
      exact List.not_mem_nil
    have begun : u.callingExpiredTimers = true ∧ canceling u = [] := by
      cases step_cases step
      exact ⟨rfl, rfl⟩
    refine (round.handled e mem past).mono (fun timerId => ?_) (fun _ => id) (fun _ _ => id)
      (fun _ => id)
    rw [canceling_run (step_inv (reachable_inv reach) step) rest one, begun.1, begun.2]
    simp

/-- The first callback adds a timer that has expired already and cancels the second timer, which
repeats: that one runs and is deleted, and the new one is left for another round. -/
theorem round_runs_due_cancelled : ∃ s t : State, ∃ ls, t.phase = .idle ∧
    cancelledIn ls = [⟨32, 2⟩] ∧ (due s).map Entry.timer = [16, 32] ∧
    t.timers.toList.map Entry.timer = [48] ∧
    t.invocations = s.invocations ++ (due s).filterMap (invocation s) ∧
    ∀ e ∈ due s, Handled s t (cancelledIn ls) e := by
  let filed : List Label :=
    [.newTimer 16 5 oneShot, .newTimer 32 7 ⟨true, 20, fun _ => by decide⟩, .addTimerInLoop 16,
      .addTimerInLoop 32, .tick 9]
  let round : List Label :=
    [.run, .newTimer 48 (-3) oneShot, .addTimerInLoop 48, .cancelInLoop ⟨32, 2⟩, .run, .reset,
      .resetNext, .resetNext, .rearm]
  have reach := Machine.reachable_of_run (M := machine) filed ⟨1, by decide, rfl⟩ rfl
  obtain ⟨-, -, invoked, handled⟩ := @round_runs_due _ _ round reach rfl (by decide) rfl
  exact ⟨_, _, round, rfl, rfl, rfl, rfl, invoked, handled⟩

/-! ### Every timer is run -/

/-- A statement of `handleRead` after its first one. -/
def Label.own : Label → Bool
  | .run | .reset | .resetNext | .rearm => true
  | _ => false

/-- The statements left of the round, when nothing else happens. -/
def left : Phase → Nat
  | .idle => 0
  | .calling _ called uncalled => called.length + 2 * uncalled.length + 2
  | .resetting _ expired => expired.length + 1

theorem rearm_ok (timers : ∀ e ∈ s.timers, ∃ timer, s.heap e.timer = some timer) :
    ∃ t, rearm s = .ok t ∧ t.phase = .idle := by
  unfold rearm
  dsimp only
  split
  · exact ⟨_, rfl, rfl⟩
  · rename_i first least
    obtain ⟨timer, held⟩ := timers first (OrderedSet.first?_mem least)
    simp only [deref_eq_ok_iff.mpr held, bind, Except.bind]
    split
    · exact ⟨_, rfl, rfl⟩
    · exact ⟨_, rfl, rfl⟩

theorem resetNext_ok {now : Int} {e : Entry} {timer : Timer} (expired : List Entry)
    (held : s.heap e.timer = some timer) (new : entry (timer.restart now) e.timer ∉ s.timers) :
    ∃ t, resetNext s now e expired = .ok t ∧ t.phase = .resetting now expired := by
  simp only [resetNext, deref_eq_ok_iff.mpr held, bind, Except.bind]
  split
  · simp [insert, deref, new, bind, Except.bind]
  · simp [delete, deref, held, bind, Except.bind]

/-- Neither an assertion nor a deleted timer stops the round. -/
theorem step_own (inv : Inv s) (busy : s.phase ≠ .idle) :
    ∃ l t, l.own = true ∧ machine.step s l = some t ∧ left t.phase < left s.phase := by
  have timers : ∀ e ∈ s.timers, ∃ timer, s.heap e.timer = some timer := fun e mem =>
    Option.ne_none_iff_exists'.mp (inv.owns.live_entry (List.mem_append_left _ mem))
  have batch : ∀ e ∈ remaining s.phase, ∃ timer, s.heap e.timer = some timer := fun e mem =>
    Option.ne_none_iff_exists'.mp (inv.owns.live_entry (List.mem_append_right _ mem))
  cases phase : s.phase with
  | idle => exact absurd phase busy
  | calling now called uncalled =>
      rw [phase] at batch
      cases uncalled with
      | nil =>
          have moved : step s .reset = .ok { s with
              callingExpiredTimers := false, phase := .resetting now called } := by
            simp [step, phase]
          exact ⟨.reset, _, rfl, machine_step_eq_some_iff.mpr moved, by simp [left]⟩
      | cons e uncalled =>
          obtain ⟨timer, held⟩ := batch e (by simp [remaining])
          have moved : step s .run = .ok { s with
              invocations := s.invocations ++ [{ timer, now, batch := s.batch }]
              phase := .calling now (called ++ [e]) uncalled } := by
            simp [step, phase, run, deref, held, bind, Except.bind]
          refine ⟨.run, _, rfl, machine_step_eq_some_iff.mpr moved, ?_⟩
          simp only [left, List.length_append, List.length_cons, List.length_nil]
          omega
  | resetting now expired =>
      rw [phase] at batch
      cases expired with
      | nil =>
          obtain ⟨t, moved, idle⟩ := rearm_ok timers
          refine ⟨.rearm, t, rfl, machine_step_eq_some_iff.mpr ?_, by simp [left, idle]⟩
          simp [step, phase, moved]
      | cons e expired =>
          obtain ⟨timer, held⟩ := batch e List.mem_cons_self
          have new : entry (timer.restart now) e.timer ∉ s.timers :=
            fun mem => inv.owns.not_mem_of_next phase mem rfl
          obtain ⟨t, moved, rest⟩ := resetNext_ok expired held new
          refine ⟨.resetNext, t, rfl, machine_step_eq_some_iff.mpr ?_, by simp [left, rest]⟩
          simp [step, phase, moved]

/-- A round comes to its end. -/
theorem round_ends (reach : machine.Reachable s) :
    ∃ ls t, machine.run s ls = some t ∧ t.phase = .idle ∧ ∀ l ∈ ls, l.own = true := by
  induction steps : left s.phase using Nat.strong_induction_on generalizing s with
  | _ n ih =>
      by_cases idle : s.phase = .idle
      · exact ⟨[], s, rfl, idle, fun _ none => absurd none List.not_mem_nil⟩
      · obtain ⟨l, u, own, step, less⟩ := step_own (reachable_inv reach) idle
        obtain ⟨ls, t, run, back, owns⟩ := ih _ (steps ▸ less) (reach.tail step) rfl
        refine ⟨l :: ls, t, ?_, back, List.forall_mem_cons.mpr ⟨own, owns⟩⟩
        rw [Machine.run_cons, step, Option.bind_some, run]

/-- The clock moves on, and the timerfd expires if it is armed. -/
def waking (s : State) (delay : Nat) : List Label :=
  match s.timerfd with
  | .armed _ => [.tick delay, .expire]
  | _ => [.tick delay]

/-- What the loop finds when it wakes up. -/
structure Woken (s u : State) (delay : Nat) : Prop where
  clock : u.clock = s.clock + delay
  timerfd : ∃ deadline, u.timerfd = .expired deadline
  phase : u.phase = s.phase
  heap : u.heap = s.heap
  timers : u.timers = s.timers
  batch : u.batch = s.batch

/-- A timerfd that covers an expiration expires with it, or 100 microseconds after it was set. -/
theorem Covered.wakes {expiration : Int} {delay : Nat} (covered : Covered s expiration)
    (expired : expiration ≤ s.clock + delay)
    (set_before : ∀ last ∈ s.settimes.getLast?, last.time + 100 ≤ s.clock + delay) :
    ∃ u, machine.run s (waking s delay) = some u ∧ Woken s u delay := by
  obtain ⟨deadline, armed, last, set, bound⟩ := covered
  have := set_before last set
  have due : deadline ≤ s.clock + delay := by omega
  unfold waking
  cases timerfd : s.timerfd with
  | disarmed =>
      rw [timerfd] at armed
      cases armed
  | expired d =>
      exact ⟨{ s with clock := s.clock + delay }, rfl, rfl, ⟨d, timerfd⟩, rfl, rfl, rfl, rfl⟩
  | armed d =>
      rw [timerfd] at armed
      obtain rfl : d = deadline := Option.some.inj armed
      let ticked : State := { s with clock := s.clock + delay }
      have expires : machine.step ticked .expire =
          some { ticked with timerfd := .expired d } := by
        refine machine_step_eq_some_iff.mpr ?_
        simp [step, ticked, timerfd, due]
      refine ⟨{ ticked with timerfd := .expired d }, ?_, rfl, ⟨d, rfl⟩, rfl, rfl, rfl, rfl⟩
      change (machine.step ticked .expire).bind _ = _
      rw [expires]
      rfl

/-- `handleRead` begins unless its assertion fails, at a timer that expires now. -/
theorem handleRead_begins (inv : Inv s) (idle : s.phase = .idle)
    (near : ∀ e ∈ s.timers, e.expiration = s.clock → e.timer < uint32Max) :
    ∃ t, machine.step s .handleRead = some t := by
  have alive : ∀ e ∈ s.timers, s.heap e.timer ≠ none :=
    fun e mem => inv.owns.live_entry (List.mem_append_left _ mem)
  have later : ∀ first ∈ (s.timers.notBelow (toLex (s.clock, uint32Max))).first?,
      s.clock < first.expiration := by
    intro first least
    obtain ⟨mem, late⟩ := OrderedSet.mem_notBelow.mp (OrderedSet.first?_mem least)
    refine not_le.mp fun expired => not_lt.mpr late (lt_sentry_iff.mpr ?_)
    exact expired.lt_or_eq.imp_right fun same => ⟨same, near first mem same⟩
  obtain ⟨activeTimers, got⟩ := @getExpired_ok { s with timerfd := readTimerfd s.timerfd } s.clock
    alive later
  obtain ⟨t, begun⟩ : ∃ t, handleRead s = .ok t := ⟨_, bind_eq_ok_iff.mpr ⟨_, got, rfl⟩⟩
  exact ⟨t, machine_step_eq_some_iff.mpr (ite_eq_ok_iff.mpr ⟨idle, begun⟩)⟩

/-- **Every timer that has been filed is run**, unless a timer with an address of more than 32 bits
expires at the very microsecond in which the loop wakes up. -/
theorem timer_runs_in_time (reach : machine.Reachable s) (idle : s.phase = .idle) {e : Entry}
    (filed : e ∈ s.timers) (delay : Nat) (expired : e.expiration ≤ s.clock + delay)
    (set_before : ∀ last ∈ s.settimes.getLast?, last.time + 100 ≤ s.clock + delay)
    (near : ∀ f ∈ s.timers, f.expiration = s.clock + delay → f.timer < uint32Max) :
    ∃ u ls t timer, machine.run s (waking s delay) = some u ∧ Woken s u delay ∧
      machine.run u (.handleRead :: ls) = some t ∧ (∀ l ∈ ls, l.own = true) ∧ t.phase = .idle ∧
      s.heap e.timer = some timer ∧ ⟨timer, s.clock + delay, s.batch + 1⟩ ∈ t.invocations := by
  obtain ⟨first, least, le⟩ := OrderedSet.exists_first? filed
  have covered := (reachable_watched reach).covered first least (.inl idle)
  obtain ⟨u, wakes, woken⟩ :=
    (covered.mono (expiration_le_of_le le)).wakes expired set_before
  have reach_u : machine.Reachable u := reach.trans (Machine.leads_of_run _ wakes)
  have near_u : ∀ f ∈ u.timers, f.expiration = u.clock → f.timer < uint32Max := by
    rwa [woken.timers, woken.clock]
  obtain ⟨v, begins⟩ := handleRead_begins (reachable_inv reach_u) (woken.phase.trans idle) near_u
  obtain ⟨ls, t, run, back, own⟩ := round_ends (reach_u.tail begins)
  have round : machine.run u (.handleRead :: ls) = some t := by
    rw [Machine.run_cons, begins, Option.bind_some, run]
  have goes_on : ∀ l ∈ ls, l ≠ .handleRead := fun l mem same => by
    have := own l mem
    rw [same] at this
    cases this
  obtain ⟨timer, held⟩ := Option.ne_none_iff_exists'.mp
    ((reachable_inv reach).owns.live_entry (List.mem_append_left _ filed))
  have progress := (round_of_run reach_u round goes_on).progress
  rw [back] at progress
  have due_now : e ∈ due u := by
    rw [mem_due_iff begins, woken.timers, woken.clock]
    exact ⟨filed, expired⟩
  refine ⟨u, ls, t, timer, wakes, woken, round, own, back, held, ?_⟩
  rw [progress, List.mem_append, List.mem_filterMap]
  exact .inr ⟨e, due_now, by rw [invocation, woken.heap, held, woken.clock, woken.batch]; rfl⟩

theorem timer_runs_in_time_oneShot : ∃ t : State, t.phase = .idle ∧
    (⟨⟨5, oneShot, 1⟩, 201, 1⟩ : Invocation) ∈ t.invocations := by
  let filing : List Label := [.newTimer 16 5 oneShot, .addTimerInLoop 16]
  have reach := Machine.reachable_of_run (M := machine) filing ⟨1, by decide, rfl⟩ rfl
  obtain ⟨u, ls, t, timer, -, -, -, -, back, held, ran⟩ :=
    @timer_runs_in_time _ reach rfl (toLex (5, 16)) (by decide) 200 (by decide) (by decide)
      (by decide)
  obtain rfl : ⟨5, oneShot, 1⟩ = timer := Option.some.inj held
  exact ⟨t, back, ran⟩

end Dbdky.Port.TimerQueue
