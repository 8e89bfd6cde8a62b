import Mathlib.Data.List.Pairwise
import Dbdky.Port.TimerOwnership

/-!
The life of a timer: when its callback runs, when it is deleted.

* **Schedule (`Scheduled`)** relates the callbacks that have run to the expirations that
  stand in the heap: a timer that waits can fire only when it is due again.
* **No use after deletion (`step_ne_fault`).** Every pointer a step follows is the pointer
  of an entry or of a timer that waits to be added, and those are live.
* **`lifecycle`** puts ownership, sequence numbers and schedule together for every
  reachable state.
-/

namespace Dbdky.Port.TimerQueue

open Transition

/-! ### The schedule -/

/-- The `now` of the batch. -/
def batchNow : Phase → Option Int
  | .idle => none
  | .calling now _ _ => some now
  | .resetting now _ => some now

/-- The entries of the batch whose callback has run and that are not re-armed yet. -/
def fired : Phase → List Entry
  | .idle => []
  | .calling _ called _ => called
  | .resetting _ expired => expired

/-- A timer that fires again is periodic, and its interval has passed. -/
def Spaced (i j : Invocation) : Prop :=
  i.timer.sequence = j.timer.sequence → i.timer.interval = j.timer.interval ∧
    i.timer.repeats = true ∧ i.now + i.timer.interval.microseconds ≤ j.now

/-- What the callbacks that have run say about the timers that are live. -/
structure Scheduled (numCreated : Nat) (heap : Addr → Option Timer) (phase : Phase)
    (invocations : List Invocation) : Prop where
  due : ∀ i ∈ invocations, i.timer.expiration ≤ i.now
  spaced : invocations.Pairwise Spaced
  older : ∀ i ∈ invocations, i.timer.sequence ≤ numCreated
  interval : ∀ a timer, heap a = some timer → ∀ i ∈ invocations,
    i.timer.sequence = timer.sequence → i.timer.interval = timer.interval
  /-- A timer that is not in the batch, or not called yet, can fire only when it is due again. -/
  waiting : ∀ a timer, heap a = some timer → a ∉ (fired phase).map Entry.timer →
    ∀ i ∈ invocations, i.timer.sequence = timer.sequence →
      timer.repeats = true ∧ i.now + timer.interval.microseconds ≤ timer.expiration
  called : ∀ e ∈ fired phase, ∀ timer, heap e.timer = some timer →
    ∃ i ∈ invocations, i.timer.sequence = timer.sequence
  past : ∀ now ∈ batchNow phase, ∀ e ∈ fired phase, ∀ timer, heap e.timer = some timer →
    ∀ i ∈ invocations, i.timer.sequence = timer.sequence → i.now ≤ now
  batch : ∀ now ∈ batchNow phase, ∀ e ∈ remaining phase, e.expiration ≤ now

section Scheduled

variable {numCreated : Nat} {heap : Addr → Option Timer} {phase : Phase}
  {invocations : List Invocation} {a : Addr} {timer : Timer} {now : Int} {e : Entry}
  {called uncalled expired : List Entry} {number : Nat}

/-- `handleRead` starts and ends a batch when none of it has been called or is to be re-armed. -/
theorem Scheduled.unfired (scheduled : Scheduled numCreated heap phase invocations)
    (before : fired phase = []) {phase' : Phase} (after : fired phase' = [])
    (batch : ∀ now ∈ batchNow phase', ∀ e ∈ remaining phase', e.expiration ≤ now) :
    Scheduled numCreated heap phase' invocations := by
  refine ⟨scheduled.due, scheduled.spaced, scheduled.older, scheduled.interval,
    fun a timer held _ => scheduled.waiting a timer held (by simp [before]), ?_, ?_, batch⟩ <;>
  simp [after]

theorem Scheduled.allocate (scheduled : Scheduled numCreated heap phase invocations)
    (new : timer.sequence = numCreated + 1)
    (unfired : ∀ e ∈ fired phase, e.timer ≠ a) :
    Scheduled (numCreated + 1) (Function.update heap a (some timer)) phase invocations := by
  have never : ∀ i ∈ invocations, i.timer.sequence ≠ timer.sequence := by
    intro i mem
    have := scheduled.older i mem
    omega
  have old : ∀ e ∈ fired phase, ∀ {other},
      Function.update heap a (some timer) e.timer = some other → heap e.timer = some other := by
    intro e mem other held
    rwa [Function.update_of_ne (unfired e mem)] at held
  refine ⟨scheduled.due, scheduled.spaced, fun i mem => Nat.le_succ_of_le (scheduled.older i mem),
    fun b other held i mem same => ?_, fun b other held out i mem same => ?_,
    fun e mem other held => scheduled.called e mem other (old e mem held),
    fun now batch e mem other held => scheduled.past now batch e mem other (old e mem held),
    scheduled.batch⟩
  all_goals rcases update_some_eq_some_iff.mp held with ⟨-, rfl⟩ | ⟨-, held⟩
  · exact absurd same (never i mem)
  · exact scheduled.interval b other held i mem same
  · exact absurd same (never i mem)
  · exact scheduled.waiting b other held out i mem same

/-- **One callback.** The timer was waiting, so it fires on schedule. -/
theorem Scheduled.run {deleted : List TimerId}
    (scheduled : Scheduled numCreated heap (.calling now called (e :: uncalled)) invocations)
    (numbered : Numbered numCreated heap deleted) (held : heap e.timer = some timer)
    (expiration : timer.expiration = e.expiration)
    (uncalledYet : e.timer ∉ called.map Entry.timer) :
    Scheduled numCreated heap (.calling now (called ++ [e]) uncalled)
      (invocations ++ [{ timer, now, batch := number }]) := by
  have due : timer.expiration ≤ now := by
    rw [expiration]
    exact scheduled.batch now rfl e (by simp [remaining])
  have self : ∀ {b other}, heap b = some other → timer.sequence = other.sequence →
      b = e.timer ∧ other = timer := by
    intro b other held' same
    obtain rfl : b = e.timer := numbered.distinct b e.timer other timer held' held same.symm
    exact ⟨rfl, Option.some.inj (held'.symm.trans held)⟩
  have waited := scheduled.waiting e.timer timer held uncalledYet
  have before : ∀ i ∈ invocations, i.timer.sequence = timer.sequence → i.now ≤ now := by
    intro i mem same
    obtain ⟨periodic, enough⟩ := waited i mem same
    have := timer.interval.nonneg periodic
    omega
  constructor
  · intro i mem
    rcases List.mem_append.mp mem with mem | mem
    · exact scheduled.due i mem
    · obtain rfl := List.mem_singleton.mp mem
      exact due
  · rw [List.pairwise_append]
    refine ⟨scheduled.spaced, List.pairwise_singleton _ _, fun i mem j last same => ?_⟩
    obtain rfl := List.mem_singleton.mp last
    obtain ⟨periodic, enough⟩ := waited i mem same
    have interval := scheduled.interval e.timer timer held i mem same
    simp only [Timer.repeats, interval] at periodic ⊢
    exact ⟨trivial, periodic, le_trans enough due⟩
  · intro i mem
    rcases List.mem_append.mp mem with mem | mem
    · exact scheduled.older i mem
    · obtain rfl := List.mem_singleton.mp mem
      exact (numbered.bound e.timer timer held).2
  · intro b other held' i mem same
    rcases List.mem_append.mp mem with mem | mem
    · exact scheduled.interval b other held' i mem same
    · obtain rfl := List.mem_singleton.mp mem
      rw [(self held' same).2]
  · intro b other held' out i mem same
    simp only [fired, List.map_append, List.map_cons, List.map_nil, List.mem_append,
      List.mem_singleton, not_or] at out
    rcases List.mem_append.mp mem with mem | mem
    · exact scheduled.waiting b other held' out.1 i mem same
    · obtain rfl := List.mem_singleton.mp mem
      exact absurd (self held' same).1 out.2
  · intro f mem other held'
    rcases List.mem_append.mp mem with mem | mem
    · obtain ⟨i, mem, same⟩ := scheduled.called f mem other held'
      exact ⟨i, List.mem_append_left _ mem, same⟩
    · obtain rfl := List.mem_singleton.mp mem
      obtain rfl := Option.some.inj (held'.symm.trans held)
      exact ⟨_, List.mem_append_right _ (List.mem_singleton_self _), rfl⟩
  · rintro _ ⟨⟩ f mem other held' i memI same
    rcases List.mem_append.mp memI with old | last
    · rcases List.mem_append.mp mem with mem | mem
      · exact scheduled.past now rfl f mem other held' i old same
      · obtain rfl := List.mem_singleton.mp mem
        obtain rfl := Option.some.inj (held'.symm.trans held)
        exact before i old same
    · obtain rfl := List.mem_singleton.mp last
      exact le_refl _
  · rintro _ ⟨⟩ f mem
    exact scheduled.batch now rfl f (by simpa [remaining] using mem)

/-- A periodic timer is due again one interval after the `now` of its batch. -/
theorem Scheduled.restart
    (scheduled : Scheduled numCreated heap (.resetting now (e :: expired)) invocations)
    (held : heap e.timer = some timer) (periodic : timer.repeats = true)
    (unique : e.timer ∉ expired.map Entry.timer) :
    Scheduled numCreated (Function.update heap e.timer (some (timer.restart now)))
      (.resetting now expired) invocations := by
  have restarted : timer.restart now = { timer with expiration := addTime now timer.interval } :=
    if_pos periodic
  have old : ∀ f ∈ expired, ∀ {other},
      Function.update heap e.timer (some (timer.restart now)) f.timer = some other →
      heap f.timer = some other := by
    intro f mem other held'
    rwa [Function.update_of_ne] at held'
    intro same
    exact unique (same ▸ List.mem_map_of_mem mem)
  refine ⟨scheduled.due, scheduled.spaced, scheduled.older, fun b other held' i mem same => ?_,
    fun b other held' out i mem same => ?_,
    fun f mem other held' =>
      scheduled.called f (List.mem_cons_of_mem _ mem) other (old f mem held'),
    fun now batch f mem other held' =>
      scheduled.past now batch f (List.mem_cons_of_mem _ mem) other (old f mem held'),
    fun now batch f mem => scheduled.batch now batch f (List.mem_cons_of_mem _ mem)⟩
  all_goals rcases update_some_eq_some_iff.mp held' with ⟨rfl, rfl⟩ | ⟨elsewhere, held'⟩
  · rw [restarted] at same ⊢
    exact scheduled.interval e.timer timer held i mem same
  · exact scheduled.interval b other held' i mem same
  · rw [restarted] at same ⊢
    have past := scheduled.past now rfl e (List.mem_cons_self) timer held i mem same
    exact ⟨periodic, Int.add_le_add_right past _⟩
  · refine scheduled.waiting b other held' ?_ i mem same
    simp only [fired, List.map_cons, List.mem_cons, not_or]
    exact ⟨elsewhere, out⟩

theorem Scheduled.delete
    (scheduled : Scheduled numCreated heap (.resetting now (e :: expired)) invocations) :
    Scheduled numCreated (Function.update heap e.timer none) (.resetting now expired)
      invocations := by
  refine ⟨scheduled.due, scheduled.spaced, scheduled.older, fun b other held' => ?_,
    fun b other held' out => ?_, fun f mem other held' => ?_, fun now batch f mem other held' => ?_,
    fun now batch f mem => scheduled.batch now batch f (List.mem_cons_of_mem _ mem)⟩
  all_goals obtain ⟨elsewhere, held'⟩ := update_none_eq_some_iff.mp held'
  · exact scheduled.interval b other held'
  · apply scheduled.waiting b other held'
    simp only [fired, List.map_cons, List.mem_cons, not_or]
    exact ⟨elsewhere, out⟩
  · exact scheduled.called f (List.mem_cons_of_mem _ mem) other held'
  · exact scheduled.past now batch f (List.mem_cons_of_mem _ mem) other held'

end Scheduled

theorem step_scheduled {s t : State} {l : Label}
    (scheduled : Scheduled s.numCreated s.heap s.phase s.invocations)
    (owns : Owns s.heap s.toAdd (stored s)) (inactive : Inactive s)
    (numbered : Numbered s.numCreated s.heap s.deleted) (step : machine.step s l = some t) :
    Scheduled t.numCreated t.heap t.phase t.invocations := by
  cases step_cases step with
  | tick | addEarliest | addLater | cancelInBatch | cancelNothing | expire => exact scheduled
  | @newTimer timer when interval _ _ free =>
      refine scheduled.allocate rfl fun e mem same => ?_
      have entered : e ∈ stored s := by
        apply List.mem_append_right _
        cases phase : s.phase <;> simp_all [fired, remaining]
      obtain ⟨object, held, -⟩ := owns.entries e entered
      simp [same, free] at held
  | cancelActive _ active _ _ => exact absurd active (inactive _)
  | handleRead phase _ _ =>
      rw [phase] at scheduled
      apply scheduled.unfired rfl rfl
      rintro _ ⟨⟩ e mem
      have below := OrderedSet.lt_of_mem_below (by simpa [remaining] using mem)
      rcases Prod.Lex.lt_iff.mp below with less | ⟨same, -⟩
      · exact le_of_lt less
      · exact le_of_eq same
  | @run now called e uncalled timer phase held =>
      rw [phase] at scheduled
      obtain ⟨object, held', same⟩ := owns.entries e (by simp [stored, phase, remaining])
      obtain rfl : timer = object := Option.some.inj (held.symm.trans held')
      have nodup := owns.batch_nodup
      simp only [phase, remaining, List.map_append, List.map_cons, List.nodup_append] at nodup
      refine scheduled.run numbered held (congrArg Entry.expiration same) fun mem => ?_
      exact nodup.2.2 _ mem _ List.mem_cons_self rfl
  | reset phase =>
      rw [phase] at scheduled
      exact ⟨scheduled.due, scheduled.spaced, scheduled.older, scheduled.interval,
        scheduled.waiting, scheduled.called, scheduled.past,
        fun now batch e mem => scheduled.batch now batch e (List.mem_append_left _ mem)⟩
  | restart phase held periodic _ _ =>
      have nodup := owns.batch_nodup
      simp only [phase, remaining, List.map_cons, List.nodup_cons] at nodup
      rw [phase] at scheduled
      exact scheduled.restart held periodic nodup.1
  | delete phase _ _ =>
      rw [phase] at scheduled
      exact scheduled.delete
  | rearmNothing phase _ | rearm phase _ _ _ =>
      rw [phase] at scheduled
      exact scheduled.unfired rfl rfl fun _ started => by cases started

/-! ### All together -/

/-- Who ends the life of a timer: `cancelingTimers_` holds ids that have been cancelled, and
a deleted timer has been cancelled or has fired as a one-shot. -/
structure Ended (s : State) : Prop where
  canceling : ∀ x ∈ s.cancelingTimers, ∃ id ∈ s.cancels, id.active = x
  deleted : ∀ id ∈ s.deleted, id ∈ s.cancels ∨
    ∃ i ∈ s.invocations, i.timer.sequence = id.sequence ∧ i.timer.repeats = false

structure Inv (s : State) : Prop where
  owns : Owns s.heap s.toAdd (stored s)
  inactive : Inactive s
  numbered : Numbered s.numCreated s.heap s.deleted
  scheduled : Scheduled s.numCreated s.heap s.phase s.invocations
  ended : Ended s

theorem step_ended {s t : State} {l : Label} (ended : Ended s) (inactive : Inactive s)
    (scheduled : Scheduled s.numCreated s.heap s.phase s.invocations)
    (step : machine.step s l = some t) : Ended t := by
  obtain ⟨canceling, deleted⟩ := ended
  -- `cancels` and `invocations` only grow
  have later : ∀ {id : TimerId} (timerId : TimerId),
      (id ∈ s.cancels ∨ ∃ i ∈ s.invocations, i.timer.sequence = id.sequence ∧
        i.timer.repeats = false) →
      id ∈ s.cancels ++ [timerId] ∨ ∃ i ∈ s.invocations, i.timer.sequence = id.sequence ∧
        i.timer.repeats = false :=
    fun _ => Or.imp_left (List.mem_append_left _)
  cases step_cases step with
  | cancelActive _ active _ _ => exact absurd active (inactive _)
  | @cancelInBatch timerId _ _ _ =>
      refine ⟨fun x mem => ?_, fun id mem => later timerId (deleted id mem)⟩
      rcases OrderedSet.mem_insert.mp mem with rfl | mem
      · exact ⟨timerId, List.mem_append_right _ (List.mem_singleton_self _), rfl⟩
      · obtain ⟨id, mem, same⟩ := canceling x mem
        exact ⟨id, List.mem_append_left _ mem, same⟩
  | @cancelNothing timerId _ _ _ =>
      refine ⟨fun x mem => ?_, fun id mem => later timerId (deleted id mem)⟩
      obtain ⟨id, mem, same⟩ := canceling x mem
      exact ⟨id, List.mem_append_left _ mem, same⟩
  | handleRead _ _ _ => exact ⟨fun x mem => absurd mem (OrderedSet.not_mem_empty x), deleted⟩
  | run _ _ =>
      refine ⟨canceling, fun id mem => (deleted id mem).imp_right ?_⟩
      rintro ⟨i, mem, same⟩
      exact ⟨i, List.mem_append_left _ mem, same⟩
  | @delete now e expired timer phase held why =>
      refine ⟨canceling, fun id mem => ?_⟩
      rcases List.mem_append.mp mem with mem | mem
      · exact deleted id mem
      · obtain rfl := List.mem_singleton.mp mem
        rcases why with oneShot | cancelled
        · obtain ⟨i, mem, same⟩ := scheduled.called e (by simp [phase, fired]) timer held
          have interval := scheduled.interval e.timer timer held i mem same
          refine .inr ⟨i, mem, same, ?_⟩
          rwa [Timer.repeats, interval]
        · obtain ⟨id, mem, same⟩ := canceling _ cancelled
          obtain ⟨addr, sequence⟩ := id
          cases same
          exact .inl mem
  | _ => exact ⟨canceling, deleted⟩

theorem init_inv {s : State} (initial : machine.init s) : Inv s := by
  obtain ⟨clock, -, rfl⟩ := initial
  refine ⟨⟨.nil, by simp [State.new, stored, remaining], nofun⟩, OrderedSet.not_mem_empty,
    ⟨nofun, nofun, nofun, .nil, fun n positive le => ?_⟩,
    ⟨nofun, .nil, nofun, nofun, nofun, nofun, nofun, nofun⟩,
    ⟨fun x mem => absurd mem (OrderedSet.not_mem_empty x), nofun⟩⟩
  change n ≤ 0 at le
  omega

theorem step_inv {s t : State} {l : Label} (inv : Inv s) (step : machine.step s l = some t) :
    Inv t :=
  ⟨step_owns inv.owns inv.inactive step, step_inactive inv.inactive step,
    step_numbered inv.numbered inv.inactive step,
    step_scheduled inv.scheduled inv.owns inv.inactive inv.numbered step,
    step_ended inv.ended inv.inactive inv.scheduled step⟩

theorem reachable_inv {s : State} (reach : machine.Reachable s) : Inv s :=
  reach.invariant (fun _ => init_inv) fun _ _ _ inv step => step_inv inv step

/-! ### No use after deletion -/

theorem bind_eq_fault_iff {α β : Type} {x : Except Stop α} {f : α → Except Stop β} :
    (x >>= f) = .error .fault ↔ x = .error .fault ∨ ∃ a, x = .ok a ∧ f a = .error .fault := by
  cases x <;> simp [bind, Except.bind]

theorem ite_disabled_eq_fault_iff {α : Type} {p : Prop} [Decidable p] {x : Except Stop α} :
    (if p then x else .error .disabled) = .error .fault ↔ p ∧ x = .error .fault := by
  by_cases h : p <;> simp [h]

theorem ite_abort_eq_fault_iff {α : Type} {p : Prop} [Decidable p] {x : Except Stop α} :
    (if p then x else .error .abort) = .error .fault ↔ p ∧ x = .error .fault := by
  by_cases h : p <;> simp [h]

theorem deref_eq_fault_iff {heap : Addr → Option Timer} {a : Addr} :
    deref heap a = .error .fault ↔ heap a = none := by
  unfold deref
  cases heap a <;> simp

theorem insert_eq_fault_iff {s : State} {a : Addr} :
    insert s a = .error .fault ↔ s.heap a = none := by
  simp only [insert, bind_eq_fault_iff, ite_abort_eq_fault_iff, deref_eq_fault_iff]
  simp

theorem delete_eq_fault_iff {s : State} {a : Addr} :
    delete s a = .error .fault ↔ s.heap a = none := by
  simp [delete, bind_eq_fault_iff, deref_eq_fault_iff]

theorem eraseActive_ne_fault {heap : Addr → Option Timer} {activeTimers : OrderedSet ActiveTimer}
    {expired : List Entry} (live : ∀ e ∈ expired, heap e.timer ≠ none) :
    eraseActive heap activeTimers expired ≠ .error .fault := by
  induction expired generalizing activeTimers with
  | nil => nofun
  | cons e expired ih =>
      intro fault
      rcases bind_eq_fault_iff.mp fault with here | ⟨object, -, later⟩
      · exact live e List.mem_cons_self (deref_eq_fault_iff.mp here)
      · exact ih (fun f mem => live f (List.mem_cons_of_mem _ mem)) later

theorem Owns.live_entry {heap : Addr → Option Timer} {toAdd : List Addr} {stored : List Entry}
    {e : Entry} (owns : Owns heap toAdd stored) (mem : e ∈ stored) : heap e.timer ≠ none := by
  obtain ⟨timer, held, -⟩ := owns.entries e mem
  simp [held]

theorem step_ne_fault {s : State} (inv : Inv s) (l : Label) : step s l ≠ .error .fault := by
  have timers : ∀ e ∈ s.timers, s.heap e.timer ≠ none :=
    fun e mem => inv.owns.live_entry (List.mem_append_left _ mem)
  have batch : ∀ e ∈ remaining s.phase, s.heap e.timer ≠ none :=
    fun e mem => inv.owns.live_entry (List.mem_append_right _ mem)
  intro fault
  cases l with
  | tick delay => cases fault
  | newTimer timer when interval => simp [step, newTimer, ite_disabled_eq_fault_iff] at fault
  | addTimerInLoop timer =>
      obtain ⟨⟨-, waits⟩, fault⟩ := ite_disabled_eq_fault_iff.mp fault
      obtain ⟨object, held⟩ := (inv.owns.live timer).mp (List.mem_append_left _ waits)
      rcases bind_eq_fault_iff.mp fault with dangling | ⟨⟨earliest, u⟩, inserted, late⟩
      · simp [insert_eq_fault_iff, held] at dangling
      · obtain ⟨again, -, -, -, rfl⟩ := insert_eq_ok_iff.mp inserted
        cases earliest with
        | false => cases late
        | true =>
            rcases bind_eq_fault_iff.mp late with dangling | ⟨third, -, ⟨⟩⟩
            simp [deref_eq_fault_iff, held] at dangling
  | cancelInLoop timerId =>
      obtain ⟨-, fault⟩ := ite_disabled_eq_fault_iff.mp fault
      simp only [cancelInLoop] at fault
      rw [if_neg (inv.inactive _)] at fault
      split at fault <;> cases fault
  | expire =>
      simp only [step] at fault
      split at fault
      · simp [ite_disabled_eq_fault_iff] at fault
      · cases fault
  | handleRead =>
      obtain ⟨-, fault⟩ := ite_disabled_eq_fault_iff.mp fault
      rcases bind_eq_fault_iff.mp fault with fault | ⟨⟨expired, u⟩, -, ⟨⟩⟩
      obtain ⟨-, fault⟩ := ite_abort_eq_fault_iff.mp fault
      rcases bind_eq_fault_iff.mp fault with fault | ⟨left, -, ⟨⟩⟩
      exact eraseActive_ne_fault (fun e mem => timers e (OrderedSet.mem_below.mp mem).1) fault
  | run =>
      simp only [step] at fault
      split at fault
      · rename_i now called e uncalled phase
        rcases bind_eq_fault_iff.mp fault with fault | ⟨timer, -, ⟨⟩⟩
        exact batch e (by simp [phase, remaining]) (deref_eq_fault_iff.mp fault)
      · cases fault
  | reset =>
      simp only [step] at fault
      split at fault <;> cases fault
  | resetNext =>
      simp only [step] at fault
      split at fault
      · rename_i now e expired phase
        have live := batch e (by simp [phase, remaining])
        rcases bind_eq_fault_iff.mp fault with fault | ⟨timer, -, fault⟩
        · exact live (deref_eq_fault_iff.mp fault)
        · dsimp only at fault
          split at fault
          · simp [bind_eq_fault_iff, insert_eq_fault_iff] at fault
          · rw [delete_eq_fault_iff] at fault
            exact live fault
      · cases fault
  | rearm =>
      simp only [step] at fault
      split at fault
      · simp only [rearm] at fault
        split at fault
        · cases fault
        · rename_i first least
          rcases bind_eq_fault_iff.mp fault with fault | ⟨timer, -, fault⟩
          · exact timers first (OrderedSet.first?_mem least) (deref_eq_fault_iff.mp fault)
          · split at fault <;> cases fault
      · cases fault

/-- What holds of the timers at every moment of a run. -/
structure Lifecycle (s : State) : Prop where
  /-- A callback runs in a `handleRead` whose `now` has reached the timer's expiration. -/
  due : ∀ i ∈ s.invocations, i.timer.expiration ≤ i.now
  /-- The callback of a one-shot timer runs once at most. -/
  oneShot : ∀ i ∈ s.invocations, i.timer.repeats = false →
    s.invocations.countP (fun j => j.timer.sequence = i.timer.sequence) ≤ 1
  /-- Two runs of a periodic callback are its interval apart. -/
  periodic : s.invocations.Pairwise fun i j => i.timer.sequence = j.timer.sequence →
    i.now + i.timer.interval.microseconds ≤ j.now
  /-- No timer is deleted twice. -/
  once : (s.deleted.map TimerId.sequence).Nodup
  /-- No deleted timer has an entry, and no step runs, reads, restarts or deletes one. -/
  live : ∀ e ∈ stored s, s.heap e.timer ≠ none
  noFault : ∀ l, step s l ≠ .error .fault
  /-- A created timer is deleted or live. -/
  created : ∀ n, 0 < n → n ≤ s.numCreated →
    (∃ id ∈ s.deleted, id.sequence = n) ∨ ∃ a timer, s.heap a = some timer ∧ timer.sequence = n
  /-- A live timer whose `addTimerInLoop` has run is either in `timers_` or in the part of
  the batch that is not re-armed yet. -/
  place : ∀ a, s.heap a ≠ none → a ∉ s.toAdd →
    Xor (a ∈ s.timers.toList.map Entry.timer) (a ∈ (remaining s.phase).map Entry.timer)
  /-- A timer is deleted for a cancel with its own id, or after it has fired as a one-shot. -/
  ended : ∀ id ∈ s.deleted, id ∈ s.cancels ∨
    ∃ i ∈ s.invocations, i.timer.sequence = id.sequence ∧ i.timer.repeats = false

/-- Where no two elements with a property can follow each other, one has it at most. -/
theorem countP_le_one {α : Type} {R : α → α → Prop} {p : α → Bool} {l : List α}
    (apart : l.Pairwise R) (clash : ∀ x ∈ l, ∀ y ∈ l, p x → p y → ¬ R x y) : l.countP p ≤ 1 := by
  induction l with
  | nil => simp
  | cons x l ih =>
      obtain ⟨first, apart⟩ := List.pairwise_cons.mp apart
      have rest := ih apart fun y memY z memZ =>
        clash y (List.mem_cons_of_mem _ memY) z (List.mem_cons_of_mem _ memZ)
      by_cases here : p x
      · have none_left : l.countP p = 0 := by
          rw [List.countP_eq_zero]
          intro y mem there
          exact clash x List.mem_cons_self y (List.mem_cons_of_mem _ mem) here there (first y mem)
        rw [List.countP_cons_of_pos here, none_left]
      · rwa [List.countP_cons_of_neg here]

theorem Scheduled.oneShot {numCreated : Nat} {heap : Addr → Option Timer} {phase : Phase}
    {invocations : List Invocation} (scheduled : Scheduled numCreated heap phase invocations)
    {i : Invocation} (mem : i ∈ invocations) (oneShot : i.timer.repeats = false) :
    invocations.countP (fun j => j.timer.sequence = i.timer.sequence) ≤ 1 := by
  -- all invocations of a timer agree on the interval, so none of them is periodic
  have agree : ∀ j ∈ invocations, j.timer.sequence = i.timer.sequence →
      j.timer.repeats = false := by
    let Agree (j k : Invocation) : Prop :=
      j.timer.sequence = k.timer.sequence → j.timer.interval = k.timer.interval
    have symm : Std.Symm Agree := ⟨fun j k agree same => (agree same.symm).symm⟩
    have all : invocations.Pairwise Agree :=
      scheduled.spaced.imp fun spaced same => (spaced same).1
    intro j memJ same
    have interval := all.forall_of_forall (fun _ _ _ => rfl) memJ mem same
    rwa [Timer.repeats, interval]
  refine countP_le_one scheduled.spaced fun j memJ k memK sameJ sameK spaced => ?_
  have sameJ := of_decide_eq_true sameJ
  have sameK := of_decide_eq_true sameK
  have periodic := (spaced (sameJ.trans sameK.symm)).2.1
  simp [agree j memJ sameJ] at periodic

theorem Owns.place {s : State} (owns : Owns s.heap s.toAdd (stored s)) {a : Addr}
    (live : s.heap a ≠ none) (added : a ∉ s.toAdd) :
    Xor (a ∈ s.timers.toList.map Entry.timer) (a ∈ (remaining s.phase).map Entry.timer) := by
  have nodup := owns.nodup.of_append_right
  have placed := (owns.live a).mpr (Option.ne_none_iff_exists'.mp live)
  rw [stored, List.map_append] at nodup placed
  have apart := (List.nodup_append.mp nodup).2.2
  rcases List.mem_append.mp ((List.mem_append.mp placed).resolve_left added) with inTimers | inBatch
  · exact .inl ⟨inTimers, fun inBatch => apart a inTimers a inBatch rfl⟩
  · exact .inr ⟨inBatch, fun inTimers => apart a inTimers a inBatch rfl⟩

/-- **The life of a timer**, in every run that no assertion aborts. -/
theorem lifecycle {s : State} (reach : machine.Reachable s) : Lifecycle s := by
  have inv := reachable_inv reach
  exact {
    due := inv.scheduled.due
    oneShot := fun i mem oneShot => inv.scheduled.oneShot mem oneShot
    periodic := inv.scheduled.spaced.imp fun spaced same => (spaced same).2.2
    once := inv.numbered.once
    live := fun e mem => inv.owns.live_entry mem
    noFault := step_ne_fault inv
    created := inv.numbered.created
    place := fun a live added => inv.owns.place live added
    ended := inv.ended.deleted }

/-- A periodic timer fires twice, and a one-shot timer is cancelled from its callback. -/
theorem lifecycle_cancelled : ∃ s : State,
    s.invocations.map (fun i => (i.timer.sequence, i.now)) = [(1, 10), (2, 10), (2, 40)] ∧
    Lifecycle s := by
  let labels : List Label :=
    [.newTimer 16 5 ⟨false, 0, nofun⟩, .newTimer 32 7 ⟨true, 20, fun _ => by decide⟩,
      .addTimerInLoop 16, .addTimerInLoop 32, .tick 9, .handleRead, .run, .cancelInLoop ⟨16, 1⟩,
      .run, .reset, .resetNext, .resetNext, .rearm, .tick 30, .handleRead, .run]
  exact ⟨_, rfl, lifecycle (Machine.reachable_of_run labels ⟨1, by decide, rfl⟩ rfl)⟩

end Dbdky.Port.TimerQueue
