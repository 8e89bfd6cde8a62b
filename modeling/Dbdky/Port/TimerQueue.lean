import Mathlib.Algebra.Group.Nat.Defs
import Mathlib.Data.Prod.Lex
import Mathlib.Data.Int.Order.Basic
import Mathlib.Logic.Function.Basic
import Dbdky.Ordered.OrderedSet
import Dbdky.Transition.Machine

/-!
`TimerQueue`, `Timer` and `TimerId` (`src/port/TimerQueue.{h,cpp}`, `src/port/Timer.{h,cpp}`,
`src/port/TimerId.h`).

Timers live on a heap and are known by their address, so an address can be freed and
handed out again. The machine runs the queue statement group by statement group:
`handleRead` up to the first callback, each callback, and each round of the loop in
`reset` are steps of their own, and what a callback does with the queue are steps in
between. A step stops for one of three reasons (`Stop`): it is not enabled, an assertion
aborts, or a pointer to a deleted timer is used.

Callbacks themselves are not modelled: an invocation is recorded with the timer it
belongs to. A `Timestamp` is its microseconds since the epoch, without overflow, and the
timerfd is set and read at one instant of the clock.
-/

namespace Dbdky.Port

open Transition

/-- `Timestamp::valid`, on the microseconds since the epoch -/
def Timestamp.valid (microSecondsSinceEpoch : Int) : Prop := microSecondsSinceEpoch > 0

instance (t : Int) : Decidable (Timestamp.valid t) := inferInstanceAs (Decidable (t > 0))

/-- `kMicroSecondsPerSecond` -/
def kMicroSecondsPerSecond : Int := 1000 * 1000

/-- What the program reads off the `double interval`: whether it is positive, and its
whole microseconds. -/
structure Interval where
  positive : Bool
  microseconds : Int
  nonneg : positive = true → 0 ≤ microseconds
deriving DecidableEq, Repr

/-- `addTime(timestamp, seconds)` -/
def addTime (timestamp : Int) (seconds : Interval) : Int :=
  timestamp + seconds.microseconds

/-- A `Timer*`; 0 is the null pointer. -/
abbrev Addr := Nat

structure Timer where
  expiration : Int
  interval : Interval
  sequence : Nat
deriving DecidableEq, Repr

/-- `repeat_` -/
def Timer.repeats (timer : Timer) : Bool := timer.interval.positive

def Timer.restart (timer : Timer) (now : Int) : Timer :=
  if timer.repeats then { timer with expiration := addTime now timer.interval }
  else { timer with expiration := 0 }

structure TimerId where
  timer : Addr := 0
  sequence : Nat := 0
deriving DecidableEq, Repr

/-- `ActiveTimer timer(timerId.timer_, timerId.sequence_)` -/
def TimerId.active (timerId : TimerId) : Addr ×ₗ Nat := toLex (timerId.timer, timerId.sequence)

namespace TimerQueue

/-- `std::pair<Timestamp, Timer*>` -/
abbrev Entry := Int ×ₗ Addr

def Entry.expiration (e : Entry) : Int := (ofLex e).1
def Entry.timer (e : Entry) : Addr := (ofLex e).2

/-- The entry of the timer at an address. -/
def entry (timer : Timer) (addr : Addr) : Entry := toLex (timer.expiration, addr)

@[simp] theorem entry_expiration (timer : Timer) (addr : Addr) :
    (entry timer addr).expiration = timer.expiration := rfl

@[simp] theorem entry_timer (timer : Timer) (addr : Addr) : (entry timer addr).timer = addr := rfl

/-- `std::pair<Timer*, int64_t>` -/
abbrev ActiveTimer := Addr ×ₗ Nat

structure Timespec where
  tv_sec : Int
  tv_nsec : Int
deriving DecidableEq, Repr

def Timespec.microseconds (ts : Timespec) : Int :=
  ts.tv_sec * kMicroSecondsPerSecond + ts.tv_nsec / 1000

/-- `howMuchTimeFromNow(when)` at time `now` -/
def howMuchTimeFromNow (when now : Int) : Timespec :=
  let microseconds := when - now
  let microseconds := if microseconds < 100 then 100 else microseconds
  { tv_sec := microseconds.tdiv kMicroSecondsPerSecond
    tv_nsec := microseconds.tmod kMicroSecondsPerSecond * 1000 }

/-- The kernel's timer behind `timerfd_`. -/
inductive Timerfd where
  | disarmed
  | armed (deadline : Int)
  /-- It has expired and has not been read or set since. -/
  | expired (deadline : Int)
deriving DecidableEq, Repr

/-- Where the loop thread is in `handleRead`. -/
inductive Phase where
  /-- Not in `handleRead`. -/
  | idle
  /-- The loop over the callbacks: the batch read at `now`, split at the next one. -/
  | calling (now : Int) (called uncalled : List Entry)
  /-- The loop in `reset`: the entries still to be re-armed or deleted. -/
  | resetting (now : Int) (expired : List Entry)
deriving DecidableEq

/-- A call of `timerfd_settime`. -/
structure Settime where
  time : Int
  value : Timespec
deriving DecidableEq, Repr

/-- A call of `Timer::run`: the timer as it was, the `now` of the `handleRead` it happens
in, and the number of that `handleRead`. -/
structure Invocation where
  timer : Timer
  now : Int
  batch : Nat
deriving DecidableEq, Repr

structure State where
  clock : Int
  /-- `Timer::s_numCreated_` -/
  numCreated : Nat
  heap : Addr → Option Timer
  /-- Timers whose `addTimerInLoop` has not run yet. -/
  toAdd : List Addr
  timerfd : Timerfd
  timers : OrderedSet Entry
  activeTimers : OrderedSet ActiveTimer
  callingExpiredTimers : Bool
  cancelingTimers : OrderedSet ActiveTimer
  phase : Phase
  /-- History: the calls of `timerfd_settime`. -/
  settimes : List Settime
  /-- History: the callbacks that have been invoked. -/
  invocations : List Invocation
  /-- History: the ids `cancelInLoop` has been called with. -/
  cancels : List TimerId
  /-- History: the timers that have been deleted. -/
  deleted : List TimerId
  /-- History: how often `handleRead` has been called. -/
  batch : Nat

/-- After the constructor, at time `clock`. -/
def State.new (clock : Int) : State where
  clock
  numCreated := 0
  heap _ := none
  toAdd := []
  timerfd := .disarmed
  timers := .empty
  activeTimers := .empty
  callingExpiredTimers := false
  cancelingTimers := .empty
  phase := .idle
  settimes := []
  invocations := []
  cancels := []
  deleted := []
  batch := 0

/-- Why a step cannot be taken. -/
inductive Stop where
  | disabled
  /-- An assertion fails. -/
  | abort
  /-- A pointer to a deleted timer is used. -/
  | fault
deriving DecidableEq, Repr

/-! ### The heap -/

/-- `*timer` -/
def deref (heap : Addr → Option Timer) (timer : Addr) : Except Stop Timer :=
  match heap timer with
  | some object => .ok object
  | none => .error .fault

/-- `delete timer` -/
def delete (s : State) (timer : Addr) : Except Stop State := do
  let object ← deref s.heap timer
  .ok { s with
    heap := Function.update s.heap timer none
    deleted := s.deleted ++ [⟨timer, object.sequence⟩] }

/-- `new Timer(cb, when, interval)` at a free address -/
def newTimer (s : State) (timer : Addr) (when : Int) (interval : Interval) :
    Except Stop State :=
  if timer ≠ 0 ∧ timer < 2 ^ 64 ∧ s.heap timer = none then
    .ok { s with
      numCreated := s.numCreated + 1
      heap := Function.update s.heap timer (some ⟨when, interval, s.numCreated + 1⟩)
      toAdd := s.toAdd ++ [timer] }
  else .error .disabled

/-! ### The member functions -/

def resetTimerfd (s : State) (expiration : Int) : State :=
  let value := howMuchTimeFromNow expiration s.clock
  { s with
    timerfd := .armed (s.clock + value.microseconds)
    settimes := s.settimes ++ [⟨s.clock, value⟩] }

/-- `readTimerfd`: a timer that has not expired is left as it is. -/
def readTimerfd : Timerfd → Timerfd
  | .expired _ => .disarmed
  | timerfd => timerfd

/-- The flag `insert` returns: a timer that expires at `when` comes before all others. -/
def earliestChanged (timers : OrderedSet Entry) (when : Int) : Bool :=
  match timers.first? with
  | none => true
  | some first => when < first.expiration

def insert (s : State) (timer : Addr) : Except Stop (Bool × State) := do
  let object ← deref s.heap timer
  let earliestChanged := earliestChanged s.timers object.expiration
  -- assert(result.second)
  if entry object timer ∉ s.timers then
    .ok (earliestChanged, { s with timers := s.timers.insert (entry object timer) })
  else .error .abort

def addTimerInLoop (s : State) (timer : Addr) : Except Stop State := do
  let (earliestChanged, s) ← insert s timer
  if earliestChanged then do
    let object ← deref s.heap timer
    .ok (resetTimerfd s object.expiration)
  else .ok s

def cancelInLoop (s : State) (timerId : TimerId) : Except Stop State :=
  let timer := timerId.active
  if timer ∈ s.activeTimers then do
    let object ← deref s.heap timerId.timer
    -- assert(n == 1)
    if entry object timerId.timer ∈ s.timers then do
      let s ← delete { s with timers := s.timers.erase (entry object timerId.timer) } timerId.timer
      .ok { s with activeTimers := s.activeTimers.erase timer }
    else .error .abort
  else if s.callingExpiredTimers then
    .ok { s with cancelingTimers := s.cancelingTimers.insert timer }
  else .ok s

/-- `UINT32_MAX` -/
def uint32Max : Nat := 2 ^ 32 - 1

/-- The loop of `getExpired` over the expired entries. -/
def eraseActive (heap : Addr → Option Timer) (activeTimers : OrderedSet ActiveTimer) :
    List Entry → Except Stop (OrderedSet ActiveTimer)
  | [] => .ok activeTimers
  | e :: expired => do
      let object ← deref heap e.timer
      eraseActive heap (activeTimers.erase (toLex (e.timer, object.sequence))) expired

def getExpired (s : State) (now : Int) : Except Stop (List Entry × State) :=
  let sentry : Entry := toLex (now, uint32Max)
  let expired := s.timers.below sentry
  let timers := s.timers.notBelow sentry
  -- assert(end == timers_.end() || now < end->first)
  if ∀ first ∈ timers.first?, now < first.expiration then do
    let activeTimers ← eraseActive s.heap s.activeTimers expired
    .ok (expired, { s with timers, activeTimers })
  else .error .abort

/-- `handleRead`, up to the first callback -/
def handleRead (s : State) : Except Stop State := do
  let now := s.clock
  let (expired, s) ← getExpired { s with timerfd := readTimerfd s.timerfd } now
  .ok { s with
    callingExpiredTimers := true
    cancelingTimers := .empty
    phase := .calling now [] expired
    batch := s.batch + 1 }

/-- One callback of the loop in `handleRead`: `it->second->run()` -/
def run (s : State) (now : Int) (called : List Entry) (e : Entry) (uncalled : List Entry) :
    Except Stop State := do
  let timer ← deref s.heap e.timer
  .ok { s with
    invocations := s.invocations ++ [{ timer, now, batch := s.batch }]
    phase := .calling now (called ++ [e]) uncalled }

/-- One round of the loop in `reset` -/
def resetNext (s : State) (now : Int) (e : Entry) (expired : List Entry) :
    Except Stop State := do
  let timer ← deref s.heap e.timer
  let s := { s with phase := .resetting now expired }
  if timer.repeats ∧ toLex (e.timer, timer.sequence) ∉ s.cancelingTimers then do
    let s := { s with heap := Function.update s.heap e.timer (some (timer.restart now)) }
    let (_, s) ← insert s e.timer
    .ok s
  else delete s e.timer

/-- The end of `reset` and of `handleRead` -/
def rearm (s : State) : Except Stop State := do
  let s := { s with phase := .idle }
  match s.timers.first? with
  | none => .ok s
  | some first =>
      let timer ← deref s.heap first.timer
      if Timestamp.valid timer.expiration then .ok (resetTimerfd s timer.expiration) else .ok s

/-! ### The steps -/

inductive Label where
  /-- The clock advances. -/
  | tick (delay : Nat)
  /-- `addTimer`, in any thread -/
  | newTimer (timer : Addr) (when : Int) (interval : Interval)
  | addTimerInLoop (timer : Addr)
  | cancelInLoop (timerId : TimerId)
  /-- The armed timerfd expires. -/
  | expire
  | handleRead
  | run
  /-- All callbacks have returned, and `reset` is called. -/
  | reset
  | resetNext
  | rearm
deriving DecidableEq, Repr

/-- The loop thread runs functors and callbacks outside of `handleRead` and in its loop
over the expired timers, never while it is in `reset`. -/
def mayOperate : Phase → Bool
  | .idle => true
  | .calling _ called _ => called ≠ []
  | .resetting .. => false

def step (s : State) : Label → Except Stop State
  | .tick delay => .ok { s with clock := s.clock + delay }
  | .newTimer timer when interval => newTimer s timer when interval
  | .addTimerInLoop timer =>
      if mayOperate s.phase ∧ timer ∈ s.toAdd then
        addTimerInLoop { s with toAdd := s.toAdd.erase timer } timer
      else .error .disabled
  | .cancelInLoop timerId =>
      if mayOperate s.phase then
        cancelInLoop { s with cancels := s.cancels ++ [timerId] } timerId
      else .error .disabled
  | .expire =>
      match s.timerfd with
      | .armed deadline =>
          if deadline ≤ s.clock then .ok { s with timerfd := .expired deadline }
          else .error .disabled
      | _ => .error .disabled
  | .handleRead => if s.phase = .idle then handleRead s else .error .disabled
  | .run =>
      match s.phase with
      | .calling now called (e :: uncalled) => run s now called e uncalled
      | _ => .error .disabled
  | .reset =>
      match s.phase with
      | .calling now called [] =>
          .ok { s with callingExpiredTimers := false, phase := .resetting now called }
      | _ => .error .disabled
  | .resetNext =>
      match s.phase with
      | .resetting now (e :: expired) => resetNext s now e expired
      | _ => .error .disabled
  | .rearm =>
      match s.phase with
      | .resetting _ [] => rearm s
      | _ => .error .disabled

/-- All runs of a queue that no assertion and no fault ends. -/
def machine : Machine State Label where
  init s := ∃ clock > 0, s = .new clock
  step s l := (step s l).toOption

/-! ### What a step can do -/

/-- A value comes out of a bind iff one goes in and the continuation yields it. -/
theorem bind_eq_ok_iff {α β : Type} {x : Except Stop α} {f : α → Except Stop β} {b : β} :
    (x >>= f) = .ok b ↔ ∃ a, x = .ok a ∧ f a = .ok b := by
  cases x with
  | error stop => simp [bind, Except.bind]
  | ok a => simp [bind, Except.bind]

theorem ite_eq_ok_iff {α : Type} {p : Prop} [Decidable p] {x : Except Stop α} {stop : Stop}
    {a : α} :
    (if p then x else .error stop) = .ok a ↔ p ∧ x = .ok a := by
  by_cases h : p <;> simp [h]

theorem deref_eq_ok_iff {heap : Addr → Option Timer} {addr : Addr} {timer : Timer} :
    deref heap addr = .ok timer ↔ heap addr = some timer := by
  unfold deref
  cases heap addr <;> simp

theorem delete_eq_ok_iff {s t : State} {addr : Addr} :
    delete s addr = .ok t ↔ ∃ timer, s.heap addr = some timer ∧
      { s with
        heap := Function.update s.heap addr none
        deleted := s.deleted ++ [⟨addr, timer.sequence⟩] } = t := by
  simp only [delete, bind_eq_ok_iff, deref_eq_ok_iff, Except.ok.injEq]

theorem insert_eq_ok_iff {s t : State} {addr : Addr} {earliest : Bool} :
    insert s addr = .ok (earliest, t) ↔ ∃ timer, s.heap addr = some timer ∧
      entry timer addr ∉ s.timers ∧ earliestChanged s.timers timer.expiration = earliest ∧
      { s with timers := s.timers.insert (entry timer addr) } = t := by
  simp only [insert, bind_eq_ok_iff, deref_eq_ok_iff, ite_eq_ok_iff, Except.ok.injEq, Prod.mk.injEq]

theorem eraseActive_ok {heap : Addr → Option Timer} {expired : List Entry}
    (activeTimers : OrderedSet ActiveTimer) (live : ∀ e ∈ expired, heap e.timer ≠ none) :
    ∃ left, eraseActive heap activeTimers expired = .ok left := by
  induction expired generalizing activeTimers with
  | nil => exact ⟨activeTimers, rfl⟩
  | cons e expired ih =>
      obtain ⟨timer, held⟩ := Option.ne_none_iff_exists'.mp (live e List.mem_cons_self)
      obtain ⟨left, erased⟩ := ih (activeTimers.erase (toLex (e.timer, timer.sequence)))
        fun f mem => live f (List.mem_cons_of_mem _ mem)
      exact ⟨left, bind_eq_ok_iff.mpr ⟨timer, deref_eq_ok_iff.mpr held, erased⟩⟩

theorem machine_step_eq_some_iff {s t : State} {l : Label} :
    machine.step s l = some t ↔ step s l = .ok t := by
  change (step s l).toOption = some t ↔ _
  cases step s l <;> simp [Except.toOption]

/-- The steps as a relation: the guard each of them passes and the state it leaves. -/
inductive Step : State → Label → State → Prop where
  | tick {s} (delay) : Step s (.tick delay) { s with clock := s.clock + delay }
  | newTimer {s timer when interval} : timer ≠ 0 → timer < 2 ^ 64 → s.heap timer = none →
      Step s (.newTimer timer when interval)
        { s with
          numCreated := s.numCreated + 1
          heap := Function.update s.heap timer (some ⟨when, interval, s.numCreated + 1⟩)
          toAdd := s.toAdd ++ [timer] }
  | addEarliest {s timer object} : mayOperate s.phase = true → timer ∈ s.toAdd →
      s.heap timer = some object → entry object timer ∉ s.timers →
      earliestChanged s.timers object.expiration = true →
      Step s (.addTimerInLoop timer)
        (resetTimerfd { s with
          toAdd := s.toAdd.erase timer
          timers := s.timers.insert (entry object timer) } object.expiration)
  | addLater {s timer object} : mayOperate s.phase = true → timer ∈ s.toAdd →
      s.heap timer = some object → entry object timer ∉ s.timers →
      earliestChanged s.timers object.expiration = false →
      Step s (.addTimerInLoop timer)
        { s with
          toAdd := s.toAdd.erase timer
          timers := s.timers.insert (entry object timer) }
  | cancelActive {s timerId object} : mayOperate s.phase = true →
      timerId.active ∈ s.activeTimers → s.heap timerId.timer = some object →
      entry object timerId.timer ∈ s.timers →
      Step s (.cancelInLoop timerId)
        { s with
          cancels := s.cancels ++ [timerId]
          timers := s.timers.erase (entry object timerId.timer)
          heap := Function.update s.heap timerId.timer none
          deleted := s.deleted ++ [⟨timerId.timer, object.sequence⟩]
          activeTimers := s.activeTimers.erase timerId.active }
  | cancelInBatch {s timerId} : mayOperate s.phase = true → timerId.active ∉ s.activeTimers →
      s.callingExpiredTimers = true →
      Step s (.cancelInLoop timerId)
        { s with
          cancels := s.cancels ++ [timerId]
          cancelingTimers := s.cancelingTimers.insert timerId.active }
  | cancelNothing {s timerId} : mayOperate s.phase = true → timerId.active ∉ s.activeTimers →
      s.callingExpiredTimers = false →
      Step s (.cancelInLoop timerId) { s with cancels := s.cancels ++ [timerId] }
  | expire {s deadline} : s.timerfd = .armed deadline → deadline ≤ s.clock →
      Step s .expire { s with timerfd := .expired deadline }
  | handleRead {s activeTimers} : s.phase = .idle →
      (∀ first ∈ (s.timers.notBelow (toLex (s.clock, uint32Max))).first?,
        s.clock < first.expiration) →
      eraseActive s.heap s.activeTimers (s.timers.below (toLex (s.clock, uint32Max))) =
        .ok activeTimers →
      Step s .handleRead
        { s with
          timerfd := readTimerfd s.timerfd
          timers := s.timers.notBelow (toLex (s.clock, uint32Max))
          activeTimers
          callingExpiredTimers := true
          cancelingTimers := .empty
          phase := .calling s.clock [] (s.timers.below (toLex (s.clock, uint32Max)))
          batch := s.batch + 1 }
  | run {s now called e uncalled timer} : s.phase = .calling now called (e :: uncalled) →
      s.heap e.timer = some timer →
      Step s .run
        { s with
          invocations := s.invocations ++ [{ timer, now, batch := s.batch }]
          phase := .calling now (called ++ [e]) uncalled }
  | reset {s now called} : s.phase = .calling now called [] →
      Step s .reset { s with callingExpiredTimers := false, phase := .resetting now called }
  | restart {s now e expired timer} : s.phase = .resetting now (e :: expired) →
      s.heap e.timer = some timer → timer.repeats = true →
      toLex (e.timer, timer.sequence) ∉ s.cancelingTimers →
      entry (timer.restart now) e.timer ∉ s.timers →
      Step s .resetNext
        { s with
          heap := Function.update s.heap e.timer (some (timer.restart now))
          timers := s.timers.insert (entry (timer.restart now) e.timer)
          phase := .resetting now expired }
  | delete {s now e expired timer} : s.phase = .resetting now (e :: expired) →
      s.heap e.timer = some timer →
      (timer.repeats = false ∨ toLex (e.timer, timer.sequence) ∈ s.cancelingTimers) →
      Step s .resetNext
        { s with
          heap := Function.update s.heap e.timer none
          deleted := s.deleted ++ [⟨e.timer, timer.sequence⟩]
          phase := .resetting now expired }
  | rearmNothing {s now} : s.phase = .resetting now [] →
      (∀ first ∈ s.timers.first?, ∃ timer, s.heap first.timer = some timer ∧
        ¬ Timestamp.valid timer.expiration) →
      Step s .rearm { s with phase := .idle }
  | rearm {s now first timer} : s.phase = .resetting now [] → s.timers.first? = some first →
      s.heap first.timer = some timer → Timestamp.valid timer.expiration →
      Step s .rearm (resetTimerfd { s with phase := .idle } timer.expiration)

theorem addTimerInLoop_cases {s t : State} {timer : Addr} (allowed : mayOperate s.phase = true)
    (waits : timer ∈ s.toAdd)
    (h : addTimerInLoop { s with toAdd := s.toAdd.erase timer } timer = .ok t) :
    Step s (.addTimerInLoop timer) t := by
  obtain ⟨⟨earliest, u⟩, inserted, h⟩ := bind_eq_ok_iff.mp h
  obtain ⟨object, held, new, changed, rfl⟩ := insert_eq_ok_iff.mp inserted
  cases earliest with
  | true =>
      obtain ⟨again, same, ⟨⟩⟩ := bind_eq_ok_iff.mp h
      obtain rfl : again = object := Option.some.inj ((deref_eq_ok_iff.mp same).symm.trans held)
      exact .addEarliest allowed waits held new changed
  | false =>
      cases h
      exact .addLater allowed waits held new changed

theorem cancelInLoop_cases {s t : State} {timerId : TimerId} (allowed : mayOperate s.phase = true)
    (h : cancelInLoop { s with cancels := s.cancels ++ [timerId] } timerId = .ok t) :
    Step s (.cancelInLoop timerId) t := by
  unfold cancelInLoop at h
  dsimp only at h
  split at h
  · rename_i active
    obtain ⟨object, held, h⟩ := bind_eq_ok_iff.mp h
    obtain ⟨pending, h⟩ := ite_eq_ok_iff.mp h
    obtain ⟨u, deleted, ⟨⟩⟩ := bind_eq_ok_iff.mp h
    obtain ⟨again, same, rfl⟩ := delete_eq_ok_iff.mp deleted
    have held := deref_eq_ok_iff.mp held
    obtain rfl : again = object := Option.some.inj (same.symm.trans held)
    exact .cancelActive allowed active held pending
  · rename_i inactive
    split at h <;> cases h
    · exact .cancelInBatch allowed inactive ‹_›
    · exact .cancelNothing allowed inactive (Bool.not_eq_true _ ▸ ‹¬ s.callingExpiredTimers = true›)

theorem resetNext_cases {s t : State} {now : Int} {e : Entry} {expired : List Entry}
    (phase : s.phase = .resetting now (e :: expired)) (h : resetNext s now e expired = .ok t) :
    Step s .resetNext t := by
  obtain ⟨timer, held, h⟩ := bind_eq_ok_iff.mp h
  have held := deref_eq_ok_iff.mp held
  dsimp only at h
  split at h
  · rename_i periodic
    obtain ⟨⟨changed, u⟩, inserted, ⟨⟩⟩ := bind_eq_ok_iff.mp h
    obtain ⟨again, same, new, -, rfl⟩ := insert_eq_ok_iff.mp inserted
    obtain rfl : timer.restart now = again := by simpa using same
    exact .restart phase held periodic.1 periodic.2 new
  · rename_i gone
    obtain ⟨again, same, rfl⟩ := delete_eq_ok_iff.mp h
    obtain rfl : again = timer := Option.some.inj (same.symm.trans held)
    refine .delete phase held ?_
    rw [not_and_or, not_not, Bool.not_eq_true] at gone
    exact gone

theorem rearm_cases {s t : State} {now : Int} (phase : s.phase = .resetting now [])
    (h : rearm s = .ok t) : Step s .rearm t := by
  unfold rearm at h
  dsimp only at h
  split at h
  · rename_i none_left
    cases h
    exact .rearmNothing phase fun first mem => by simp_all
  · rename_i first least
    obtain ⟨timer, held, h⟩ := bind_eq_ok_iff.mp h
    have held := deref_eq_ok_iff.mp held
    split at h <;> cases h
    · exact .rearm phase least held ‹_›
    · refine .rearmNothing phase fun other mem => ?_
      obtain rfl : first = other := Option.some.inj (least.symm.trans mem)
      exact ⟨timer, held, ‹_›⟩

/-- **Inversion.** -/
theorem step_cases {s t : State} {l : Label} (h : machine.step s l = some t) : Step s l t := by
  replace h := machine_step_eq_some_iff.mp h
  cases l with
  | tick delay =>
      cases h
      exact .tick delay
  | newTimer timer when interval =>
      obtain ⟨⟨nonnull, small, free⟩, ⟨⟩⟩ := ite_eq_ok_iff.mp h
      exact .newTimer nonnull small free
  | addTimerInLoop timer =>
      obtain ⟨⟨allowed, waits⟩, h⟩ := ite_eq_ok_iff.mp h
      exact addTimerInLoop_cases allowed waits h
  | cancelInLoop timerId =>
      obtain ⟨allowed, h⟩ := ite_eq_ok_iff.mp h
      exact cancelInLoop_cases allowed h
  | expire =>
      simp only [step] at h
      split at h
      · obtain ⟨due, ⟨⟩⟩ := ite_eq_ok_iff.mp h
        exact .expire ‹_› due
      · cases h
  | handleRead =>
      obtain ⟨phase, h⟩ := ite_eq_ok_iff.mp h
      obtain ⟨⟨expired, u⟩, got, ⟨⟩⟩ := bind_eq_ok_iff.mp h
      obtain ⟨later, got⟩ := ite_eq_ok_iff.mp got
      obtain ⟨activeTimers, erased, ⟨⟩⟩ := bind_eq_ok_iff.mp got
      exact .handleRead phase later erased
  | run =>
      simp only [step] at h
      split at h
      · obtain ⟨timer, held, ⟨⟩⟩ := bind_eq_ok_iff.mp h
        exact .run ‹_› (deref_eq_ok_iff.mp held)
      · cases h
  | reset =>
      simp only [step] at h
      split at h <;> cases h
      exact .reset ‹_›
  | resetNext =>
      simp only [step] at h
      split at h
      · exact resetNext_cases ‹_› h
      · cases h
  | rearm =>
      simp only [step] at h
      split at h
      · exact rearm_cases ‹_› h
      · cases h

end TimerQueue

end Dbdky.Port
