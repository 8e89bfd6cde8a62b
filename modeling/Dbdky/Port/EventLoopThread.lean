import Dbdky.Port.EventLoop

/-!
`EventLoopThread` (`src/port/EventLoopThread.cpp`): an owner thread that starts a
worker, waits for the worker's loop and asks it to quit in the destructor.

The worker's `loop.loop()` is the machine of `EventLoop`; this module adds the
statements around it in both threads. `loop_` is published before `loop()` is
entered, and `loop()` begins with `quit_ = false`, so the order of the owner's
`quit_ = true` and that statement decides whether the request survives:

* **`quitNotLost_of_quitsAfterReset`.** If the destructor's `quit()` comes after the
  worker has executed `quit_ = false`, the while condition is never again evaluated
  with `quit_ == false`.
* **`early_quit_lost`.** A `quit()` before that statement is always overwritten: the
  worker can go on to evaluate the condition with `quit_ == false`.
-/

namespace Dbdky.Port

open Transition

namespace EventLoopThread

variable {F : Type*}

/-- The statement the owner thread is about to execute. -/
inductive OwnerPc where
  /-- `startLoop()` has not been called. -/
  | constructed
  /-- `startLoop`: `thread_.start()` is done; `while (loop_ == NULL) cond_.wait()`. -/
  | waitLoop
  /-- `startLoop` has returned. -/
  | started
  /-- `~EventLoopThread`: `exiting_` is set; `loop_->quit()` is next. -/
  | callQuit
  /-- `~EventLoopThread`: `thread_.join()` -/
  | join
  | joined
deriving DecidableEq, Repr

/-- The statement of `threadFunc` the worker is about to execute. -/
inductive WorkerPc where
  | notStarted
  /-- `EventLoop loop;` -/
  | construct
  /-- `callback_(&loop)`, which may call the loop. -/
  | callback
  /-- The locked block: `loop_ = &loop; cond_.notify();` -/
  | publish
  /-- `loop.loop();` is next. -/
  | callLoop
  /-- Inside `loop.loop()`. -/
  | inLoop
  /-- `threadFunc` has returned. -/
  | finished
deriving DecidableEq, Repr

structure State (F : Type*) where
  owner : OwnerPc
  worker : WorkerPc
  exiting : Bool
  /-- `loop_ != NULL` -/
  published : Bool
  /-- The `EventLoop` on the worker's stack. -/
  loop : EventLoop.State F
  /-- History: `quit()` has been called on the published loop. -/
  quitRequested : Bool
deriving DecidableEq, Repr

/-- The state after the constructor. -/
def State.new : State F where
  owner := .constructed
  worker := .notStarted
  exiting := false
  published := false
  loop := .new
  quitRequested := false

inductive Label (F : Type*) where
  /-- Owner, `startLoop`: `thread_.start()` -/
  | startThread
  /-- Owner, `startLoop`: `loop_ != NULL` is seen and `startLoop` returns. -/
  | returnLoop
  /-- Owner, `~EventLoopThread`: `exiting_ = true` -/
  | setExiting
  /-- Owner, `~EventLoopThread`: `loop_->quit()` -/
  | quit
  /-- Owner, `~EventLoopThread`: `thread_.join()` returns. -/
  | join
  | construct
  | callbackReturn
  | publish
  | callLoop
  /-- A step of the loop: one of `loop()`, a call its callbacks and functors make on
  it, or a call of another thread that queues a functor. -/
  | loop (l : EventLoop.Label F)
  | finish
deriving DecidableEq, Repr

/-- The owner is not the loop thread; any number names it. -/
def ownerThread : Thread := .other 0

/-- Which steps of the loop are possible at which statement of `threadFunc`: the
callback may call the loop, other threads may once it is published, and `loop()`
runs once it has been called. `quit` from other threads is the destructor's. -/
def loopMayStep (s : State F) : EventLoop.Label F → Bool
  | .callLoop => false
  | .quit (.other _) => false
  | .pushFunctor (.other _) _ | .runInLoop (.other _) _ | .testWakeup (.other _) =>
      s.published && s.worker ≠ .finished
  | _ => s.worker == .callback || (s.worker == .inLoop && !(s.loop.pc matches .outside))

def step (s : State F) : Label F → Option (State F)
  | .startThread =>
      -- assert(!thread_.started())
      if s.owner = .constructed then some { s with owner := .waitLoop, worker := .construct }
      else none
  | .returnLoop =>
      if s.owner = .waitLoop ∧ s.published then some { s with owner := .started } else none
  | .setExiting =>
      if s.owner = .started then some { s with owner := .callQuit, exiting := true } else none
  | .quit =>
      -- `loop_` is dangling once `threadFunc` has returned
      if s.owner = .callQuit ∧ s.worker ≠ .finished then
        some { s with
          owner := .join, loop := EventLoop.quit s.loop ownerThread, quitRequested := true }
      else none
  | .join =>
      if s.owner = .join ∧ s.worker = .finished then some { s with owner := .joined } else none
  | .construct =>
      if s.worker = .construct then some { s with worker := .callback, loop := .new } else none
  | .callbackReturn =>
      if s.worker = .callback ∧ .loop ∉ s.loop.queueing then some { s with worker := .publish }
      else none
  | .publish =>
      if s.worker = .publish then some { s with worker := .callLoop, published := true } else none
  | .callLoop =>
      if s.worker = .callLoop then
        (EventLoop.step s.loop .callLoop).map fun loop => { s with worker := .inLoop, loop }
      else none
  | .loop l =>
      if loopMayStep s l then
        (EventLoop.step s.loop l).map fun loop =>
          { s with loop, quitRequested := s.quitRequested || (s.published && l matches .quit _) }
      else none
  | .finish =>
      if s.worker = .inLoop ∧ s.loop.pc matches .outside then some { s with worker := .finished }
      else none

variable (F) in
/-- All interleavings of the owner with the worker. -/
def machine : Machine (State F) (Label F) where
  init s := s = .new
  step := step

/-! ### What a step can do -/

/-- The steps as a relation: the guard each of them passes and the state it leaves. -/
inductive Step : State F → Label F → State F → Prop where
  | startThread {s} : s.owner = .constructed →
      Step s .startThread { s with owner := .waitLoop, worker := .construct }
  | returnLoop {s} : s.owner = .waitLoop → s.published = true →
      Step s .returnLoop { s with owner := .started }
  | setExiting {s} : s.owner = .started →
      Step s .setExiting { s with owner := .callQuit, exiting := true }
  | quit {s} : s.owner = .callQuit → s.worker ≠ .finished →
      Step s .quit
        { s with owner := .join, loop := EventLoop.quit s.loop ownerThread, quitRequested := true }
  | join {s} : s.owner = .join → s.worker = .finished → Step s .join { s with owner := .joined }
  | construct {s} : s.worker = .construct →
      Step s .construct { s with worker := .callback, loop := .new }
  | callbackReturn {s} : s.worker = .callback → .loop ∉ s.loop.queueing →
      Step s .callbackReturn { s with worker := .publish }
  | publish {s} : s.worker = .publish →
      Step s .publish { s with worker := .callLoop, published := true }
  | callLoop {s loop} : s.worker = .callLoop → EventLoop.Step s.loop .callLoop loop →
      Step s .callLoop { s with worker := .inLoop, loop }
  | loop {s l loop} : loopMayStep s l = true → EventLoop.Step s.loop l loop →
      Step s (.loop l)
        { s with loop, quitRequested := s.quitRequested || (s.published && l matches .quit _) }
  | finish {s} : s.worker = .inLoop → s.loop.pc = .outside →
      Step s .finish { s with worker := .finished }

/-- **Inversion.** -/
theorem step_cases {s t : State F} {l : Label F} (h : step s l = some t) : Step s l t := by
  unfold step at h
  split at h
  case h_9 =>
      obtain ⟨worker, h⟩ := Option.ite_none_right_eq_some.mp h
      obtain ⟨loop, inner, ⟨⟩⟩ := Option.map_eq_some_iff.mp h
      exact .callLoop worker (EventLoop.step_cases inner)
  case h_10 =>
      obtain ⟨may, h⟩ := Option.ite_none_right_eq_some.mp h
      obtain ⟨loop, inner, ⟨⟩⟩ := Option.map_eq_some_iff.mp h
      exact .loop may (EventLoop.step_cases inner)
  all_goals obtain ⟨enabled, ⟨⟩⟩ := Option.ite_none_right_eq_some.mp h
  case h_1 => exact .startThread enabled
  case h_2 => exact .returnLoop enabled.1 enabled.2
  case h_3 => exact .setExiting enabled
  case h_4 => exact .quit enabled.1 enabled.2
  case h_5 => exact .join enabled.1 enabled.2
  case h_6 => exact .construct enabled
  case h_7 => exact .callbackReturn enabled.1 enabled.2
  case h_8 => exact .publish enabled
  case h_11 =>
      refine .finish enabled.1 ?_
      cases pc : s.loop.pc <;> simp [pc] at enabled
      rfl

/-! ### A request made after the reset survives -/

/-- The worker is inside `loop()`, past `quit_ = false`. -/
def PastReset (s : State F) : Prop :=
  s.worker = .inLoop ∧ s.loop.pc ≠ .setLooping ∧ s.loop.pc ≠ .resetQuit

/-- The condition on the steps: the destructor calls `quit()` after the worker has
executed `quit_ = false`. -/
def QuitsAfterReset : Guard (State F) (Label F)
  | s, .quit => PastReset s
  | _, _ => True

instance [DecidableEq F] (s : State F) : ∀ l, Decidable (QuitsAfterReset s l)
  | .quit => inferInstanceAs (Decidable (_ ∧ _))
  | .startThread | .returnLoop | .setExiting | .join | .construct | .callbackReturn | .publish
  | .callLoop | .loop _ | .finish => isTrue trivial

/-- Once `quit()` has been called on the published loop, the while condition is not
evaluated with `quit_ == false`. -/
def QuitNotLost (s : State F) : Prop :=
  s.quitRequested = true → s.worker = .inLoop → s.loop.pc = .whileQuit → s.loop.quit = true

/-- What holds of the two threads at any moment, and of a request made after the reset. -/
structure Inv (s : State F) : Prop where
  unstarted : s.owner = .constructed → s.worker = .notStarted
  unpublished : s.published = true →
    s.worker = .callLoop ∨ s.worker = .inLoop ∨ s.worker = .finished
  kept : s.quitRequested = true →
    s.worker = .finished ∨ (PastReset s ∧ s.loop.quit = true)

/-- Inside `loop()` and past the reset, no step clears `quit_`. -/
theorem loop_keeps_quit {s t : EventLoop.State F} {l : EventLoop.Label F}
    (step : EventLoop.Step s l t) (called : l ≠ .callLoop) (first : s.pc ≠ .setLooping)
    (second : s.pc ≠ .resetQuit) (quitting : s.quit = true) :
    t.pc ≠ .setLooping ∧ t.pc ≠ .resetQuit ∧ t.quit = true := by
  cases step with
  | callLoop _ _ => exact absurd rfl called
  | setLooping pc => exact absurd pc first
  | resetQuit pc => exact absurd pc second
  | enterPoll _ running => simp [quitting] at running
  | testWakeup _ => simpa using ⟨first, second, quitting⟩
  | quit _ => simpa using ⟨first, second⟩
  | pushFunctor _ => exact ⟨first, second, quitting⟩
  | runQueued _ _ => exact ⟨first, second, quitting⟩
  | runHere _ _ => exact ⟨first, second, quitting⟩
  | setReady => exact ⟨first, second, quitting⟩
  | _ => exact ⟨by simp [EventLoop.swapFunctors], by simp [EventLoop.swapFunctors], quitting⟩

theorem not_callLoop_of_mayStep {s : State F} {l : EventLoop.Label F}
    (may : loopMayStep s l = true) : l ≠ .callLoop := by
  rintro rfl
  simp [loopMayStep] at may

/-- A callback or a functor that calls `quit()` on the published loop runs inside
`loop()`, past the reset. -/
theorem pastReset_of_quit {s : State F} {t : Thread} {loop : EventLoop.State F} (inv : Inv s)
    (published : s.published = true) (may : loopMayStep s (.quit t) = true)
    (step : EventLoop.Step s.loop (.quit t) loop) : PastReset s ∧ loop.quit = true ∧
      loop.pc = s.loop.pc := by
  cases step with
  | quit enabled =>
      cases t with
      | other tid => simp [loopMayStep] at may
      | loop =>
          have inside : s.worker = .inLoop ∧ s.loop.pc.callsOut = true := by
            rcases inv.unpublished published with worker | worker | worker <;>
              simp_all [loopMayStep, EventLoop.mayCall]
          refine ⟨⟨inside.1, ?_, ?_⟩, rfl, rfl⟩ <;> intro pc <;>
            simp [pc, EventLoop.Pc.callsOut] at inside

/-- Before the worker comes to `loop()`, the loop is not published. -/
theorem not_published {s : State F} {w : WorkerPc} (worker : s.worker = w)
    (published : s.published = true →
      s.worker = .callLoop ∨ s.worker = .inLoop ∨ s.worker = .finished)
    (call : w ≠ .callLoop) (inside : w ≠ .inLoop) (finished : w ≠ .finished) :
    s.published ≠ true := by
  subst worker
  intro seen
  rcases published seen with there | there | there
  · exact call there
  · exact inside there
  · exact finished there

/-- A request is only ever made while the worker is inside `loop()` or done with it. -/
theorem Inv.not_requested {s : State F} {w : WorkerPc} (inv : Inv s) (worker : s.worker = w)
    (inside : w ≠ .inLoop) (finished : w ≠ .finished) : s.quitRequested ≠ true := by
  subst worker
  intro asked
  rcases inv.kept asked with done | past
  · exact finished done
  · exact inside past.1.1

/-- The worker runs once the owner has started it. -/
theorem Inv.started {s : State F} {w : WorkerPc} (inv : Inv s) (worker : s.worker = w)
    (runs : w ≠ .notStarted) : s.owner ≠ .constructed := by
  subst worker
  intro owner
  exact runs (inv.unstarted owner)

theorem step_inv {s t : State F} {l : Label F} (inv : Inv s) (meets : QuitsAfterReset s l)
    (step : step s l = some t) : Inv t := by
  cases step_cases step with
  | startThread owner =>
      have hidden := not_published (inv.unstarted owner) inv.unpublished nofun nofun nofun
      have unasked := inv.not_requested (inv.unstarted owner) nofun nofun
      exact ⟨nofun, fun published => absurd published hidden, fun asked => absurd asked unasked⟩
  | returnLoop _ _ => exact ⟨nofun, inv.unpublished, inv.kept⟩
  | setExiting _ => exact ⟨nofun, inv.unpublished, inv.kept⟩
  | join _ _ => exact ⟨nofun, inv.unpublished, inv.kept⟩
  | quit _ _ => exact ⟨nofun, inv.unpublished, fun _ => .inr ⟨meets, rfl⟩⟩
  | construct worker | callbackReturn worker _ =>
      have started := inv.started worker nofun
      have hidden := not_published worker inv.unpublished nofun nofun nofun
      have unasked := inv.not_requested worker nofun nofun
      exact ⟨fun owner => absurd owner started, fun published => absurd published hidden,
        fun asked => absurd asked unasked⟩
  | publish worker =>
      have started := inv.started worker nofun
      have unasked := inv.not_requested worker nofun nofun
      exact ⟨fun owner => absurd owner started, fun _ => .inl rfl,
        fun asked => absurd asked unasked⟩
  | callLoop worker inner =>
      have started := inv.started worker nofun
      have unasked := inv.not_requested worker nofun nofun
      exact ⟨fun owner => absurd owner started, fun _ => .inr (.inl rfl),
        fun asked => absurd asked unasked⟩
  | finish worker pc =>
      have started := inv.started worker nofun
      exact ⟨fun owner => absurd owner started, fun _ => .inr (.inr rfl), fun _ => .inl rfl⟩
  | @loop l loop may inner =>
      refine ⟨inv.unstarted, inv.unpublished, fun asked => ?_⟩
      by_cases before : s.quitRequested = true
      · refine (inv.kept before).imp_right fun ⟨⟨inside, first, second⟩, quitting⟩ => ?_
        obtain ⟨first', second', quitting'⟩ :=
          loop_keeps_quit inner (not_callLoop_of_mayStep may) first second quitting
        exact ⟨⟨inside, first', second'⟩, quitting'⟩
      · -- the request is this very step
        have now : s.published = true ∧ ∃ t, l = .quit t := by
          simp only [before, Bool.false_or, Bool.and_eq_true] at asked
          refine ⟨asked.1, ?_⟩
          cases l <;> simp at asked ⊢
        obtain ⟨published, t, rfl⟩ := now
        obtain ⟨⟨inside, first, second⟩, quitting, pc⟩ :=
          pastReset_of_quit inv published may inner
        exact .inr ⟨⟨inside, by rwa [pc], by rwa [pc]⟩, quitting⟩

theorem reachable_inv {s : State F} (reach : (machine F).ReachableWhere QuitsAfterReset s) :
    Inv s :=
  reach.invariant (fun _ initial => by subst initial; exact ⟨fun _ => rfl, nofun, nofun⟩)
    fun _ _ _ inv meets step => step_inv inv meets step

/-- With `quit_` set, the loop leaves its `while` at the next test: no step enters `poll`. -/
theorem loop_enters_poll {s t : EventLoop.State F} {l : EventLoop.Label F}
    (step : EventLoop.Step s l t) (inPoll : t.pc = .poll) :
    s.pc = .poll ∨ (s.pc = .whileQuit ∧ s.quit = false) := by
  cases step with
  | enterPoll pc running => exact .inr ⟨pc, running⟩
  | testWakeup _ =>
      simp only [EventLoop.testWakeup_eq] at inPoll
      exact .inl inPoll
  | quit _ =>
      simp only [EventLoop.quit_eq] at inPoll
      exact .inl inPoll
  | pushFunctor _ => exact .inl inPoll
  | runQueued _ _ => exact .inl inPoll
  | runHere _ _ => exact .inl inPoll
  | setReady => exact .inl inPoll
  | _ => simp [EventLoop.swapFunctors] at inPoll

/-- **A quit request is not lost, as long as it comes after the reset.** The while
condition is not evaluated with `quit_ == false` again, and the worker does not
enter `poll` again. -/
theorem quitNotLost_of_quitsAfterReset {s : State F}
    (reach : (machine F).ReachableWhere QuitsAfterReset s) :
    QuitNotLost s ∧
      ∀ l loop, s.quitRequested = true → s.worker = .inLoop →
        EventLoop.step s.loop l = some loop → loop.pc = .poll → s.loop.pc = .poll := by
  have kept : s.quitRequested = true → s.worker = .inLoop → s.loop.quit = true := by
    intro asked inside
    rcases (reachable_inv reach).kept asked with worker | past
    · simp [inside] at worker
    · exact past.2
  refine ⟨fun asked inside _ => kept asked inside, fun l loop asked inside inner inPoll => ?_⟩
  rcases loop_enters_poll (EventLoop.step_cases inner) inPoll with pc | ⟨-, running⟩
  · exact pc
  · simp [kept asked inside] at running

/-- The destructor runs while the worker polls; the worker returns and is joined. -/
theorem quitNotLost_of_quitsAfterReset_polling :
    ∃ s : State Nat, s.quitRequested = true ∧ s.loop.pc = .whileQuit ∧ QuitNotLost s ∧
      ∀ l loop, s.quitRequested = true → s.worker = .inLoop →
        EventLoop.step s.loop l = some loop → loop.pc = .poll → s.loop.pc = .poll := by
  let labels : List (Label Nat) :=
    [.startThread, .construct, .callbackReturn, .publish, .returnLoop, .callLoop,
      .loop .setLooping, .loop .resetQuit, .loop .whileQuit, .setExiting, .quit,
      .loop .pollReturn, .loop .eventsHandled, .loop .swapFunctors, .loop .functorsDone]
  have meets : (machine Nat).Meets QuitsAfterReset State.new labels := by decide
  exact ⟨_, rfl, rfl, quitNotLost_of_quitsAfterReset
    ⟨.new, rfl, Machine.leadsWhere_of_run _ meets rfl⟩⟩

/-- The owner destroys the object as soon as `startLoop` returns, before the worker
enters `loop()`: the worker clears `quit_` and polls. -/
theorem quit_lost_before_loop :
    ¬ ∀ s : State Nat, (machine Nat).Reachable s → QuitNotLost s := by
  intro kept
  have run : (machine Nat).run .new
      [.startThread, .construct, .callbackReturn, .publish, .returnLoop, .setExiting, .quit,
        .callLoop, .loop .setLooping, .loop .resetQuit] =
      some { owner := .join, worker := .inLoop, exiting := true, published := true,
             loop := { EventLoop.State.new with looping := true, pc := .whileQuit },
             quitRequested := true } := rfl
  exact absurd (kept _ (Machine.reachable_of_run _ rfl run) rfl rfl rfl) (by decide)

/-! ### A request made before the reset is overwritten -/

/-- Where the two threads stand before the worker has executed `quit_ = false`: a
started owner has seen the loop published, and the worker comes to `loop()` with the
loop untouched and not in the middle of a call of its own. -/
structure Placed (s : State F) : Prop where
  unstarted : s.owner = .constructed → s.worker = .notStarted
  owner : s.owner = .started ∨ s.owner = .callQuit → s.published = true
  published : s.published = true →
    s.worker = .callLoop ∨ s.worker = .inLoop ∨ s.worker = .finished
  outside : s.worker = .callback ∨ s.worker = .publish ∨ s.worker = .callLoop →
    s.loop.pc = .outside ∧ s.loop.looping = false
  free : s.worker = .publish ∨ s.worker = .callLoop ∨
      (s.worker = .inLoop ∧ (s.loop.pc = .setLooping ∨ s.loop.pc = .resetQuit)) →
    .loop ∉ s.loop.queueing

/-- Outside `loop()`, every step but the call of `loop()` stays outside. -/
theorem loop_stays_outside {s t : EventLoop.State F} {l : EventLoop.Label F}
    (step : EventLoop.Step s l t) (called : l ≠ .callLoop) (pc : s.pc = .outside) :
    t.pc = .outside ∧ t.looping = s.looping := by
  cases step with
  | callLoop _ _ => exact absurd rfl called
  | testWakeup _ => simp [pc]
  | quit _ => simp [pc]
  | pushFunctor _ => exact ⟨pc, rfl⟩
  | runQueued _ _ => exact ⟨pc, rfl⟩
  | runHere _ _ => exact ⟨pc, rfl⟩
  | setReady => exact ⟨pc, rfl⟩
  | setLooping here | resetQuit here | enterPoll here _ | exitWhile here _ | pollReturn here
  | eventsHandled here | swapFunctors here | functorReturn here | functorsDone here
  | leave here => cases pc.symm.trans here

/-- The loop thread enters `queueInLoop` only from code that may call its loop. -/
theorem loop_stays_free {s t : EventLoop.State F} {l : EventLoop.Label F}
    (step : EventLoop.Step s l t) (free : .loop ∉ s.queueing)
    (caller : ∀ cb, l ≠ .pushFunctor .loop cb) : .loop ∉ t.queueing := by
  cases step with
  | @pushFunctor u cb _ =>
      cases u with
      | loop => exact absurd rfl (caller cb)
      | other tid => simpa [EventLoop.pushFunctor] using free
  | @runQueued u cb _ elsewhere =>
      cases u with
      | loop => simp [EventLoop.isInLoopThread] at elsewhere
      | other tid => simpa [EventLoop.pushFunctor] using free
  | testWakeup _ =>
      simp only [EventLoop.testWakeup_eq]
      exact fun member => free (List.mem_of_mem_erase member)
  | quit _ => simpa using free
  | _ => exact free

/-- At a statement of `loop()` before the `while`, and at the statements around the
call of `loop()`, the loop thread makes no call. -/
theorem not_push_of_mayStep {s : State F} {l : EventLoop.Label F} {loop : EventLoop.State F}
    (may : loopMayStep s l = true) (inner : EventLoop.Step s.loop l loop)
    (place : s.worker = .publish ∨ s.worker = .callLoop ∨
      (s.worker = .inLoop ∧ (s.loop.pc = .setLooping ∨ s.loop.pc = .resetQuit))) (cb : F) :
    l ≠ .pushFunctor .loop cb := by
  rintro rfl
  cases inner with
  | pushFunctor enabled =>
      simp only [EventLoop.mayCall, Bool.and_eq_true] at enabled
      rcases place with worker | worker | ⟨-, pc | pc⟩
      · simp [loopMayStep, worker] at may
      · simp [loopMayStep, worker] at may
      · simp [pc, EventLoop.Pc.callsOut] at enabled
      · simp [pc, EventLoop.Pc.callsOut] at enabled

/-- Only the call of `loop()` leads to the statements before the `while`. -/
theorem loop_before_reset {s t : EventLoop.State F} {l : EventLoop.Label F}
    (step : EventLoop.Step s l t) (called : l ≠ .callLoop)
    (pc : t.pc = .setLooping ∨ t.pc = .resetQuit) : s.pc = .setLooping ∨ s.pc = .resetQuit := by
  cases step with
  | callLoop _ _ => exact absurd rfl called
  | setLooping here => exact .inl here
  | testWakeup _ => simpa using pc
  | quit _ => simpa using pc
  | pushFunctor _ => exact pc
  | runQueued _ _ => exact pc
  | runHere _ _ => exact pc
  | setReady => exact pc
  | _ => simp [EventLoop.swapFunctors] at pc

theorem step_placed {s t : State F} {l : Label F} (inv : Placed s) (step : step s l = some t) :
    Placed t := by
  obtain ⟨unstarted, owner, published, outside, free⟩ := inv
  cases step_cases step with
  | startThread constructed =>
      have hidden := not_published (unstarted constructed) published nofun nofun nofun
      exact ⟨nofun, nofun, fun seen => absurd seen hidden, nofun, nofun⟩
  | returnLoop _ seen => exact ⟨nofun, fun _ => seen, published, outside, free⟩
  | setExiting before => exact ⟨nofun, fun _ => owner (.inl before), published, outside, free⟩
  | quit _ _ =>
      exact ⟨nofun, nofun, published, by simpa using outside,
        by simpa using free⟩
  | join _ _ => exact ⟨nofun, nofun, published, outside, free⟩
  | construct worker =>
      have hidden := not_published worker published nofun nofun nofun
      exact ⟨fun before => by simp [unstarted before] at worker, owner,
        fun seen => absurd seen hidden, fun _ => ⟨rfl, rfl⟩, nofun⟩
  | callbackReturn worker idle =>
      have hidden := not_published worker published nofun nofun nofun
      exact ⟨fun before => by simp [unstarted before] at worker, owner,
        fun seen => absurd seen hidden, fun _ => outside (.inl worker), fun _ => idle⟩
  | publish worker =>
      exact ⟨fun before => by simp [unstarted before] at worker, fun _ => rfl, fun _ => .inl rfl,
        fun _ => outside (.inr (.inl worker)), fun _ => free (.inl worker)⟩
  | callLoop worker inner =>
      cases inner with
      | callLoop _ _ =>
          exact ⟨fun before => by simp [unstarted before] at worker, owner,
            fun _ => .inr (.inl rfl), nofun, fun _ => free (.inr (.inl worker))⟩
  | finish worker pc =>
      exact ⟨fun before => by simp [unstarted before] at worker, owner,
        fun _ => .inr (.inr rfl), nofun, nofun⟩
  | @loop l loop may inner =>
      have called := not_callLoop_of_mayStep may
      refine ⟨unstarted, owner, published, fun worker => ?_, fun place => ?_⟩
      · obtain ⟨pc, idle⟩ := outside worker
        obtain ⟨pc', idle'⟩ := loop_stays_outside inner called pc
        exact ⟨pc', idle'.trans idle⟩
      · have before : s.worker = .publish ∨ s.worker = .callLoop ∨
            (s.worker = .inLoop ∧ (s.loop.pc = .setLooping ∨ s.loop.pc = .resetQuit)) := by
          refine place.imp_right (Or.imp_right fun ⟨inside, pc⟩ => ⟨inside, ?_⟩)
          exact loop_before_reset inner called pc
        exact loop_stays_free inner (free before) (not_push_of_mayStep may inner before)

theorem reachable_placed {s : State F} (reach : (machine F).Reachable s) : Placed s :=
  reach.invariant
    (fun _ initial => by subst initial; exact ⟨fun _ => rfl, nofun, nofun, nofun, nofun⟩)
    fun _ _ _ inv step => step_placed inv step

/-- From the reset on, the worker comes to the while condition with `quit_` clear. -/
theorem leads_of_resetQuit {s : State F} (inside : s.worker = .inLoop)
    (pc : s.loop.pc = .resetQuit) (free : .loop ∉ s.loop.queueing) :
    (machine F).Leads s
      { s with loop := { s.loop with quit := false, pc := .whileQuit } } := by
  have reset : (machine F).step s (.loop .resetQuit) = some
      { s with loop := { s.loop with quit := false, pc := .whileQuit } } := by
    simp [machine, step, loopMayStep, inside, pc, EventLoop.step, EventLoop.loopStep, free]
  exact .head reset (.refl _)

theorem leads_of_setLooping {s : State F} (inside : s.worker = .inLoop)
    (pc : s.loop.pc = .setLooping) (free : .loop ∉ s.loop.queueing) :
    (machine F).Leads s
      { s with loop := { s.loop with looping := true, quit := false, pc := .whileQuit } } := by
  have set : (machine F).step s (.loop .setLooping) = some
      { s with loop := { s.loop with looping := true, pc := .resetQuit } } := by
    simp [machine, step, loopMayStep, inside, pc, EventLoop.step, EventLoop.loopStep, free]
  exact .head set (leads_of_resetQuit inside rfl free)

theorem leads_of_callLoop {s : State F} (worker : s.worker = .callLoop)
    (pc : s.loop.pc = .outside) (idle : s.loop.looping = false)
    (free : .loop ∉ s.loop.queueing) :
    (machine F).Leads s
      { s with worker := .inLoop,
               loop := { s.loop with looping := true, quit := false, pc := .whileQuit } } := by
  have call : (machine F).step s .callLoop = some
      { s with worker := .inLoop, loop := { s.loop with pc := .setLooping } } := by
    simp [machine, step, worker, pc, idle, EventLoop.step, EventLoop.loopStep, free]
  exact .head call (leads_of_setLooping rfl rfl free)

/-- **The condition is exact.** After a `quit()` of the destructor that comes before
the reset, the worker can evaluate the while condition with `quit_ == false`. -/
theorem early_quit_lost {s t : State F} (reach : (machine F).Reachable s)
    (early : ¬ PastReset s) (quit : step s .quit = some t) :
    ∃ u, (machine F).Leads t u ∧ ¬ QuitNotLost u := by
  obtain ⟨unstarted, owner, published, outside, free⟩ := reachable_placed reach
  cases step_cases quit with
  | quit calling unfinished =>
      have lost : ∀ u : State F, u.quitRequested = true → u.worker = .inLoop →
          u.loop.pc = .whileQuit → u.loop.quit = false → ¬ QuitNotLost u :=
        fun u asked inside pc running kept => by simp [kept asked inside pc] at running
      rcases published (owner (.inr calling)) with worker | worker | worker
      · obtain ⟨pc, idle⟩ := outside (.inr (.inr worker))
        exact ⟨_, leads_of_callLoop worker pc idle (free (.inr (.inl worker))),
          lost _ rfl rfl rfl rfl⟩
      · have before : s.loop.pc = .setLooping ∨ s.loop.pc = .resetQuit := by
          by_contra past
          exact early ⟨worker, fun pc => past (.inl pc), fun pc => past (.inr pc)⟩
        have idle := free (.inr (.inr ⟨worker, before⟩))
        rcases before with pc | pc
        · exact ⟨_, leads_of_setLooping worker pc idle, lost _ rfl worker rfl rfl⟩
        · exact ⟨_, leads_of_resetQuit worker pc idle, lost _ rfl worker rfl rfl⟩
      · exact absurd worker unfinished

end EventLoopThread

end Dbdky.Port
