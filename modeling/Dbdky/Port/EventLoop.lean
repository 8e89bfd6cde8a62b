import Dbdky.Transition.Machine

/-!
`EventLoop` (`src/port/EventLoop.cpp`): one loop thread and any number of other
threads that queue functors to it.

The model is a machine whose steps are the statements that touch shared state.
The loop thread has a program counter (`Pc`); the bodies of event handlers and
of functors are arbitrary, so wherever the loop thread runs one of them it may
make any number of calls on its own loop. Every other thread may call
`queueInLoop`, `runInLoop` and `quit` at any time. `queueInLoop` is two steps,
the `push_back` under the lock and the test that follows it, so that the loop
can move in between.

The bodies of `wakeup` and `handleRead` are empty in the source (`//TODO:`), and
they are empty here.
-/

namespace Dbdky.Port

open Transition

/-- A thread, as `isInLoopThread()` sees it: the one that created the loop, or
another one. -/
inductive Thread where
  | loop
  | other (tid : Nat)
deriving DecidableEq, Repr

namespace EventLoop

variable {F : Type*}

/-- The statement the loop thread is about to execute. -/
inductive Pc (F : Type*) where
  /-- Not inside `loop()`. -/
  | outside
  /-- `looping_ = true` -/
  | setLooping
  /-- `quit_ = false` -/
  | resetQuit
  /-- `while (!quit_)` -/
  | whileQuit
  /-- Inside `poller_->poll`. -/
  | poll
  /-- `eventHandling_` is set; `handleEvent` runs on the active channels. -/
  | handleEvents
  /-- `doPendingFunctors`: `callingPendingFunctors_` is set, the swap is next. -/
  | swapFunctors
  /-- `doPendingFunctors`: the functors of the batch that have not returned yet. -/
  | runFunctors (functors : List F)
  /-- `looping_ = false` -/
  | leave
deriving DecidableEq, Repr

structure State (F : Type*) where
  looping : Bool
  quit : Bool
  eventHandling : Bool
  callingPendingFunctors : Bool
  iteration : Nat
  pendingFunctors : List F
  /-- The counter of the eventfd `wakeupFd_`; the descriptor is readable when it
  is positive. -/
  wakeupFd : Nat
  /-- Some registered descriptor other than `wakeupFd_` is readable. -/
  ready : Bool
  pc : Pc F
  /-- The threads inside `queueInLoop`, past the `push_back` and before the test. -/
  queueing : List Thread
  /-- History: the functors pushed so far, in lock order. -/
  queued : List F
  /-- History: the functors `doPendingFunctors` has executed. -/
  executed : List F
  /-- History: `wakeup()` has made `wakeupFd_` readable since the last `push_back`. -/
  wokenSince : Bool
deriving DecidableEq, Repr

/-- The state after the constructor. -/
def State.new : State F where
  looping := false
  quit := false
  eventHandling := false
  callingPendingFunctors := false
  iteration := 0
  pendingFunctors := []
  wakeupFd := 0
  ready := false
  pc := .outside
  queueing := []
  queued := []
  executed := []
  wokenSince := false

/-! ### The member functions -/

def isInLoopThread : Thread → Bool
  | .loop => true
  | .other _ => false

/-- `wakeup()`: the body is `//TODO:`. -/
def wakeup (s : State F) : State F := s

/-- `handleRead()`, the read callback of `wakeupChannel_`: the body is `//TODO:`. -/
def handleRead (s : State F) : State F := s

/-- `quit()` -/
def quit (s : State F) (t : Thread) : State F :=
  let s := { s with quit := true }
  if !isInLoopThread t then wakeup s else s

/-- The locked block of `queueInLoop`. -/
def pushFunctor (s : State F) (t : Thread) (cb : F) : State F :=
  { s with
    pendingFunctors := s.pendingFunctors ++ [cb]
    queueing := t :: s.queueing
    queued := s.queued ++ [cb]
    wokenSince := false }

/-- The statement of `queueInLoop` after the locked block. -/
def testWakeup (s : State F) (t : Thread) : State F :=
  let s := { s with queueing := s.queueing.erase t }
  if !isInLoopThread t || s.callingPendingFunctors then wakeup s else s

/-- The locked block of `doPendingFunctors`. -/
def swapFunctors (s : State F) : State F :=
  { s with pc := .runFunctors s.pendingFunctors, pendingFunctors := [] }

/-! Since `wakeup` does nothing, neither branch of the two tests matters. -/

@[simp] theorem testWakeup_eq (s : State F) (t : Thread) :
    testWakeup s t = { s with queueing := s.queueing.erase t } := by
  simp [testWakeup, wakeup]

@[simp] theorem quit_eq (s : State F) (t : Thread) : quit s t = { s with quit := true } := by
  simp [quit, wakeup]

/-! ### The steps -/

inductive Label (F : Type*) where
  | callLoop
  | setLooping
  | resetQuit
  | whileQuit
  /-- `poll` returns: a descriptor is readable, or `kPollTimeMs` is over. -/
  | pollReturn
  | eventsHandled
  | swapFunctors
  | functorReturn
  | functorsDone
  | leave
  | pushFunctor (t : Thread) (cb : F)
  | testWakeup (t : Thread)
  | runInLoop (t : Thread) (cb : F)
  | quit (t : Thread)
  /-- The kernel: the other registered descriptors become readable or stop being so. -/
  | setReady (ready : Bool)
deriving DecidableEq, Repr

/-- The loop thread is in code that may call its own loop: outside `loop()`, in an
event handler, or in a functor. -/
def Pc.callsOut : Pc F → Bool
  | .outside | .handleEvents | .runFunctors (_ :: _) => true
  | _ => false

/-- Thread `t` may start a call on the loop. -/
def mayCall (s : State F) (t : Thread) : Bool :=
  (t ∉ s.queueing) && (match t with | .loop => s.pc.callsOut | .other _ => true)

/-- The loop thread executes the statement it stands at. -/
def loopStep (s : State F) (l : Label F) : Option (State F) :=
  match s.pc, l with
  -- assert(!looping_)
  | .outside, .callLoop => if s.looping then none else some { s with pc := .setLooping }
  | .setLooping, .setLooping => some { s with looping := true, pc := .resetQuit }
  | .resetQuit, .resetQuit => some { s with quit := false, pc := .whileQuit }
  | .whileQuit, .whileQuit =>
      if !s.quit then some { s with pc := .poll } else some { s with pc := .leave }
  | .poll, .pollReturn =>
      some { s with iteration := s.iteration + 1, eventHandling := true, pc := .handleEvents }
  | .handleEvents, .eventsHandled =>
      some { s with eventHandling := false, callingPendingFunctors := true, pc := .swapFunctors }
  | .swapFunctors, .swapFunctors => some (swapFunctors s)
  | .runFunctors (cb :: rest), .functorReturn =>
      some { s with pc := .runFunctors rest, executed := s.executed ++ [cb] }
  | .runFunctors [], .functorsDone =>
      some { s with callingPendingFunctors := false, pc := .whileQuit }
  | .leave, .leave => some { s with looping := false, pc := .outside }
  | _, _ => none

/-- One step of any thread, or of the kernel. -/
def step (s : State F) : Label F → Option (State F)
  | .pushFunctor t cb => if mayCall s t then some (pushFunctor s t cb) else none
  | .testWakeup t => if t ∈ s.queueing then some (testWakeup s t) else none
  -- in the loop thread `cb()` runs at once: its body is the steps that follow
  | .runInLoop t cb =>
      if mayCall s t then
        if isInLoopThread t then some s else some (pushFunctor s t cb)
      else none
  | .quit t => if mayCall s t then some (quit s t) else none
  | .setReady ready => some { s with ready }
  -- the loop thread moves on only when its own `queueInLoop` has returned
  | label => if .loop ∈ s.queueing then none else loopStep s label

variable (F) in
/-- All interleavings of the loop thread with calls from other threads. -/
def machine : Machine (State F) (Label F) where
  init s := s = .new
  step := step

/-! ### What a step can do -/

/-- The steps as a relation: the guard each of them passes and the state it leaves. -/
inductive Step : State F → Label F → State F → Prop where
  | callLoop {s} : s.pc = .outside → s.looping = false →
      Step s .callLoop { s with pc := .setLooping }
  | setLooping {s} : s.pc = .setLooping →
      Step s .setLooping { s with looping := true, pc := .resetQuit }
  | resetQuit {s} : s.pc = .resetQuit → Step s .resetQuit { s with quit := false, pc := .whileQuit }
  | enterPoll {s} : s.pc = .whileQuit → s.quit = false → Step s .whileQuit { s with pc := .poll }
  | exitWhile {s} : s.pc = .whileQuit → s.quit = true → Step s .whileQuit { s with pc := .leave }
  | pollReturn {s} : s.pc = .poll →
      Step s .pollReturn
        { s with iteration := s.iteration + 1, eventHandling := true, pc := .handleEvents }
  | eventsHandled {s} : s.pc = .handleEvents →
      Step s .eventsHandled
        { s with eventHandling := false, callingPendingFunctors := true, pc := .swapFunctors }
  | swapFunctors {s} : s.pc = .swapFunctors → Step s .swapFunctors (swapFunctors s)
  | functorReturn {s cb rest} : s.pc = .runFunctors (cb :: rest) →
      Step s .functorReturn { s with pc := .runFunctors rest, executed := s.executed ++ [cb] }
  | functorsDone {s} : s.pc = .runFunctors [] →
      Step s .functorsDone { s with callingPendingFunctors := false, pc := .whileQuit }
  | leave {s} : s.pc = .leave → Step s .leave { s with looping := false, pc := .outside }
  | pushFunctor {s t cb} : mayCall s t = true → Step s (.pushFunctor t cb) (pushFunctor s t cb)
  | testWakeup {s t} : t ∈ s.queueing → Step s (.testWakeup t) (testWakeup s t)
  | runHere {s t cb} : mayCall s t = true → isInLoopThread t = true → Step s (.runInLoop t cb) s
  | runQueued {s t cb} : mayCall s t = true → isInLoopThread t = false →
      Step s (.runInLoop t cb) (pushFunctor s t cb)
  | quit {s t} : mayCall s t = true → Step s (.quit t) (quit s t)
  | setReady {s ready} : Step s (.setReady ready) { s with ready }

theorem loopStep_cases {s t : State F} {l : Label F} (h : loopStep s l = some t) :
    Step s l t := by
  unfold loopStep at h
  split at h
  case h_1 _ _ pc =>
      split at h
      · cases h
      · rename_i idle
        cases h
        exact .callLoop pc (Bool.not_eq_true _ ▸ idle)
  case h_2 _ _ pc => cases h; exact .setLooping pc
  case h_3 _ _ pc => cases h; exact .resetQuit pc
  case h_4 _ _ pc =>
      split at h
      · rename_i running
        cases h
        exact .enterPoll pc (by simpa using running)
      · rename_i quitting
        cases h
        exact .exitWhile pc (by simpa using quitting)
  case h_5 _ _ pc => cases h; exact .pollReturn pc
  case h_6 _ _ pc => cases h; exact .eventsHandled pc
  case h_7 _ _ pc => cases h; exact .swapFunctors pc
  case h_8 _ _ _ _ pc => cases h; exact .functorReturn pc
  case h_9 _ _ pc => cases h; exact .functorsDone pc
  case h_10 _ _ pc => cases h; exact .leave pc
  case h_11 => cases h

/-- **Inversion.** Every invariant of the loop is derived from this lemma; nothing
else unfolds `step`. -/
theorem step_cases {s t : State F} {l : Label F} (h : step s l = some t) : Step s l t := by
  unfold step at h
  split at h
  case h_1 =>
      obtain ⟨may, ⟨⟩⟩ := Option.ite_none_right_eq_some.mp h
      exact .pushFunctor may
  case h_2 =>
      obtain ⟨inside, ⟨⟩⟩ := Option.ite_none_right_eq_some.mp h
      exact .testWakeup inside
  case h_3 =>
      obtain ⟨may, h⟩ := Option.ite_none_right_eq_some.mp h
      split at h
      · rename_i here
        cases h
        exact .runHere may here
      · rename_i elsewhere
        cases h
        exact .runQueued may (Bool.not_eq_true _ ▸ elsewhere)
  case h_4 =>
      obtain ⟨may, ⟨⟩⟩ := Option.ite_none_right_eq_some.mp h
      exact .quit may
  case h_5 => cases h; exact .setReady
  case h_6 => exact loopStep_cases (Option.ite_none_left_eq_some.mp h).2

/-- Every call of `queueInLoop` that is under way can finish first. -/
theorem leads_queueing_nil {guard : Guard (State F) (Label F)}
    (tests : ∀ s t, guard s (.testWakeup t)) (s : State F) :
    (machine F).LeadsWhere guard s { s with queueing := [] } := by
  suffices ∀ threads (s : State F), s.queueing = threads →
      (machine F).LeadsWhere guard s { s with queueing := [] } from this _ s rfl
  intro threads
  induction threads with
  | nil =>
      intro s free
      rw [show { s with queueing := [] } = s by cases s; cases free; rfl]
      exact .refl s
  | cons u rest ih =>
      intro s inside
      have test : (machine F).step s (.testWakeup u) = some { s with queueing := rest } := by
        simp [machine, step, inside]
      exact (Machine.LeadsWhere.refl s |>.tail (tests s u) test).trans
        (ih { s with queueing := rest } rfl)

end EventLoop

end Dbdky.Port
