import Dbdky.BussinessLogic.ComEntity
import Dbdky.Port.EPollPoller
import Dbdky.Port.TimerQueue

/-!
`EventLoop::assertInLoopThread` (`src/port/EventLoop.{h,cpp}`) and everything it guards: the
loop, its poller, its `TimerQueue`, the `EventLoopThreadPool` it is the base loop of, and
the `ComEntity`s and the `ComServer` on it.

Any thread may call any function at any time. What a function does behind its guard is
what the modules of the classes say; the parts of one round of `loop()`, which those
modules put in order, may come in any order here. `quit_` and `pendingFunctors_` are
there for other threads to change and are not owned by the loop's thread. The channels are
those of this loop, so the assertions on their `ownerLoop()` hold.

What `abortNotInLoopThread` does is a parameter, so that the guard of the source, whose
body is commented out, can be compared with one that aborts.

* **`confined_of_aborts`.** With a guard that aborts, no call of another thread gets
  through, and all that the loop owns is changed by its thread only.
* **`confined_iff`.** The guard of the source stops no call. A run keeps the law exactly if
  all guarded functions are called by the thread of the loop.
-/

namespace Dbdky

open Transition

namespace LoopThread

open Port (Fd Channel Kernel Poller Addr Interval TimerId TimerQueue.Label assertIf)
open ComEntity (WriteResult)

/-- What `CurrentThread::tid()` returns. -/
abbrev Tid := Int

/-- Why a step cannot be taken. -/
inductive Stop where
  | disabled
  /-- `abortNotInLoopThread` does not return. -/
  | notInLoopThread
  /-- An assertion fails, or the behaviour is undefined. -/
  | failed
deriving DecidableEq, Repr

/-- The guarded functions. -/
inductive Operation where
  | loop
  | updateChannel (fd : Fd)
  | removeChannel (fd : Fd)
  /-- `Poller::updateChannel` -/
  | pollerUpdateChannel (fd : Fd)
  /-- `Poller::removeChannel` -/
  | pollerRemoveChannel (fd : Fd)
  | addTimerInLoop (timer : Addr)
  | cancelInLoop (timerId : TimerId)
  | insert (timer : Addr)
  /-- `TimerQueue::handleRead` -/
  | handleRead
  /-- `EventLoopThreadPool::start` -/
  | start
  | getNextLoop
  | sendInLoop (com : Nat) (message : List UInt8) (len : Nat)
  | comEstablished (com : Nat) (fd : Fd)
  /-- A port that opens as `fd`. -/
  | createComEntityAndInsert (entityName : String) (fd : Fd)
deriving DecidableEq, Repr

/-- A functor is bound to a guarded function, or it is the user's. -/
inductive Functor where
  | bound (op : Operation)
  | user
deriving DecidableEq, Repr

/-- `EventLoopThreadPool`, with the size of `loops_`. -/
structure Pool where
  started : Bool
  numThreads : Nat
  loops : Nat
  next : Nat
deriving DecidableEq, Repr

variable {σ : Type}

structure State (σ : Type) where
  looping : Bool
  quit : Bool
  eventHandling : Bool
  callingPendingFunctors : Bool
  iteration : Nat
  activeChannels : List Fd
  currentActiveChannel : Option Fd
  pendingFunctors : List Functor
  /-- The channels, and `poller_`. -/
  watch : Poller.State σ
  timerQueue : Port.TimerQueue.State
  pool : Pool
  coms : Nat → ComEntity.State
  /-- The names in `comEntities_` of the `ComServer`. -/
  comEntities : List String
  /-- The threads inside `loop()`. -/
  loopers : List Tid
  /-- What threads have swapped out of `pendingFunctors_` and not called yet. -/
  functors : List (Tid × Functor)
  /-- The thread inside `TimerQueue::handleRead`. -/
  reader : Option Tid

/-- What the thread of a loop owns: the loop, its poller, its timer queue and its pool. -/
structure Owned (σ : Type) where
  looping : Bool
  eventHandling : Bool
  callingPendingFunctors : Bool
  iteration : Nat
  activeChannels : List Fd
  currentActiveChannel : Option Fd
  watch : Poller.State σ
  timers : OrderedSet Port.TimerQueue.Entry
  activeTimers : OrderedSet Port.TimerQueue.ActiveTimer
  callingExpiredTimers : Bool
  cancelingTimers : OrderedSet Port.TimerQueue.ActiveTimer
  pool : Pool

def State.owned (s : State σ) : Owned σ where
  looping := s.looping
  eventHandling := s.eventHandling
  callingPendingFunctors := s.callingPendingFunctors
  iteration := s.iteration
  activeChannels := s.activeChannels
  currentActiveChannel := s.currentActiveChannel
  watch := s.watch
  timers := s.timerQueue.timers
  activeTimers := s.timerQueue.activeTimers
  callingExpiredTimers := s.timerQueue.callingExpiredTimers
  cancelingTimers := s.timerQueue.cancelingTimers
  pool := s.pool

/-! ### The guard -/

/-- `abortNotInLoopThread()`: the body is commented out. -/
def abortNotInLoopThread : Except Stop Unit := .ok ()

def ofOption {α : Type} : Option α → Except Stop α
  | some a => .ok a
  | none => .error .failed

def ofTimer {α : Type} : Except Port.TimerQueue.Stop α → Except Stop α
  | .ok a => .ok a
  | .error .disabled => .error .disabled
  | .error _ => .error .failed

section Code

variable (P : Poller σ) (debug : Bool) (threadId : Tid) (abort : Except Stop Unit)

def isInLoopThread (tid : Tid) : Bool := threadId = tid

def assertInLoopThread (tid : Tid) : Except Stop Unit :=
  if !isInLoopThread threadId tid then abort else .ok ()

/-! ### The guarded functions -/

/-- `loop()`, up to its first round -/
def loop (tid : Tid) (s : State σ) : Except Stop (State σ) := do
  ofOption (assertIf debug (s.looping = false))
  assertInLoopThread threadId abort tid
  .ok { s with looping := true, quit := false, loopers := tid :: s.loopers }

def pollerUpdateChannel (tid : Tid) (fd : Fd) (s : State σ) : Except Stop (State σ) := do
  assertInLoopThread threadId abort tid
  let watch ← ofOption (P.updateChannel fd s.watch)
  .ok { s with watch }

def pollerRemoveChannel (tid : Tid) (fd : Fd) (s : State σ) : Except Stop (State σ) := do
  assertInLoopThread threadId abort tid
  let watch ← ofOption (P.removeChannel fd s.watch)
  .ok { s with watch }

def updateChannel (tid : Tid) (fd : Fd) (s : State σ) : Except Stop (State σ) := do
  assertInLoopThread threadId abort tid
  pollerUpdateChannel P threadId abort tid fd s

def removeChannel (tid : Tid) (fd : Fd) (s : State σ) : Except Stop (State σ) := do
  assertInLoopThread threadId abort tid
  ofOption (assertIf debug (s.eventHandling = true →
    s.currentActiveChannel = some fd ∨ fd ∉ s.activeChannels))
  pollerRemoveChannel P threadId abort tid fd s

/-- A function of the timer queue. -/
def ofTimerQueue (tid : Tid) (label : Port.TimerQueue.Label) (s : State σ) :
    Except Stop (State σ) := do
  assertInLoopThread threadId abort tid
  let timerQueue ← ofTimer (Port.TimerQueue.step s.timerQueue label)
  .ok { s with timerQueue }

def insert (tid : Tid) (timer : Addr) (s : State σ) : Except Stop (State σ) := do
  assertInLoopThread threadId abort tid
  let (_, timerQueue) ← ofTimer (Port.TimerQueue.insert s.timerQueue timer)
  .ok { s with timerQueue }

/-- `EventLoopThreadPool::start` -/
def start (tid : Tid) (s : State σ) : Except Stop (State σ) := do
  ofOption (assertIf debug (s.pool.started = false))
  assertInLoopThread threadId abort tid
  .ok { s with pool := { s.pool with started := true, loops := s.pool.loops + s.pool.numThreads } }

/-- 0 is the base loop, the others are those of the pool. -/
def getNextLoop (tid : Tid) (s : State σ) : Except Stop (Nat × State σ) := do
  assertInLoopThread threadId abort tid
  if s.pool.loops = 0 then .ok (0, s)
  else
    let next := s.pool.next + 1
    .ok (s.pool.next + 1,
      { s with pool := { s.pool with next := if next ≥ s.pool.loops then 0 else next } })

/-- When all has been written, `writeCompleteCallback_` is queued. -/
def sendInLoop (tid : Tid) (com : Nat) (message : List UInt8) (len : Nat) (write : WriteResult)
    (s : State σ) : Except Stop (State σ) := do
  assertInLoopThread threadId abort tid
  let entity ← ofOption (ComEntity.sendInLoop { s.coms com with queue := [] } message len write)
  .ok { s with
    coms := Function.update s.coms com { entity with queue := [] }
    pendingFunctors := s.pendingFunctors ++ entity.queue.map fun _ => .user }

def comEstablished (tid : Tid) (com : Nat) (fd : Fd) (s : State σ) : Except Stop (State σ) := do
  assertInLoopThread threadId abort tid
  ofOption (assertIf debug ((s.coms com).state = .kOpened))
  let watch := s.watch.modify fd fun c => { c with tied := true, tieAlive := true }
  let watch := watch.setEvents fd ((watch.channels fd).events ||| Channel.kReadEvent)
  updateChannel P threadId abort tid fd { s with watch }

/-- An entity on a loop of the pool is established there. -/
def createComEntityAndInsert (tid : Tid) (entityName : String) (fd : Fd) (s : State σ) :
    Except Stop (State σ) := do
  assertInLoopThread threadId abort tid
  if entityName ∈ s.comEntities then .ok s
  else
    let (ioLoop, s) ← getNextLoop threadId abort tid s
    let com := s.comEntities.length
    let s := { s with comEntities := s.comEntities ++ [entityName] }
    if ioLoop ≠ 0 then .ok s
    else if isInLoopThread threadId tid then comEstablished P debug threadId abort tid com fd s
    else .ok { s with pendingFunctors := s.pendingFunctors ++ [.bound (.comEstablished com fd)] }

/-- The thread `tid` calls a guarded function. `write` is what `::write` does, where it is
called. -/
def call (tid : Tid) (op : Operation) (write : WriteResult) (s : State σ) :
    Except Stop (State σ) :=
  match op with
  | .loop => loop debug threadId abort tid s
  | .updateChannel fd => updateChannel P threadId abort tid fd s
  | .removeChannel fd => removeChannel P debug threadId abort tid fd s
  | .pollerUpdateChannel fd => pollerUpdateChannel P threadId abort tid fd s
  | .pollerRemoveChannel fd => pollerRemoveChannel P threadId abort tid fd s
  | .addTimerInLoop timer => ofTimerQueue threadId abort tid (.addTimerInLoop timer) s
  | .cancelInLoop timerId => ofTimerQueue threadId abort tid (.cancelInLoop timerId) s
  | .insert timer => insert threadId abort tid timer s
  | .handleRead => do
      let s ← ofTimerQueue threadId abort tid .handleRead s
      .ok { s with reader := some tid }
  | .start => start debug threadId abort tid s
  | .getNextLoop => do
      let (_, s) ← getNextLoop threadId abort tid s
      .ok s
  | .sendInLoop com message len => sendInLoop threadId abort tid com message len write s
  | .comEstablished com fd => comEstablished P debug threadId abort tid com fd s
  | .createComEntityAndInsert entityName fd =>
      createComEntityAndInsert P debug threadId abort tid entityName fd s

/-! ### The functions for any thread -/

/-- `wakeup()` is empty. -/
def queueInLoop (functor : Functor) (s : State σ) : State σ :=
  { s with pendingFunctors := s.pendingFunctors ++ [functor] }

/-- What the user's functor calls are steps of their own. -/
def Functor.run (tid : Tid) (functor : Functor) (write : WriteResult) (s : State σ) :
    Except Stop (State σ) :=
  match functor with
  | .bound op => call P debug threadId abort tid op write s
  | .user => .ok s

def runInLoop (tid : Tid) (functor : Functor) (write : WriteResult) (s : State σ) :
    Except Stop (State σ) :=
  if isInLoopThread threadId tid then functor.run P debug threadId abort tid write s
  else .ok (queueInLoop functor s)

def addTimer (tid : Tid) (timer : Addr) (when : Int) (interval : Interval) (write : WriteResult)
    (s : State σ) : Except Stop (State σ) := do
  let timerQueue ← ofTimer (Port.TimerQueue.newTimer s.timerQueue timer when interval)
  runInLoop P debug threadId abort tid (.bound (.addTimerInLoop timer)) write { s with timerQueue }

def cancel (tid : Tid) (timerId : TimerId) (write : WriteResult) (s : State σ) :
    Except Stop (State σ) :=
  runInLoop P debug threadId abort tid (.bound (.cancelInLoop timerId)) write s

/-- `ComEntity::send` -/
def send (tid : Tid) (com : Nat) (message : List UInt8) (write : WriteResult) (s : State σ) :
    Except Stop (State σ) :=
  if (s.coms com).state = .kOpened then
    runInLoop P debug threadId abort tid (.bound (.sendInLoop com message message.length)) write s
  else .ok s

end Code

/-! ### The steps -/

inductive Label where
  /-- A thread calls a guarded function. -/
  | call (tid : Tid) (op : Operation) (write : WriteResult)
  | quit (tid : Tid)
  | queueInLoop (tid : Tid) (functor : Functor)
  | runInLoop (tid : Tid) (functor : Functor) (write : WriteResult)
  | addTimer (tid : Tid) (timer : Addr) (when : Int) (interval : Interval) (write : WriteResult)
  | cancel (tid : Tid) (timerId : TimerId) (write : WriteResult)
  | send (tid : Tid) (com : Nat) (message : List UInt8) (write : WriteResult)
  /-- A thread inside `loop()`: `poll` returns. -/
  | poll (tid : Tid) (kernel : Kernel)
  /-- `handleEvent` of an active channel; what the callback calls are further steps. -/
  | handleEvent (tid : Tid) (fd : Fd)
  | eventsHandled (tid : Tid)
  | doPendingFunctors (tid : Tid)
  /-- The first functor that the thread has swapped out is called. -/
  | callFunctor (tid : Tid) (write : WriteResult)
  | functorsDone (tid : Tid)
  | leave (tid : Tid)
  /-- A thread inside `TimerQueue::handleRead`: a callback, or a round of `reset`. -/
  | reading (tid : Tid) (label : Port.TimerQueue.Label)
  /-- The clock advances, or the timerfd expires. -/
  | kernel (label : Port.TimerQueue.Label)

/-- The thread that makes the step. -/
def Label.caller : Label → Option Tid
  | .call tid .. | .quit tid | .queueInLoop tid _ | .runInLoop tid .. | .addTimer tid ..
  | .cancel tid .. | .send tid .. | .poll tid _ | .handleEvent tid _ | .eventsHandled tid
  | .doPendingFunctors tid | .callFunctor tid _ | .functorsDone tid | .leave tid
  | .reading tid _ => some tid
  | .kernel _ => none

section Steps

variable (P : Poller σ) (debug : Bool) (threadId : Tid) (abort : Except Stop Unit)

/-- A step of a thread that is inside `loop()`. -/
def inLoop (tid : Tid) (s : State σ) (next : Except Stop (State σ)) : Except Stop (State σ) :=
  if tid ∈ s.loopers then next else .error .disabled

def step (s : State σ) : Label → Except Stop (State σ)
  | .call tid op write => call P debug threadId abort tid op write s
  | .quit _ => .ok { s with quit := true }
  | .queueInLoop _ functor => .ok (queueInLoop functor s)
  | .runInLoop tid functor write => runInLoop P debug threadId abort tid functor write s
  | .addTimer tid timer when interval write =>
      addTimer P debug threadId abort tid timer when interval write s
  | .cancel tid timerId write => cancel P debug threadId abort tid timerId write s
  | .send tid com message write => send P debug threadId abort tid com message write s
  | .poll tid kernel => inLoop tid s do
      let (watch, activeChannels) ← ofOption (P.poll kernel s.watch)
      .ok { s with watch, activeChannels, iteration := s.iteration + 1, eventHandling := true }
  | .handleEvent tid fd =>
      if fd ∈ s.activeChannels then
        inLoop tid s (.ok { s with currentActiveChannel := some fd })
      else .error .disabled
  | .eventsHandled tid =>
      inLoop tid s (.ok { s with currentActiveChannel := none, eventHandling := false })
  | .doPendingFunctors tid => inLoop tid s (.ok { s with
      callingPendingFunctors := true
      pendingFunctors := []
      functors := s.functors ++ s.pendingFunctors.map (tid, ·) })
  | .callFunctor tid write =>
      match s.functors.find? fun entry => entry.1 = tid with
      | some entry => entry.2.run P debug threadId abort tid write
          { s with functors := s.functors.eraseP fun entry => entry.1 = tid }
      | none => .error .disabled
  | .functorsDone tid => inLoop tid s (.ok { s with callingPendingFunctors := false })
  | .leave tid =>
      inLoop tid s (.ok { s with looping := false, loopers := s.loopers.erase tid })
  | .reading tid label =>
      if s.reader = some tid ∧
          (label = .run ∨ label = .reset ∨ label = .resetNext ∨ label = .rearm) then do
        let timerQueue ← ofTimer (Port.TimerQueue.step s.timerQueue label)
        .ok { s with timerQueue }
      else .error .disabled
  | .kernel label =>
      match label with
      | .tick _ | .expire => do
          let timerQueue ← ofTimer (Port.TimerQueue.step s.timerQueue label)
          .ok { s with timerQueue }
      | _ => .error .disabled

/-- All interleavings of any threads, from any state in which none of them is inside a function
of the loop. -/
def machine : Machine (State σ) Label where
  init s := s.loopers = [] ∧ s.functors = [] ∧ s.reader = none
  step s label := (step P debug threadId abort s label).toOption

end Steps

/-! ### The law -/

section Law

variable (P : Poller σ) (debug : Bool) (threadId : Tid) (abort : Except Stop Unit)

/-- No call of another thread gets through, and only the thread of the loop changes what the loop
owns. -/
structure Lawful (s : State σ) (label : Label) : Prop where
  stopped : ∀ tid op write, label = .call tid op write → tid ≠ threadId →
    ∀ t, (machine P debug threadId abort).step s label ≠ some t
  confined : ∀ t, (machine P debug threadId abort).step s label = some t →
    label.caller ≠ some threadId → t.owned = s.owned

/-- Guarded functions are called by the thread of the loop. -/
def OwnerCalls (_ : State σ) : Label → Prop
  | .call tid _ _ => tid = threadId
  | _ => True

instance (s : State σ) (label : Label) : Decidable (OwnerCalls threadId s label) :=
  match label with
  | .call tid _ _ => inferInstanceAs (Decidable (tid = threadId))
  | .quit _ | .queueInLoop .. | .runInLoop .. | .addTimer .. | .cancel .. | .send .. | .poll ..
  | .handleEvent .. | .eventsHandled _ | .doPendingFunctors _ | .callFunctor .. | .functorsDone _
  | .leave _ | .reading .. | .kernel _ => inferInstanceAs (Decidable True)

theorem ownerCalls_iff (s : State σ) (label : Label) :
    OwnerCalls threadId s label ↔ ∀ tid op write, label = .call tid op write → tid = threadId := by
  constructor
  · rintro owner tid op write rfl
    exact owner
  · intro owner
    cases label with
    | call tid op write => exact owner tid op write rfl
    | _ => exact trivial

/-- Only the thread of the loop is inside a function of the loop. -/
structure Inv (s : State σ) : Prop where
  loopers : ∀ tid ∈ s.loopers, tid = threadId
  functors : ∀ entry ∈ s.functors, entry.1 = threadId
  reader : ∀ tid, s.reader = some tid → tid = threadId

end Law

/-! ### What gets through -/

section Through

variable {P : Poller σ} {debug : Bool} {threadId tid : Tid} {abort : Except Stop Unit}
  {s t : State σ} {write : WriteResult}

theorem bind_eq_ok {α β : Type} {x : Except Stop α} {f : α → Except Stop β} {b : β}
    (ok : (x >>= f) = .ok b) : ∃ a, x = .ok a ∧ f a = .ok b := by
  cases x with
  | error stop => cases ok
  | ok a => exact ⟨a, rfl, ok⟩

theorem bind_ne_stop {α β : Type} {x : Except Stop α} {f : α → Except Stop β} {stop : Stop}
    (first : x ≠ .error stop) (rest : ∀ a, f a ≠ .error stop) : (x >>= f) ≠ .error stop := by
  cases x with
  | error other =>
      intro same
      cases same
      exact first rfl
  | ok a => exact rest a

theorem ofOption_ne {α : Type} (x : Option α) : ofOption x ≠ .error .notInLoopThread := by
  cases x <;> exact nofun

theorem ofTimer_ne {α : Type} (x : Except Port.TimerQueue.Stop α) :
    ofTimer x ≠ .error .notInLoopThread := by
  rcases x with (_ | _ | _) | _ <;> exact nofun

/-- The guard of the source lets every thread through. -/
theorem assertInLoopThread_ok (threadId tid : Tid) :
    assertInLoopThread threadId abortNotInLoopThread tid = .ok () := by
  unfold assertInLoopThread abortNotInLoopThread
  split <;> rfl

theorem assertInLoopThread_ne (threadId tid : Tid) :
    assertInLoopThread threadId abortNotInLoopThread tid ≠ .error .notInLoopThread := by
  rw [assertInLoopThread_ok]
  exact nofun

/-- A guard that aborts stops every other thread. -/
theorem not_passed (stop : Stop) (other : tid ≠ threadId) :
    ¬ ∃ u, assertInLoopThread threadId (.error stop) tid = .ok u := by
  rintro ⟨u, passed⟩
  have outside : (!isInLoopThread threadId tid) = true := by
    rw [isInLoopThread, decide_eq_false (Ne.symm other)]
    rfl
  rw [assertInLoopThread, if_pos outside] at passed
  cases passed

/-- **The guard of the source stops no call.** -/
theorem call_not_stopped (op : Operation) :
    call P debug threadId abortNotInLoopThread tid op write s ≠ .error .notInLoopThread := by
  have guard := assertInLoopThread_ne threadId tid
  have poller (fd : Fd) (s : State σ) :
      pollerUpdateChannel P threadId abortNotInLoopThread tid fd s ≠ .error .notInLoopThread :=
    bind_ne_stop guard fun _ => bind_ne_stop (ofOption_ne _) fun _ => nofun
  have update (fd : Fd) (s : State σ) :
      updateChannel P threadId abortNotInLoopThread tid fd s ≠ .error .notInLoopThread :=
    bind_ne_stop guard fun _ => poller fd s
  have pollerRemove (fd : Fd) :
      pollerRemoveChannel P threadId abortNotInLoopThread tid fd s ≠ .error .notInLoopThread :=
    bind_ne_stop guard fun _ => bind_ne_stop (ofOption_ne _) fun _ => nofun
  have timer (label : Port.TimerQueue.Label) :
      ofTimerQueue threadId abortNotInLoopThread tid label s ≠ .error .notInLoopThread :=
    bind_ne_stop guard fun _ => bind_ne_stop (ofTimer_ne _) fun _ => nofun
  have next : getNextLoop threadId abortNotInLoopThread tid s ≠ .error .notInLoopThread := by
    refine bind_ne_stop guard fun _ => ?_
    split <;> exact nofun
  have establish (com : Nat) (fd : Fd) (s : State σ) :
      comEstablished P debug threadId abortNotInLoopThread tid com fd s ≠
        .error .notInLoopThread :=
    bind_ne_stop guard fun _ => bind_ne_stop (ofOption_ne _) fun _ => update fd _
  cases op with
  | loop => exact bind_ne_stop (ofOption_ne _) fun _ => bind_ne_stop guard fun _ => nofun
  | updateChannel fd => exact update fd s
  | removeChannel fd =>
      exact bind_ne_stop guard fun _ => bind_ne_stop (ofOption_ne _) fun _ => pollerRemove fd
  | pollerUpdateChannel fd => exact poller fd s
  | pollerRemoveChannel fd => exact pollerRemove fd
  | addTimerInLoop addr => exact timer (.addTimerInLoop addr)
  | cancelInLoop timerId => exact timer (.cancelInLoop timerId)
  | insert addr => exact bind_ne_stop guard fun _ => bind_ne_stop (ofTimer_ne _) fun _ => nofun
  | handleRead => exact bind_ne_stop (timer .handleRead) fun _ => nofun
  | start => exact bind_ne_stop (ofOption_ne _) fun _ => bind_ne_stop guard fun _ => nofun
  | getNextLoop => exact bind_ne_stop next fun _ => nofun
  | sendInLoop com message len =>
      exact bind_ne_stop guard fun _ => bind_ne_stop (ofOption_ne _) fun _ => nofun
  | comEstablished com fd => exact establish com fd s
  | createComEntityAndInsert entityName fd =>
      refine bind_ne_stop guard fun _ => ?_
      split
      · exact nofun
      · refine bind_ne_stop next fun found => ?_
        dsimp only
        split
        · exact nofun
        · split
          · exact establish _ fd _
          · exact nofun

/-- A guard that aborts lets no other thread through. -/
theorem call_stopped {stop : Stop} (other : tid ≠ threadId) (op : Operation) :
    call P debug threadId (.error stop) tid op write s ≠ .ok t := by
  have guard := not_passed stop other
  intro ok
  cases op with
  | loop | start =>
      obtain ⟨-, -, ok⟩ := bind_eq_ok ok
      obtain ⟨u, passed, -⟩ := bind_eq_ok ok
      exact guard ⟨u, passed⟩
  | handleRead | getNextLoop =>
      obtain ⟨result, inner, -⟩ := bind_eq_ok ok
      obtain ⟨u, passed, -⟩ := bind_eq_ok inner
      exact guard ⟨u, passed⟩
  | updateChannel _ | removeChannel _ | pollerUpdateChannel _ | pollerRemoveChannel _
  | addTimerInLoop _ | cancelInLoop _ | insert _ | sendInLoop _ _ _ | comEstablished _ _
  | createComEntityAndInsert _ _ =>
      obtain ⟨u, passed, -⟩ := bind_eq_ok ok
      exact guard ⟨u, passed⟩

/-! ### Which threads are inside -/

/-- Where threads are. -/
def State.inside (s : State σ) : List Tid × List (Tid × Functor) × Option Tid :=
  (s.loopers, s.functors, s.reader)

/-- A guarded function lets nobody in but its caller. -/
structure Within (tid : Tid) (s t : State σ) : Prop where
  loopers : ∀ other ∈ t.loopers, other = tid ∨ other ∈ s.loopers
  functors : t.functors = s.functors
  reader : t.reader = some tid ∨ t.reader = s.reader

theorem Within.of_inside (same : t.inside = s.inside) : Within tid s t := by
  obtain ⟨loopers, functors, reader⟩ : t.loopers = s.loopers ∧ t.functors = s.functors ∧
      t.reader = s.reader := by simpa only [State.inside, Prod.mk.injEq] using same
  exact ⟨fun other mem => .inr (loopers ▸ mem), functors, .inr reader⟩

theorem pollerUpdateChannel_inside {fd : Fd}
    (ok : pollerUpdateChannel P threadId abort tid fd s = .ok t) : t.inside = s.inside := by
  obtain ⟨-, -, ok⟩ := bind_eq_ok ok
  obtain ⟨watch, -, ⟨⟩⟩ := bind_eq_ok ok
  rfl

theorem comEstablished_inside {com : Nat} {fd : Fd}
    (ok : comEstablished P debug threadId abort tid com fd s = .ok t) : t.inside = s.inside := by
  obtain ⟨-, -, ok⟩ := bind_eq_ok ok
  obtain ⟨-, -, ok⟩ := bind_eq_ok ok
  obtain ⟨-, -, ok⟩ := bind_eq_ok ok
  have inside := pollerUpdateChannel_inside ok
  exact inside

theorem getNextLoop_inside {ioLoop : Nat}
    (ok : getNextLoop threadId abort tid s = .ok (ioLoop, t)) : t.inside = s.inside := by
  obtain ⟨-, -, ok⟩ := bind_eq_ok ok
  split at ok <;> cases ok <;> rfl

theorem ofTimerQueue_inside {label : Port.TimerQueue.Label}
    (ok : ofTimerQueue threadId abort tid label s = .ok t) : t.inside = s.inside := by
  obtain ⟨-, -, ok⟩ := bind_eq_ok ok
  obtain ⟨timerQueue, -, ⟨⟩⟩ := bind_eq_ok ok
  rfl

theorem createComEntityAndInsert_inside {entityName : String} {fd : Fd}
    (ok : createComEntityAndInsert P debug threadId abort tid entityName fd s = .ok t) :
    t.inside = s.inside := by
  obtain ⟨-, -, ok⟩ := bind_eq_ok ok
  split at ok
  · cases ok
    rfl
  · obtain ⟨⟨ioLoop, next⟩, found, ok⟩ := bind_eq_ok ok
    have inside := getNextLoop_inside found
    dsimp only at ok
    split at ok
    · cases ok
      exact inside
    · split at ok
      · exact (comEstablished_inside ok).trans inside
      · cases ok
        exact inside

theorem call_within {op : Operation} (ok : call P debug threadId abort tid op write s = .ok t) :
    Within tid s t := by
  cases op with
  | loop =>
      obtain ⟨-, -, ok⟩ := bind_eq_ok ok
      obtain ⟨-, -, ⟨⟩⟩ := bind_eq_ok ok
      exact ⟨fun other mem => List.mem_cons.mp mem, rfl, .inr rfl⟩
  | handleRead =>
      obtain ⟨read, began, ⟨⟩⟩ := bind_eq_ok ok
      have within : Within tid s read := .of_inside (ofTimerQueue_inside began)
      exact ⟨within.loopers, within.functors, .inl rfl⟩
  | pollerUpdateChannel fd => exact .of_inside (pollerUpdateChannel_inside ok)
  | updateChannel fd =>
      obtain ⟨-, -, ok⟩ := bind_eq_ok ok
      exact .of_inside (pollerUpdateChannel_inside ok)
  | pollerRemoveChannel fd =>
      obtain ⟨-, -, ok⟩ := bind_eq_ok ok
      obtain ⟨watch, -, ⟨⟩⟩ := bind_eq_ok ok
      exact .of_inside rfl
  | removeChannel fd =>
      obtain ⟨-, -, ok⟩ := bind_eq_ok ok
      obtain ⟨-, -, ok⟩ := bind_eq_ok ok
      obtain ⟨-, -, ok⟩ := bind_eq_ok ok
      obtain ⟨watch, -, ⟨⟩⟩ := bind_eq_ok ok
      exact .of_inside rfl
  | addTimerInLoop timer => exact .of_inside (ofTimerQueue_inside ok)
  | cancelInLoop timerId => exact .of_inside (ofTimerQueue_inside ok)
  | insert timer =>
      obtain ⟨-, -, ok⟩ := bind_eq_ok ok
      obtain ⟨inserted, -, ⟨⟩⟩ := bind_eq_ok ok
      exact .of_inside rfl
  | start =>
      obtain ⟨-, -, ok⟩ := bind_eq_ok ok
      obtain ⟨-, -, ⟨⟩⟩ := bind_eq_ok ok
      exact .of_inside rfl
  | getNextLoop =>
      obtain ⟨⟨ioLoop, next⟩, found, ⟨⟩⟩ := bind_eq_ok ok
      exact .of_inside (getNextLoop_inside found)
  | sendInLoop com message len =>
      obtain ⟨-, -, ok⟩ := bind_eq_ok ok
      obtain ⟨entity, -, ⟨⟩⟩ := bind_eq_ok ok
      exact .of_inside rfl
  | comEstablished com fd => exact .of_inside (comEstablished_inside ok)
  | createComEntityAndInsert entityName fd =>
      exact .of_inside (createComEntityAndInsert_inside ok)

/-! ### What a step may do -/

theorem Inv.within (inv : Inv threadId s) (within : Within threadId s t) : Inv threadId t where
  loopers other mem := (within.loopers other mem).elim id (inv.loopers other)
  functors := by
    rw [within.functors]
    exact inv.functors
  reader other := by
    intro inside
    rcases within.reader with caller | same
    · exact (Option.some.inj (caller.symm.trans inside)).symm
    · exact inv.reader other (same ▸ inside)

/-- A functor that is run is run by the thread of the loop, or it is queued. -/
theorem runInLoop_spec {functor : Functor}
    (ok : runInLoop P debug threadId abort tid functor write s = .ok t) :
    (tid = threadId ∧ Within threadId s t) ∨
      (tid ≠ threadId ∧ t.owned = s.owned ∧ t.inside = s.inside) := by
  unfold runInLoop at ok
  split at ok
  case isTrue inside =>
    have same : threadId = tid := of_decide_eq_true inside
    refine .inl ⟨same.symm, ?_⟩
    rw [← same] at ok
    cases functor with
    | bound op => exact call_within ok
    | user =>
        cases ok
        exact .of_inside rfl
  case isFalse outside =>
    cases ok
    refine .inr ⟨fun same => outside (decide_eq_true same.symm), rfl, rfl⟩

theorem of_ofTimer {α : Type} {x : Except Port.TimerQueue.Stop α} {a : α}
    (ok : ofTimer x = .ok a) : x = .ok a := by
  rcases x with (_ | _ | _) | _ <;> cases ok
  rfl

theorem newTimer_owned {q q' : Port.TimerQueue.State} {timer : Addr} {when : Int}
    {interval : Interval} (ok : Port.TimerQueue.newTimer q timer when interval = .ok q') :
    ({ s with timerQueue := q' } : State σ).owned =
      ({ s with timerQueue := q } : State σ).owned := by
  unfold Port.TimerQueue.newTimer at ok
  split at ok <;> cases ok
  rfl

theorem kernel_owned {q q' : Port.TimerQueue.State} {label : Port.TimerQueue.Label}
    (kernel : (∃ delay, label = .tick delay) ∨ label = .expire)
    (ok : Port.TimerQueue.step q label = .ok q') :
    ({ s with timerQueue := q' } : State σ).owned =
      ({ s with timerQueue := q } : State σ).owned := by
  rcases kernel with ⟨delay, rfl⟩ | rfl
  · cases ok
    rfl
  · unfold Port.TimerQueue.step at ok
    dsimp only at ok
    split at ok
    · split at ok <;> cases ok
      rfl
    · cases ok

/-- What a step keeps if it is no call of a guarded function by another thread. -/
structure Kept (threadId : Tid) (s : State σ) (label : Label) (t : State σ) : Prop where
  inv : Inv threadId t
  confined : label.caller ≠ some threadId → t.owned = s.owned

theorem Kept.of_owner {label : Label} (inv : Inv threadId s) (caller : label.caller = some threadId)
    (within : Within threadId s t) : Kept threadId s label t :=
  ⟨inv.within within, fun other => absurd caller other⟩

theorem Kept.of_other {label : Label} (inv : Inv threadId s) (owned : t.owned = s.owned)
    (inside : t.inside = s.inside) : Kept threadId s label t :=
  ⟨inv.within (.of_inside inside), fun _ => owned⟩

/-- The same of functions that any thread may call. -/
theorem Kept.of_runInLoop {label : Label} {functor : Functor} {s' : State σ}
    (inv : Inv threadId s) (caller : label.caller = some tid) (owned : s'.owned = s.owned)
    (inside : s'.inside = s.inside)
    (ok : runInLoop P debug threadId abort tid functor write s' = .ok t) :
    Kept threadId s label t := by
  have inv' : Inv threadId s' := inv.within (.of_inside inside)
  rcases runInLoop_spec ok with ⟨rfl, within⟩ | ⟨-, owned', inside'⟩
  · exact ⟨inv'.within within, fun other => absurd caller other⟩
  · exact .of_other inv (owned'.trans owned) (inside'.trans inside)

/-- A thread inside `loop()` is the thread of the loop. -/
theorem Inv.looper (inv : Inv threadId s) {next : Except Stop (State σ)}
    (ok : inLoop tid s next = .ok t) : tid = threadId ∧ next = .ok t := by
  unfold inLoop at ok
  split at ok
  · rename_i mem
    exact ⟨inv.loopers tid mem, ok⟩
  · cases ok

theorem step_kept {label : Label} (inv : Inv threadId s) (owner : OwnerCalls threadId s label)
    (ok : step P debug threadId abort s label = .ok t) : Kept threadId s label t := by
  cases label with
  | call tid op write =>
      obtain rfl : tid = threadId := owner
      exact .of_owner inv rfl (call_within ok)
  | quit tid | queueInLoop tid functor =>
      cases ok
      exact .of_other inv rfl rfl
  | runInLoop tid functor write => exact .of_runInLoop inv rfl rfl rfl ok
  | cancel tid timerId write => exact .of_runInLoop inv rfl rfl rfl ok
  | addTimer tid timer when interval write =>
      obtain ⟨timerQueue, made, ok⟩ := bind_eq_ok ok
      exact .of_runInLoop inv rfl (newTimer_owned (of_ofTimer made)) rfl ok
  | send tid com message write =>
      unfold step send at ok
      dsimp only at ok
      split at ok
      · exact .of_runInLoop inv rfl rfl rfl ok
      · cases ok
        exact .of_other inv rfl rfl
  | poll tid kernel =>
      obtain ⟨rfl, polls⟩ := inv.looper ok
      obtain ⟨polled, -, ⟨⟩⟩ := bind_eq_ok polls
      exact .of_owner inv rfl (.of_inside rfl)
  | handleEvent tid fd =>
      unfold step at ok
      dsimp only at ok
      split at ok
      · obtain ⟨rfl, ⟨⟩⟩ := inv.looper ok
        exact .of_owner inv rfl (.of_inside rfl)
      · cases ok
  | eventsHandled tid | functorsDone tid =>
      obtain ⟨rfl, ⟨⟩⟩ := inv.looper ok
      exact .of_owner inv rfl (.of_inside rfl)
  | doPendingFunctors tid =>
      obtain ⟨rfl, ⟨⟩⟩ := inv.looper ok
      refine ⟨⟨inv.loopers, fun entry mem => ?_, inv.reader⟩, fun other => absurd rfl other⟩
      rcases List.mem_append.mp mem with old | new
      · exact inv.functors entry old
      · obtain ⟨functor, -, rfl⟩ := List.mem_map.mp new
        rfl
  | callFunctor tid write =>
      unfold step at ok
      dsimp only at ok
      split at ok
      · rename_i entry found
        have same : entry.1 = tid := by simpa using List.find?_some found
        have owner := inv.functors entry (List.mem_of_find?_eq_some found)
        obtain rfl : tid = threadId := same.symm.trans owner
        have rest : Inv tid { s with functors := s.functors.eraseP fun e => e.1 = tid } :=
          ⟨inv.loopers, fun e mem => inv.functors e (List.mem_of_mem_eraseP mem), inv.reader⟩
        refine ⟨?_, fun other => absurd rfl other⟩
        obtain ⟨caller, functor⟩ := entry
        cases functor with
        | bound op => exact rest.within (call_within ok)
        | user =>
            cases ok
            exact rest
      · cases ok
  | leave tid =>
      obtain ⟨rfl, ⟨⟩⟩ := inv.looper ok
      exact .of_owner inv rfl ⟨fun other mem => .inr (List.mem_of_mem_erase mem), rfl, .inr rfl⟩
  | reading tid label =>
      unfold step at ok
      dsimp only at ok
      split at ok
      · rename_i inside
        obtain rfl := inv.reader tid inside.1
        obtain ⟨timerQueue, -, ⟨⟩⟩ := bind_eq_ok ok
        exact .of_owner inv rfl (.of_inside rfl)
      · cases ok
  | kernel label =>
      unfold step at ok
      dsimp only at ok
      split at ok
      · rename_i delay
        obtain ⟨timerQueue, moved, ⟨⟩⟩ := bind_eq_ok ok
        exact .of_other inv (kernel_owned (.inl ⟨delay, rfl⟩) (of_ofTimer moved)) rfl
      · obtain ⟨timerQueue, moved, ⟨⟩⟩ := bind_eq_ok ok
        exact .of_other inv (kernel_owned (.inr rfl) (of_ofTimer moved)) rfl
      · cases ok

theorem machine_step_iff {label : Label} :
    (machine P debug threadId abort).step s label = some t ↔
      step P debug threadId abort s label = .ok t := by
  unfold machine
  dsimp only
  cases step P debug threadId abort s label <;> simp [Except.toOption]

theorem init_inv (init : (machine P debug threadId abort).init s) : Inv threadId s := by
  obtain ⟨loopers, functors, reader⟩ := init
  exact ⟨by simp [loopers], by simp [functors], by simp [reader]⟩

/-- **With a guard that aborts, every run keeps the law.** -/
theorem confined_of_aborts {stop : Stop} {labels : List Label}
    (init : (machine P debug threadId (.error stop)).init s)
    (run : (machine P debug threadId (.error stop)).run s labels = some t) :
    (machine P debug threadId (.error stop)).Meets (Lawful P debug threadId (.error stop)) s
      labels := by
  have owner {s t : State σ} {label : Label}
      (moved : (machine P debug threadId (.error stop)).step s label = some t) :
      OwnerCalls threadId s label := by
    refine (ownerCalls_iff threadId s label).mpr ?_
    rintro tid op write rfl
    by_contra other
    exact call_stopped other op (machine_step_iff.mp moved)
  have always := Machine.meets_true (M := machine P debug threadId (.error stop)) s labels
  refine (Machine.meets_iff_meets_of_invariant
    (fun s label t inv moved => iff_of_true ?_ trivial) (fun s label t inv _ moved => ?_)
    (init_inv init) run).mpr always
  · refine ⟨?_, fun u moved other => ?_⟩
    · rintro tid op write rfl other u moved
      exact other (owner moved)
    · exact (step_kept inv (owner moved) (machine_step_iff.mp moved)).confined other
  · exact (step_kept inv (owner moved) (machine_step_iff.mp moved)).inv

end Through

/-- **The guard of the source stops no call, and a run keeps the law exactly if all guarded
functions are called by the thread of the loop.** -/
theorem confined_iff (P : Poller σ) (debug : Bool) (threadId : Tid) :
    (∀ (s : State σ) (tid : Tid) (op : Operation) (write : WriteResult),
      (tid ≠ threadId →
        call P debug threadId abortNotInLoopThread tid op write s = .error .notInLoopThread) ↔
        tid = threadId) ∧
    ∀ (s t : State σ) (labels : List Label),
      (machine P debug threadId abortNotInLoopThread).init s →
      (machine P debug threadId abortNotInLoopThread).run s labels = some t →
      ((machine P debug threadId abortNotInLoopThread).Meets
          (Lawful P debug threadId abortNotInLoopThread) s labels ↔
        (machine P debug threadId abortNotInLoopThread).Meets (OwnerCalls threadId) s labels) := by
  refine ⟨fun s tid op write => ⟨fun stopped => ?_, fun same other => absurd same other⟩,
    fun s t labels init run => ?_⟩
  · by_contra other
    exact call_not_stopped op (stopped other)
  · refine Machine.meets_iff_meets_of_invariant (fun s label t inv moved => ?_)
      (fun s label t inv owner moved => (step_kept inv owner (machine_step_iff.mp moved)).inv)
      (init_inv init) run
    constructor
    · intro lawful
      refine (ownerCalls_iff threadId s label).mpr fun tid op write call => ?_
      by_contra other
      exact lawful.stopped tid op write call other t moved
    · intro owner
      have calls := (ownerCalls_iff threadId s label).mp owner
      refine ⟨fun tid op write call other => absurd (calls tid op write call) other, ?_⟩
      intro u moved other
      exact (step_kept inv owner (machine_step_iff.mp moved)).confined other

/-- A loop that has just been created, with a pool of two threads. -/
def created : State Port.EPollPoller where
  looping := false
  quit := false
  eventHandling := false
  callingPendingFunctors := false
  iteration := 0
  activeChannels := []
  currentActiveChannel := none
  pendingFunctors := []
  watch := ⟨fun _ => ⟨0, 0, -1, false, false, fun _ => false⟩, (Port.EPollPoller.poller true).new⟩
  timerQueue := .new 1
  pool := ⟨false, 2, 0, 0⟩
  coms _ := .new false
  comEntities := []
  loopers := []
  functors := []
  reader := none

/-- The loop runs in its own thread while another thread makes it quit. -/
theorem confined_of_quit :
    let labels : List Label := [.call 1 .start (.failed 11), .call 1 .loop (.failed 11),
      .queueInLoop 2 .user, .doPendingFunctors 1, .callFunctor 1 (.failed 11), .functorsDone 1,
      .quit 2, .leave 1]
    ∃ t, (machine (Port.EPollPoller.poller true) true 1 abortNotInLoopThread).run created labels =
        some t ∧ t.pool.started = true ∧
      (machine (Port.EPollPoller.poller true) true 1 abortNotInLoopThread).Meets
        (Lawful (Port.EPollPoller.poller true) true 1 abortNotInLoopThread) created labels := by
  exact ⟨_, rfl, rfl, ((confined_iff (Port.EPollPoller.poller true) true 1).2 created _ _
    ⟨rfl, rfl, rfl⟩ rfl).mpr (by decide)⟩

/-- Another thread than that of the loop starts the pool and enters `loop()`. -/
theorem guard_passed :
    ∃ t, (machine (Port.EPollPoller.poller true) true 1 abortNotInLoopThread).run created
        [.call 2 .start (.failed 11), .call 2 .loop (.failed 11)] = some t ∧
      t.pool.started = true ∧ t.looping = true ∧ t.loopers = [2] ∧ t.owned ≠ created.owned ∧
      ¬ Lawful (Port.EPollPoller.poller true) true 1 abortNotInLoopThread created
        (.call 2 .start (.failed 11)) := by
  refine ⟨_, rfl, rfl, rfl, rfl, fun same => ?_, fun lawful => ?_⟩
  · exact absurd (congrArg Owned.looping same) (by decide)
  · exact lawful.stopped 2 .start _ rfl (by decide) _ rfl

end LoopThread

end Dbdky
