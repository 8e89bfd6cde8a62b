import Mathlib.Data.List.Sort
import Dbdky.Port.Poller

/-!
`ComServer` (`src/bussiness_logic/ComServer.{h,cpp}`) with the loops of its thread pool
(`EventLoopThreadPool::getNextLoop`), and what of `ComEntity` bears on its lifetime: the
constructor, `comEstablished` and `comDestroyed`.

A `ComEntity` is owned by `shared_ptr`s: in the map of the server, in the functors that are
bound to it, and in the guard that `Channel::handleEvent` takes. It is destroyed with the
last of them. A functor that `doPendingFunctors` has swapped out lives until all of its
batch have run.

The server is called in the thread of the base loop, loop 0; the other loops run in threads
of their own. All opens succeed, and as nothing closes a port, each gives a new fd. A poll
is not modelled: the loop may handle any channel its poller knows.
-/

namespace Dbdky

open Transition

namespace ComServer

open Port (Fd Channel Poller)

inductive Functor where
  | comEstablished (com : Nat)
  | comDestroyed (com : Nat)
deriving DecidableEq, Repr

/-- The `ComEntity` a functor is bound to. -/
def Functor.com : Functor → Nat
  | .comEstablished com => com
  | .comDestroyed com => com

/-- Where the thread of a loop is. -/
inductive Phase where
  /-- In `poll`, or not looping yet. -/
  | polling
  /-- In `handleEvent` of a channel, which holds `com`. -/
  | handling (com : Nat)
  /-- In `doPendingFunctors`: the functors that have run, and those that have not. -/
  | calling (called functors : List Functor)
  /-- The loop is gone. -/
  | exited
deriving DecidableEq, Repr

structure Loop (σ : Type) where
  watch : Poller.State σ
  pendingFunctors : List Functor
  phase : Phase

/-- The channel of a `ComEntity` whose port could be opened. -/
def openedChannel : Channel where
  events := 0
  revents := 0
  index := -1
  tied := false
  tieAlive := false
  isSet callback := callback = .read ∨ callback = .write

variable {σ : Type}

def Loop.new (P : Poller σ) : Loop σ := ⟨⟨fun _ => openedChannel, P.new⟩, [], .polling⟩

/-- The functors that still exist. -/
def Loop.functors (loop : Loop σ) : List Functor :=
  match loop.phase with
  | .calling called functors => called ++ functors ++ loop.pendingFunctors
  | _ => loop.pendingFunctors

def Loop.Holds (loop : Loop σ) (com : Nat) : Prop :=
  com ∈ loop.functors.map Functor.com ∨ loop.phase = .handling com

instance (loop : Loop σ) (com : Nat) : Decidable (loop.Holds com) :=
  inferInstanceAs (Decidable (_ ∨ _))

structure ComEntity where
  loop : Nat
  fd : Fd
deriving DecidableEq, Repr

inductive ServerPhase where
  | alive
  /-- In the loop of the destructor. -/
  | destroying
  | destroyed
deriving DecidableEq, Repr

structure State (σ : Type) where
  /-- Loop 0 is the base loop, the others are `loops_` of the thread pool. -/
  loops : List (Loop σ)
  /-- `next_` of the thread pool -/
  next : Nat
  started : Bool
  nextEntityId : Nat
  /-- All that have been created; a `ComEntity` is known by its position. -/
  entities : List ComEntity
  /-- `comEntities_`, by name. The destructor resets the pointers from the front, and what
  it has reset is dropped. -/
  comEntities : List (String × Nat)
  server : ServerPhase

/-- Whether some `shared_ptr` owns the entity. -/
def State.Held (s : State σ) (com : Nat) : Prop :=
  com ∈ s.comEntities.map Prod.snd ∨ ∃ loop ∈ s.loops, loop.Holds com

instance (s : State σ) (com : Nat) : Decidable (s.Held com) :=
  inferInstanceAs (Decidable (_ ∨ ∃ loop ∈ s.loops, loop.Holds com))

def State.setLoop (s : State σ) (l : Nat) (loop : Loop σ) : State σ :=
  { s with loops := s.loops.set l loop }

/-! ### `ComEntity` -/

/-- `comEstablished()`. The state is `kOpened`, so the assertion holds. -/
def comEstablished (P : Poller σ) (com : Nat) (s : State σ) : Option (State σ) := do
  let entity ← s.entities[com]?
  let loop ← s.loops[entity.loop]?
  let watch := loop.watch.modify entity.fd fun c => { c with tied := true, tieAlive := true }
  let watch ← P.enableReading entity.fd watch
  some (s.setLoop entity.loop { loop with watch })

/-- `comDestroyed()` is empty. -/
def comDestroyed (s : State σ) : State σ := s

def Functor.call (P : Poller σ) : Functor → State σ → Option (State σ)
  | .comEstablished com, s => ComServer.comEstablished P com s
  | .comDestroyed _, s => some (ComServer.comDestroyed s)

/-! ### The loops -/

def queueInLoop (l : Nat) (functor : Functor) (s : State σ) : Option (State σ) := do
  let loop ← s.loops[l]?
  some (s.setLoop l { loop with pendingFunctors := loop.pendingFunctors ++ [functor] })

/-- `runInLoop`, called in the thread of the base loop -/
def runInLoop (P : Poller σ) (l : Nat) (functor : Functor) (s : State σ) : Option (State σ) :=
  if l = 0 then functor.call P s else queueInLoop l functor s

/-- `threadPool_->getNextLoop()`, with the new `next_` -/
def getNextLoop (s : State σ) : Nat × Nat :=
  let size := s.loops.length - 1
  if size = 0 then (0, s.next)
  else
    let loop := s.next + 1
    let next := s.next + 1
    (loop, if next ≥ size then 0 else next)

/-! ### `ComServer` -/

/-- `createComEntityAndInsert(entityName, ..)`; the open gives `fd`. -/
def createComEntityAndInsert (P : Poller σ) (entityName : String) (fd : Fd) (s : State σ) :
    Option (State σ) :=
  if (s.comEntities.lookup entityName).isSome then some s
  else
    let (ioLoop, next) := getNextLoop s
    let com := s.entities.length
    runInLoop P ioLoop (.comEstablished com) { s with
      next
      nextEntityId := s.nextEntityId + 1
      entities := s.entities ++ [⟨ioLoop, fd⟩]
      comEntities := s.comEntities.orderedInsert (fun a b => a.1 ≤ b.1) (entityName, com) }

/-- `start()`, after `setThreadNum(numThreads)` -/
def start (P : Poller σ) (numThreads : Nat) (s : State σ) : State σ :=
  if s.started then s
  else { s with started := true, loops := s.loops ++ List.replicate numThreads (.new P) }

/-- One round of the loop in `~ComServer`, or its end. -/
def destroyNext (P : Poller σ) (s : State σ) : Option (State σ) :=
  match s.comEntities with
  | [] => some { s with server := .destroyed }
  | (_, com) :: comEntities => do
      let entity ← s.entities[com]?
      runInLoop P entity.loop (.comDestroyed com) { s with comEntities }

/-! ### The steps -/

inductive Label where
  | start (numThreads : Nat)
  | create (entityName : String) (fd : Fd)
  /-- Loop `l` begins to handle an event of the channel with `fd`. -/
  | handleEvent (l : Nat) (fd : Fd)
  /-- The handler returns. -/
  | handled (l : Nat)
  /-- Loop `l` swaps its pending functors out. -/
  | doPendingFunctors (l : Nat)
  /-- It calls the next of them. -/
  | callFunctor (l : Nat)
  /-- All have been called and are destroyed. -/
  | functorsDone (l : Nat)
  /-- `~ComServer` begins. -/
  | destroy
  | destroyNext
  /-- After the destructor a pool thread leaves `loop()`, and its loop is destroyed. -/
  | exit (l : Nat)
deriving DecidableEq, Repr

def step (P : Poller σ) (s : State σ) : Label → Option (State σ)
  | .start numThreads => if s.server = .alive then some (start P numThreads s) else none
  | .create entityName fd =>
      if s.server = .alive ∧ fd ∉ s.entities.map ComEntity.fd then
        createComEntityAndInsert P entityName fd s
      else none
  | .handleEvent l fd => do
      let loop ← s.loops[l]?
      let com ← s.entities.findIdx? fun entity => entity.fd = fd
      -- tie_.lock(); a channel whose entity is gone must not be touched
      if loop.phase = .polling ∧ P.knows loop.watch.poller fd = true ∧ s.Held com then
        some (s.setLoop l { loop with phase := .handling com })
      else none
  | .handled l => do
      let loop ← s.loops[l]?
      match loop.phase with
      | .handling _ => some (s.setLoop l { loop with phase := .polling })
      | _ => none
  | .doPendingFunctors l => do
      let loop ← s.loops[l]?
      if loop.phase = .polling then
        some (s.setLoop l
          { loop with pendingFunctors := [], phase := .calling [] loop.pendingFunctors })
      else none
  | .callFunctor l => do
      let loop ← s.loops[l]?
      match loop.phase with
      | .calling called (functor :: functors) =>
          functor.call P
            (s.setLoop l { loop with phase := .calling (called ++ [functor]) functors })
      | _ => none
  | .functorsDone l => do
      let loop ← s.loops[l]?
      match loop.phase with
      | .calling _ [] => some (s.setLoop l { loop with phase := .polling })
      | _ => none
  | .destroy => if s.server = .alive then some { s with server := .destroying } else none
  | .destroyNext => if s.server = .destroying then destroyNext P s else none
  | .exit l => do
      let loop ← s.loops[l]?
      if s.server = .destroyed ∧ l ≠ 0 ∧ loop.phase = .polling then
        some (s.setLoop l { Loop.new P with phase := .exited })
      else none

/-- All interleavings of the server's thread and the loops. -/
def machine (P : Poller σ) : Machine (State σ) Label where
  init s := s = ⟨[.new P], 0, false, 1, [], [], .alive⟩
  step := step P

end ComServer

end Dbdky
