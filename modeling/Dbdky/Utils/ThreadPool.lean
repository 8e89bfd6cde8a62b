import Dbdky.Sync.Waiters
import Dbdky.Transition.Machine

/-!
`ThreadPool` (`src/utils/ThreadPool.{h,cpp}`): tasks for a number of threads.

A step is a section under `mutex_`, up to a `wait` or to the end, or what a thread does
without the lock. A thread that has been woken evaluates its condition again in a step of
its own, and a thread that has come out of `take` calls its task in another: another thread
may take the next task, and call it, in between. `notify` wakes at least one thread that
waits, if there is one, and any thread may wake up by itself. Calls of `run` are numbered; an
exception thrown by a task ends the program and is left out.

* **`Moves`.** What each step does, one constructor for each branch.
-/

namespace Dbdky

open Transition Sync

namespace ThreadPool

/-- The argument of the `id`-th call of `run`, which may be an empty function. -/
structure Task where
  id : Nat
  callable : Bool
deriving DecidableEq, Repr

/-- Where a thread is in `runInThread`. -/
inductive Worker where
  /-- at `while (running_)` -/
  | testRunning
  /-- in `take`, at `while (queue_.empty() && running_)` -/
  | take
  /-- in `notEmpty_.wait()` -/
  | waitNotEmpty
  /-- `take` has returned `task`, at `if (task)` -/
  | taken (task : Task)
  /-- in `task()` -/
  | task
  | exited
deriving DecidableEq, Repr

/-- `notEmpty_.notifyAll()`, for one thread -/
def Worker.wake : Worker → Worker
  | waitNotEmpty => take
  | worker => worker

/-- The task that the thread has taken and not yet called. -/
def Worker.held : Worker → Option Task
  | taken next => some next
  | _ => none

theorem Worker.wake_eq_exited {worker : Worker} (gone : worker.wake = exited) :
    worker = exited := by
  cases worker <;> first | rfl | cases gone

theorem Worker.wake_ne_waitNotEmpty (worker : Worker) : worker.wake ≠ waitNotEmpty := by
  cases worker <;> simp [wake]

@[simp] theorem Worker.held_wake (worker : Worker) : worker.wake.held = worker.held := by
  cases worker <;> rfl

structure State where
  maxQueueSize : Nat
  running : Bool
  queue : List Task
  workers : List Worker
  /-- The calls of `run` that have found the queue full. -/
  callers : List (Waiter Task)
  /-- How many calls of `run` there have been. -/
  submitted : Nat
  /-- History: the tasks that have been put into `queue_`. -/
  pushed : List Task
  /-- History: the tasks that `take` has returned. -/
  taken : List Task
  /-- History: the tasks that have been called. -/
  executed : List Task
deriving DecidableEq

namespace State

/-- After `setMaxQueueSize(maxQueueSize)` and `start(numThreads)`. -/
def started (maxQueueSize numThreads : Nat) : State where
  maxQueueSize
  running := true
  queue := []
  workers := List.replicate numThreads .testRunning
  callers := []
  submitted := 0
  pushed := []
  taken := []
  executed := []

variable (s : State)

def isFull : Bool := s.maxQueueSize > 0 ∧ s.queue.length ≥ s.maxQueueSize

theorem isFull_eq_true {s : State} (full : s.isFull = true) :
    0 < s.maxQueueSize ∧ s.maxQueueSize ≤ s.queue.length := of_decide_eq_true full

theorem isFull_eq_false {s : State} (room : s.isFull = false) (bounded : 0 < s.maxQueueSize) :
    s.queue.length < s.maxQueueSize :=
  Nat.not_le.mp fun full => of_decide_eq_false room ⟨bounded, full⟩

/-- `queue_.push_back(task); notEmpty_.notifyAll();` -/
def push (task : Task) : State :=
  { s with
    queue := s.queue ++ [task]
    workers := s.workers.map Worker.wake
    pushed := s.pushed ++ [task] }

/-- `task = queue_.front(); queue_.pop_front();` -/
def pop (task : Task) (queue : List Task) : State :=
  { s with queue, taken := s.taken ++ [task] }

def setWorker (i : Nat) (worker : Worker) : State := { s with workers := s.workers.set i worker }

/-- `task()`. A thread calls its task only if there is something to call; without threads `run`
calls an empty function as well, which throws to its caller, and nothing is executed. -/
def call (task : Task) : State :=
  if task.callable then { s with executed := s.executed ++ [task] } else s

section Call

variable {s} {task : Task}

@[simp] theorem call_maxQueueSize : (s.call task).maxQueueSize = s.maxQueueSize := by
  unfold call
  split <;> rfl

@[simp] theorem call_running : (s.call task).running = s.running := by
  unfold call
  split <;> rfl

@[simp] theorem call_queue : (s.call task).queue = s.queue := by
  unfold call
  split <;> rfl

@[simp] theorem call_workers : (s.call task).workers = s.workers := by
  unfold call
  split <;> rfl

@[simp] theorem call_callers : (s.call task).callers = s.callers := by
  unfold call
  split <;> rfl

@[simp] theorem call_submitted : (s.call task).submitted = s.submitted := by
  unfold call
  split <;> rfl

@[simp] theorem call_pushed : (s.call task).pushed = s.pushed := by
  unfold call
  split <;> rfl

@[simp] theorem call_taken : (s.call task).taken = s.taken := by
  unfold call
  split <;> rfl

end Call

end State

inductive Label where
  /-- a call of `run` -/
  | run (callable : Bool)
  /-- a woken call of `run` evaluates `isFull()` again -/
  | resume (i : Nat)
  | testRunning (i : Nat)
  /-- the locked section of `take`; `notFull_.notify()` wakes `woken` -/
  | take (i : Nat) (woken : List Task)
  /-- `if (task) { task(); }`, up to the call -/
  | call (i : Nat)
  /-- `task()` returns -/
  | finish (i : Nat)
  /-- a call of `run` wakes up by itself -/
  | wakeCaller (i : Nat)
  /-- a thread in `take` wakes up by itself -/
  | wakeWorker (i : Nat)
  /-- the locked section of `stop` -/
  | stop
deriving DecidableEq

/-- The locked section of `take`. -/
def takeStep (s : State) (i : Nat) (woken : List Task) : Option State :=
  match s.queue with
  | [] =>
      if woken = [] then
        some (s.setWorker i (if s.running then .waitNotEmpty else .testRunning))
      else none
  | task :: queue =>
      if (if 0 < s.maxQueueSize then Notify woken s.callers else woken = []) then
        let s := s.pop task queue
        some (State.setWorker { s with callers := wake woken s.callers } i (.taken task))
      else none

theorem takeStep_cons {s : State} {task : Task} {queue woken : List Task}
    (front : s.queue = task :: queue)
    (notify : if 0 < s.maxQueueSize then Notify woken s.callers else woken = []) (i : Nat) :
    takeStep s i woken =
      some (State.setWorker { s.pop task queue with callers := wake woken s.callers } i
        (.taken task)) := by
  rw [takeStep, front]
  exact if_pos notify

def step (s : State) : Label → Option State
  | .run callable =>
      let task : Task := ⟨s.submitted, callable⟩
      let s := { s with submitted := s.submitted + 1 }
      if s.workers = [] then some (s.call task)
      else if s.isFull then some { s with callers := s.callers ++ [⟨task, true⟩] }
      else some (s.push task)
  | .resume i =>
      match s.callers[i]? with
      | some ⟨task, false⟩ =>
          if s.isFull then some { s with callers := s.callers.set i ⟨task, true⟩ }
          else some ({ s with callers := s.callers.eraseIdx i }.push task)
      | _ => none
  | .testRunning i =>
      if s.workers[i]? = some .testRunning then
        some (s.setWorker i (if s.running then .take else .exited))
      else none
  | .take i woken => if s.workers[i]? = some .take then takeStep s i woken else none
  | .call i =>
      match s.workers[i]? with
      | some (.taken task) =>
          some ((s.call task).setWorker i (if task.callable then .task else .testRunning))
      | _ => none
  | .finish i => if s.workers[i]? = some .task then some (s.setWorker i .testRunning) else none
  | .wakeCaller i =>
      match s.callers[i]? with
      | some ⟨task, true⟩ => some { s with callers := s.callers.set i ⟨task, false⟩ }
      | _ => none
  | .wakeWorker i =>
      if s.workers[i]? = some .waitNotEmpty then some (s.setWorker i .take) else none
  | .stop => some { s with running := false, workers := s.workers.map Worker.wake }

theorem step_call {s : State} {i : Nat} {task : Task}
    (here : s.workers[i]? = some (.taken task)) :
    step s (.call i) =
      some ((s.call task).setWorker i (if task.callable then .task else .testRunning)) := by
  rw [step, here]

/-- A pool that has been started, under any calls of `run` and `stop`. -/
def machine : Machine State Label where
  init s := ∃ maxQueueSize numThreads, s = .started maxQueueSize numThreads
  step := step

/-! ### What a step does -/

/-- The steps, branch by branch. -/
inductive Moves (s : State) : Label → State → Prop where
  | runDirect {callable : Bool} (none : s.workers = []) :
      Moves s (.run callable)
        (State.call { s with submitted := s.submitted + 1 } ⟨s.submitted, callable⟩)
  | runWait {callable : Bool} (some : s.workers ≠ []) (full : s.isFull = true) :
      Moves s (.run callable)
        { s with
          submitted := s.submitted + 1
          callers := s.callers ++ [⟨⟨s.submitted, callable⟩, true⟩] }
  | runPush {callable : Bool} (some : s.workers ≠ []) (room : s.isFull = false) :
      Moves s (.run callable)
        (State.push { s with submitted := s.submitted + 1 } ⟨s.submitted, callable⟩)
  | resumeWait {i : Nat} {task : Task} (here : s.callers[i]? = some ⟨task, false⟩)
      (full : s.isFull = true) :
      Moves s (.resume i) { s with callers := s.callers.set i ⟨task, true⟩ }
  | resumePush {i : Nat} {task : Task} (here : s.callers[i]? = some ⟨task, false⟩)
      (room : s.isFull = false) :
      Moves s (.resume i) (State.push { s with callers := s.callers.eraseIdx i } task)
  | goOn {i : Nat} (here : s.workers[i]? = some .testRunning) (running : s.running = true) :
      Moves s (.testRunning i) (s.setWorker i .take)
  | exit {i : Nat} (here : s.workers[i]? = some .testRunning) (stopped : s.running = false) :
      Moves s (.testRunning i) (s.setWorker i .exited)
  | takeWait {i : Nat} (here : s.workers[i]? = some .take) (empty : s.queue = [])
      (running : s.running = true) : Moves s (.take i []) (s.setWorker i .waitNotEmpty)
  | takeNone {i : Nat} (here : s.workers[i]? = some .take) (empty : s.queue = [])
      (stopped : s.running = false) : Moves s (.take i []) (s.setWorker i .testRunning)
  | takeTask {i : Nat} {woken : List Task} {task : Task} {queue : List Task}
      (here : s.workers[i]? = some .take) (front : s.queue = task :: queue)
      (notify : if 0 < s.maxQueueSize then Notify woken s.callers else woken = []) :
      Moves s (.take i woken)
        (State.setWorker { s.pop task queue with callers := wake woken s.callers } i
          (.taken task))
  | call {i : Nat} {task : Task} (here : s.workers[i]? = some (.taken task)) :
      Moves s (.call i)
        ((s.call task).setWorker i (if task.callable then .task else .testRunning))
  | finish {i : Nat} (here : s.workers[i]? = some .task) :
      Moves s (.finish i) (s.setWorker i .testRunning)
  | wakeCaller {i : Nat} {task : Task} (here : s.callers[i]? = some ⟨task, true⟩) :
      Moves s (.wakeCaller i) { s with callers := s.callers.set i ⟨task, false⟩ }
  | wakeWorker {i : Nat} (here : s.workers[i]? = some .waitNotEmpty) :
      Moves s (.wakeWorker i) (s.setWorker i .take)
  | stop : Moves s .stop { s with running := false, workers := s.workers.map Worker.wake }

theorem step_cases {s t : State} {l : Label} (h : step s l = some t) : Moves s l t := by
  cases l with
  | run callable =>
      simp only [step] at h
      split at h
      · cases h
        exact .runDirect ‹_›
      · split at h
        · cases h
          exact .runWait ‹_› ‹_›
        · cases h
          exact .runPush ‹_› (Bool.eq_false_iff.mpr ‹_›)
  | resume i =>
      simp only [step] at h
      split at h
      · rename_i here
        split at h
        · cases h
          exact .resumeWait here ‹_›
        · cases h
          exact .resumePush here (Bool.eq_false_iff.mpr ‹_›)
      · cases h
  | testRunning i =>
      obtain ⟨here, ⟨⟩⟩ := Option.ite_none_right_eq_some.mp h
      cases running : s.running with
      | true => exact .goOn here running
      | false => exact .exit here running
  | take i woken =>
      obtain ⟨here, h⟩ := Option.ite_none_right_eq_some.mp h
      unfold takeStep at h
      split at h
      · rename_i empty
        obtain ⟨rfl, ⟨⟩⟩ := Option.ite_none_right_eq_some.mp h
        cases running : s.running with
        | true => exact .takeWait here empty running
        | false => exact .takeNone here empty running
      · rename_i task queue front
        obtain ⟨notify, ⟨⟩⟩ := Option.ite_none_right_eq_some.mp h
        exact .takeTask here front notify
  | call i =>
      simp only [step] at h
      split at h
      · cases h
        exact .call ‹_›
      · cases h
  | finish i =>
      obtain ⟨here, ⟨⟩⟩ := Option.ite_none_right_eq_some.mp h
      exact .finish here
  | wakeCaller i =>
      simp only [step] at h
      split at h
      · cases h
        exact .wakeCaller ‹_›
      · cases h
  | wakeWorker i =>
      obtain ⟨here, ⟨⟩⟩ := Option.ite_none_right_eq_some.mp h
      exact .wakeWorker here
  | stop =>
      cases h
      exact .stop

end ThreadPool

end Dbdky
