import Dbdky.Sync.Monitor
import Dbdky.Transition.Machine

/-!
`BlockingQueue` (`src/utils/BlockingQueue.h`): an unbounded queue between threads.

A step is a section under `mutex_`, as in a `BoundedBlockingQueue`. `put` is one section;
`take` waits while the queue is empty.

* **`fifo_without_lost_wakeup`.** Elements are taken in the order in which they have been put,
  and while a thread waits, every element that is left has been announced to another one.
-/

namespace Dbdky

open Transition Sync.Monitor

variable {α : Type*}

namespace BlockingQueue

structure State (α : Type*) where
  queue : List α
  /-- The threads that call `take`. -/
  consumers : List (Thread Unit)
  /-- History: what `put` has been called with, in the order of the `push_back`s. -/
  accepted : List α
  /-- History: what `take` has returned. -/
  taken : List α
deriving DecidableEq

inductive Label (α : Type*) where
  /-- a call of `put`; `notEmpty_.notify()` wakes `woken` -/
  | put (x : α) (woken : List Nat)
  | callTake (i : Nat)
  /-- the lock is given to the thread in `take` -/
  | take (i : Nat)
  /-- `notEmpty_.wait()` returns by itself -/
  | awake (i : Nat)

def initial (numConsumers : Nat) : State α where
  queue := []
  consumers := List.replicate numConsumers .outside
  accepted := []
  taken := []

def put (s : State α) (x : α) (woken : List Nat) : Option (State α) :=
  if Signal woken s.consumers then
    some { s with
      queue := s.queue ++ [x]
      consumers := wake woken s.consumers
      accepted := s.accepted ++ [x] }
  else none

/-- `take`, from `while (queue_.empty())` on -/
def take (s : State α) (i : Nat) : State α :=
  match s.queue with
  | [] => { s with consumers := s.consumers.set i (.inside () .wait) }
  | front :: queue =>
      { s with
        queue
        consumers := s.consumers.set i .outside
        taken := s.taken ++ [front] }

def step (s : State α) : Label α → Option (State α)
  | .put x woken => put s x woken
  | .callTake i =>
      match s.consumers[i]? with
      | some .outside => some { s with consumers := s.consumers.set i (.inside () .enter) }
      | _ => none
  | .take i =>
      match s.consumers[i]? with
      | some (.inside () place) => if place ≠ .wait then some (take s i) else none
      | _ => none
  | .awake i =>
      match s.consumers[i]? with
      | some (.inside () .wait) =>
          some { s with consumers := s.consumers.set i (.inside () .awake) }
      | _ => none

/-- Any number of threads. -/
def machine : Machine (State α) (Label α) where
  init s := ∃ numConsumers, s = initial numConsumers
  step := step

/-! ### What a step does -/

/-- The steps, branch by branch. -/
inductive Moves (s : State α) : Label α → State α → Prop where
  | put {x : α} {woken : List Nat} (signal : Signal woken s.consumers) :
      Moves s (.put x woken)
        { s with
          queue := s.queue ++ [x]
          consumers := wake woken s.consumers
          accepted := s.accepted ++ [x] }
  | callTake {i : Nat} (here : s.consumers[i]? = some .outside) :
      Moves s (.callTake i) { s with consumers := s.consumers.set i (.inside () .enter) }
  | takeWait {i : Nat} {place : Place} (here : s.consumers[i]? = some (.inside () place))
      (runs : place ≠ .wait) (empty : s.queue = []) :
      Moves s (.take i) { s with consumers := s.consumers.set i (.inside () .wait) }
  | takePop {i : Nat} {place : Place} {front : α} {queue : List α}
      (here : s.consumers[i]? = some (.inside () place)) (runs : place ≠ .wait)
      (first : s.queue = front :: queue) :
      Moves s (.take i)
        { s with
          queue
          consumers := s.consumers.set i .outside
          taken := s.taken ++ [front] }
  | awake {i : Nat} (here : s.consumers[i]? = some (.inside () .wait)) :
      Moves s (.awake i) { s with consumers := s.consumers.set i (.inside () .awake) }

theorem step_cases {s t : State α} {l : Label α} (h : step s l = some t) : Moves s l t := by
  cases l with
  | put x woken =>
      obtain ⟨signal, ⟨⟩⟩ := Option.ite_none_right_eq_some.mp h
      exact .put signal
  | callTake i =>
      simp only [step] at h
      split at h
      · cases h
        exact .callTake ‹_›
      · cases h
  | take i =>
      simp only [step] at h
      split at h
      · rename_i place here
        obtain ⟨runs, ⟨⟩⟩ := Option.ite_none_right_eq_some.mp h
        unfold take
        split
        · exact .takeWait here runs ‹_›
        · exact .takePop here runs ‹_›
      · cases h
  | awake i =>
      simp only [step] at h
      split at h
      · cases h
        exact .awake ‹_›
      · cases h

/-! ### The invariant -/

structure Inv (s : State α) : Prop where
  fifo : s.accepted = s.taken ++ s.queue
  /-- What a consumer waits for is left to consumers that have been notified. -/
  covered : Covered s.queue.length s.consumers

theorem step_inv {s t : State α} {l : Label α} (inv : Inv s) (moves : Moves s l t) : Inv t := by
  obtain ⟨fifo, covered⟩ := inv
  cases moves with
  | put signal =>
      refine ⟨by rw [fifo, List.append_assoc], ?_⟩
      dsimp only
      rw [List.length_append]
      exact covered.signal signal
  | callTake here => exact ⟨fifo, covered.enter here ()⟩
  | takeWait here runs empty =>
      refine ⟨fifo, ?_⟩
      dsimp only
      rw [empty]
      exact .zero _
  | takePop here runs first =>
      constructor
      · rw [fifo, first, List.append_assoc]
        rfl
      · have left := covered.leave here runs
        rw [first] at left
        exact left
  | awake here => exact ⟨fifo, covered.wakeup here⟩

theorem reachable_inv {s : State α} (reach : (machine (α := α)).Reachable s) : Inv s := by
  refine reach.invariant ?_ ?_
  · rintro s ⟨numConsumers, rfl⟩
    exact ⟨rfl, .zero _⟩
  · intro s l t inv step
    exact step_inv inv (step_cases step)

/-- **FIFO, and no wakeup is lost**: if no thread in `take` can go on by itself, then none of them
waits or there is nothing to take. -/
theorem fifo_without_lost_wakeup {s : State α} (reach : (machine (α := α)).Reachable s) :
    s.accepted = s.taken ++ s.queue ∧
      (0 < count .wait s.consumers → s.queue.length ≤ count .notified s.consumers) ∧
      ((∀ thread ∈ s.consumers, thread.Asleep) → 0 < count .wait s.consumers → s.queue = []) := by
  obtain ⟨fifo, covered⟩ := reachable_inv reach
  refine ⟨fifo, covered, fun asleep waits => ?_⟩
  exact List.length_eq_zero_iff.mp (covered.eq_zero asleep waits)

/-- Two threads waited, and one of them has been notified of an element. -/
def oneElement : State Nat where
  queue := [7]
  consumers := [.inside () .notified, .inside () .wait]
  accepted := [7]
  taken := []

theorem fifo_without_lost_wakeup_oneElement :
    oneElement.accepted = oneElement.taken ++ oneElement.queue ∧
      (0 < count .wait oneElement.consumers →
        oneElement.queue.length ≤ count .notified oneElement.consumers) ∧
      ((∀ thread ∈ oneElement.consumers, thread.Asleep) → 0 < count .wait oneElement.consumers →
        oneElement.queue = []) := by
  refine fifo_without_lost_wakeup ?_
  exact Machine.reachable_of_run [.callTake 0, .take 0, .callTake 1, .take 1, .put 7 [0]] ⟨2, rfl⟩
    (by decide)

end BlockingQueue

end Dbdky
