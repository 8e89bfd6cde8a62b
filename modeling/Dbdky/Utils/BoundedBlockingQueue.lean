import Dbdky.Sync.Monitor
import Dbdky.Transition.Machine

/-!
`BoundedBlockingQueue` (`src/utils/BoundedBlockingQueue.h`).

A step is a section under `mutex_`: from where a thread gets the lock, for the first time or
in `wait()`, up to the next `wait()` or to the end. Any thread that is at the lock may get it.
`boost::circular_buffer` is a parameter.

* **`reachable_inv`.** What a consumer waits for is left to consumers that have been
  notified, and what a producer waits for to producers that have been.
* **`fifo`.** The elements are taken in the order in which they have been put.
-/

namespace Dbdky

open Transition Sync.Monitor

variable {α β : Type*}

/-- What is used of `boost::circular_buffer<T>`; `front()` of an empty buffer is undefined. -/
structure CircularBuffer (α β : Type*) where
  ofCapacity : Nat → β
  size : β → Nat
  capacity : β → Nat
  full : β → Bool
  empty : β → Bool
  push_back : β → α → β
  front : β → Option α
  pop_front : β → β

/-- What the documentation says about it: `content` are the elements. -/
structure CircularBuffer.Documented (buffer : CircularBuffer α β) (content : β → List α) :
    Prop where
  size_eq : ∀ queue, buffer.size queue = (content queue).length
  full_eq : ∀ queue, buffer.full queue = true ↔ buffer.capacity queue = buffer.size queue
  empty_eq : ∀ queue, buffer.empty queue = true ↔ buffer.size queue = 0
  front_eq : ∀ queue, buffer.front queue = (content queue).head?
  content_ofCapacity : ∀ n, content (buffer.ofCapacity n) = []
  capacity_ofCapacity : ∀ n, buffer.capacity (buffer.ofCapacity n) = n
  content_push_back : ∀ queue x, buffer.full queue = false →
    content (buffer.push_back queue x) = content queue ++ [x]
  capacity_push_back : ∀ queue x, buffer.capacity (buffer.push_back queue x) = buffer.capacity queue
  content_pop_front : ∀ queue, buffer.empty queue = false →
    content (buffer.pop_front queue) = (content queue).tail
  capacity_pop_front : ∀ queue, buffer.capacity (buffer.pop_front queue) = buffer.capacity queue

namespace BoundedBlockingQueue

structure State (α β : Type*) where
  queue : β
  /-- The threads that call `put`. -/
  producers : List (Thread α)
  /-- The threads that call `take`. -/
  consumers : List (Thread Unit)
  /-- History: what `put` has been called with, in the order of the `push_back`s. -/
  accepted : List α
  /-- History: what `take` has returned. -/
  taken : List α
deriving DecidableEq

/-- A step of a producer or a consumer, which is given by its place. -/
inductive Label (α : Type*) where
  | callPut (i : Nat) (x : α)
  /-- the lock is given to the thread in `put`; `notEmpty_.notify()` wakes `woken` -/
  | put (i : Nat) (woken : List Nat)
  | callTake (i : Nat)
  /-- the lock is given to the thread in `take`; `notFull_.notify()` wakes `woken` -/
  | take (i : Nat) (woken : List Nat)
  /-- `notFull_.wait()` returns by itself -/
  | wakeProducer (i : Nat)
  /-- `notEmpty_.wait()` returns by itself -/
  | wakeConsumer (i : Nat)

variable (buffer : CircularBuffer α β)

def initial (maxSize numProducers numConsumers : Nat) : State α β where
  queue := buffer.ofCapacity maxSize
  producers := List.replicate numProducers .outside
  consumers := List.replicate numConsumers .outside
  accepted := []
  taken := []

/-- `put`, from `while (queue_.full())` on -/
def put (s : State α β) (i : Nat) (x : α) (woken : List Nat) : Option (State α β) :=
  if buffer.full s.queue then
    if woken = [] then some { s with producers := s.producers.set i (.inside x .wait) } else none
  else if Signal woken s.consumers then
    some { s with
      queue := buffer.push_back s.queue x
      producers := s.producers.set i .outside
      consumers := wake woken s.consumers
      accepted := s.accepted ++ [x] }
  else none

/-- `take`, from `while (queue_.empty())` on -/
def take (s : State α β) (i : Nat) (woken : List Nat) : Option (State α β) :=
  if buffer.empty s.queue then
    if woken = [] then some { s with consumers := s.consumers.set i (.inside () .wait) } else none
  else
    match buffer.front s.queue with
    | none => none
    | some front =>
        if Signal woken s.producers then
          some { s with
            queue := buffer.pop_front s.queue
            producers := wake woken s.producers
            consumers := s.consumers.set i .outside
            taken := s.taken ++ [front] }
        else none

def step (s : State α β) : Label α → Option (State α β)
  | .callPut i x =>
      match s.producers[i]? with
      | some .outside => some { s with producers := s.producers.set i (.inside x .enter) }
      | _ => none
  | .put i woken =>
      match s.producers[i]? with
      | some (.inside x place) => if place ≠ .wait then put buffer s i x woken else none
      | _ => none
  | .callTake i =>
      match s.consumers[i]? with
      | some .outside => some { s with consumers := s.consumers.set i (.inside () .enter) }
      | _ => none
  | .take i woken =>
      match s.consumers[i]? with
      | some (.inside () place) => if place ≠ .wait then take buffer s i woken else none
      | _ => none
  | .wakeProducer i =>
      match s.producers[i]? with
      | some (.inside x .wait) => some { s with producers := s.producers.set i (.inside x .awake) }
      | _ => none
  | .wakeConsumer i =>
      match s.consumers[i]? with
      | some (.inside () .wait) =>
          some { s with consumers := s.consumers.set i (.inside () .awake) }
      | _ => none

/-- A queue for `maxSize` elements, any number of threads. -/
def machine (maxSize : Nat) : Machine (State α β) (Label α) where
  init s := ∃ numProducers numConsumers, s = initial buffer maxSize numProducers numConsumers
  step := step buffer

/-! ### What a step does -/

/-- The steps, branch by branch. -/
inductive Moves (s : State α β) : Label α → State α β → Prop where
  | callPut {i : Nat} {x : α} (here : s.producers[i]? = some .outside) :
      Moves s (.callPut i x) { s with producers := s.producers.set i (.inside x .enter) }
  | putWait {i : Nat} {x : α} {place : Place} (here : s.producers[i]? = some (.inside x place))
      (runs : place ≠ .wait) (full : buffer.full s.queue = true) :
      Moves s (.put i []) { s with producers := s.producers.set i (.inside x .wait) }
  | putPush {i : Nat} {woken : List Nat} {x : α} {place : Place}
      (here : s.producers[i]? = some (.inside x place)) (runs : place ≠ .wait)
      (room : buffer.full s.queue = false) (signal : Signal woken s.consumers) :
      Moves s (.put i woken)
        { s with
          queue := buffer.push_back s.queue x
          producers := s.producers.set i .outside
          consumers := wake woken s.consumers
          accepted := s.accepted ++ [x] }
  | callTake {i : Nat} (here : s.consumers[i]? = some .outside) :
      Moves s (.callTake i) { s with consumers := s.consumers.set i (.inside () .enter) }
  | takeWait {i : Nat} {place : Place} (here : s.consumers[i]? = some (.inside () place))
      (runs : place ≠ .wait) (empty : buffer.empty s.queue = true) :
      Moves s (.take i []) { s with consumers := s.consumers.set i (.inside () .wait) }
  | takePop {i : Nat} {woken : List Nat} {front : α} {place : Place}
      (here : s.consumers[i]? = some (.inside () place)) (runs : place ≠ .wait)
      (some : buffer.empty s.queue = false) (first : buffer.front s.queue = .some front)
      (signal : Signal woken s.producers) :
      Moves s (.take i woken)
        { s with
          queue := buffer.pop_front s.queue
          producers := wake woken s.producers
          consumers := s.consumers.set i .outside
          taken := s.taken ++ [front] }
  | wakeProducer {i : Nat} {x : α} (here : s.producers[i]? = some (.inside x .wait)) :
      Moves s (.wakeProducer i) { s with producers := s.producers.set i (.inside x .awake) }
  | wakeConsumer {i : Nat} (here : s.consumers[i]? = some (.inside () .wait)) :
      Moves s (.wakeConsumer i) { s with consumers := s.consumers.set i (.inside () .awake) }

variable {buffer}

theorem step_cases {s t : State α β} {l : Label α} (h : step buffer s l = some t) :
    Moves buffer s l t := by
  cases l with
  | callPut i x =>
      simp only [step] at h
      split at h
      · cases h
        exact .callPut ‹_›
      · cases h
  | put i woken =>
      simp only [step] at h
      split at h
      · rename_i x place here
        obtain ⟨runs, h⟩ := Option.ite_none_right_eq_some.mp h
        unfold put at h
        split at h
        · obtain ⟨rfl, ⟨⟩⟩ := Option.ite_none_right_eq_some.mp h
          exact .putWait here runs ‹_›
        · obtain ⟨signal, ⟨⟩⟩ := Option.ite_none_right_eq_some.mp h
          exact .putPush here runs (Bool.eq_false_iff.mpr ‹_›) signal
      · cases h
  | callTake i =>
      simp only [step] at h
      split at h
      · cases h
        exact .callTake ‹_›
      · cases h
  | take i woken =>
      simp only [step] at h
      split at h
      · rename_i place here
        obtain ⟨runs, h⟩ := Option.ite_none_right_eq_some.mp h
        unfold take at h
        split at h
        · obtain ⟨rfl, ⟨⟩⟩ := Option.ite_none_right_eq_some.mp h
          exact .takeWait here runs ‹_›
        · rename_i some
          split at h
          · cases h
          · rename_i front first
            obtain ⟨signal, ⟨⟩⟩ := Option.ite_none_right_eq_some.mp h
            exact .takePop here runs (Bool.eq_false_iff.mpr some) first signal
      · cases h
  | wakeProducer i =>
      simp only [step] at h
      split at h
      · cases h
        exact .wakeProducer ‹_›
      · cases h
  | wakeConsumer i =>
      simp only [step] at h
      split at h
      · cases h
        exact .wakeConsumer ‹_›
      · cases h

/-! ### The invariant -/

/-- Of each condition variable: either no thread waits for what there is, or enough others have
been notified. -/
structure Inv (buffer : CircularBuffer α β) (maxSize : Nat) (s : State α β) : Prop where
  capacity : buffer.capacity s.queue = maxSize
  bound : buffer.size s.queue ≤ maxSize
  consumers : Covered (buffer.size s.queue) s.consumers
  producers : Covered (maxSize - buffer.size s.queue) s.producers

section Run

variable {content : β → List α} (documented : buffer.Documented content) {maxSize : Nat}

include documented

theorem size_push_back {queue : β} (x : α) (room : buffer.full queue = false) :
    buffer.size (buffer.push_back queue x) = buffer.size queue + 1 := by
  rw [documented.size_eq, documented.content_push_back queue x room, documented.size_eq]
  exact List.length_append

theorem size_pop_front {queue : β} (some : buffer.empty queue = false) :
    buffer.size (buffer.pop_front queue) = buffer.size queue - 1 := by
  rw [documented.size_eq, documented.content_pop_front queue some, documented.size_eq]
  exact List.length_tail

theorem initial_inv (numProducers numConsumers : Nat) :
    Inv buffer maxSize (initial buffer maxSize numProducers numConsumers) where
  capacity := documented.capacity_ofCapacity maxSize
  bound := by
    rw [initial, documented.size_eq, documented.content_ofCapacity]
    exact Nat.zero_le _
  consumers := by simp [initial, Covered]
  producers := by simp [initial, Covered]

theorem step_inv {s t : State α β} {l : Label α} (inv : Inv buffer maxSize s)
    (moves : Moves buffer s l t) : Inv buffer maxSize t := by
  obtain ⟨capacity, bound, consumers, producers⟩ := inv
  cases moves with
  | callPut here => exact ⟨capacity, bound, consumers, producers.enter here _⟩
  | callTake here => exact ⟨capacity, bound, consumers.enter here (), producers⟩
  | wakeProducer here => exact ⟨capacity, bound, consumers, producers.wakeup here⟩
  | wakeConsumer here => exact ⟨capacity, bound, consumers.wakeup here, producers⟩
  | putWait here runs full =>
      -- nobody waits in vain: there is no room
      have none : maxSize - buffer.size s.queue = 0 := by
        rw [← (documented.full_eq s.queue).mp full, capacity, Nat.sub_self]
      refine ⟨capacity, bound, consumers, ?_⟩
      dsimp only
      rw [none]
      exact .zero _
  | @putPush i woken x place here runs room signal =>
      have size := size_push_back documented x room
      have less : buffer.size s.queue < maxSize := by
        refine Nat.lt_of_le_of_ne bound fun same => ?_
        rw [(documented.full_eq s.queue).mpr (capacity.trans same.symm)] at room
        cases room
      constructor
      · rw [documented.capacity_push_back]
        exact capacity
      · rw [size]
        exact less
      · rw [size]
        exact consumers.signal signal
      · rw [size, ← Nat.sub_sub]
        exact producers.leave here runs
  | takeWait here runs empty =>
      refine ⟨capacity, bound, ?_, producers⟩
      dsimp only
      rw [(documented.empty_eq s.queue).mp empty]
      exact .zero _
  | @takePop i woken front place here runs some first signal =>
      have size := size_pop_front documented some
      have pos : 0 < buffer.size s.queue := by
        refine Nat.pos_of_ne_zero fun none => ?_
        rw [(documented.empty_eq s.queue).mpr none] at some
        cases some
      constructor
      · rw [documented.capacity_pop_front]
        exact capacity
      · rw [size]
        exact Nat.le_trans (Nat.sub_le _ _) bound
      · rw [size]
        exact consumers.leave here runs
      · have more : maxSize - (buffer.size s.queue - 1) = maxSize - buffer.size s.queue + 1 := by
          omega
        rw [size, more]
        exact producers.signal signal

theorem reachable_inv {s : State α β} (reach : (machine buffer maxSize).Reachable s) :
    Inv buffer maxSize s := by
  refine reach.invariant ?_ ?_
  · rintro s ⟨numProducers, numConsumers, rfl⟩
    exact initial_inv documented numProducers numConsumers
  · intro s l t inv step
    exact step_inv documented inv (step_cases step)

/-- Elements are taken in the order in which they have been put, and none is lost. -/
theorem fifo {s : State α β} (reach : (machine buffer maxSize).Reachable s) :
    s.accepted = s.taken ++ content s.queue := by
  refine reach.invariant (I := fun s => s.accepted = s.taken ++ content s.queue) ?_ ?_
  · rintro s ⟨numProducers, numConsumers, rfl⟩
    exact (documented.content_ofCapacity maxSize).symm
  · intro s l t inv step
    cases step_cases step with
    | @putPush i woken x place here runs room signal =>
        dsimp only
        rw [inv, documented.content_push_back s.queue x room, List.append_assoc]
    | @takePop i woken front place here runs some first signal =>
        rw [documented.front_eq] at first
        obtain ⟨rest, elements⟩ := List.head?_eq_some_iff.mp first
        dsimp only
        rw [inv, documented.content_pop_front s.queue some, elements, List.append_assoc]
        rfl
    | callPut | callTake | putWait | takeWait | wakeProducer | wakeConsumer => exact inv

end Run

/-! ### No wakeup is lost -/

/-- Nobody in `put` or `take` can go on, though a thread waits for what is there. -/
def Stuck (buffer : CircularBuffer α β) (s : State α β) : Prop :=
  (∀ thread ∈ s.producers, thread.Asleep) ∧ (∀ thread ∈ s.consumers, thread.Asleep) ∧
    ((buffer.empty s.queue = false ∧ 0 < count .wait s.consumers) ∨
      (buffer.full s.queue = false ∧ 0 < count .wait s.producers))

theorem not_stuck {content : β → List α} (documented : buffer.Documented content) {maxSize : Nat}
    {s : State α β} (inv : Inv buffer maxSize s) : ¬ Stuck buffer s := by
  rintro ⟨producers, consumers, ⟨some, waits⟩ | ⟨room, waits⟩⟩
  · have none := inv.consumers.eq_zero consumers waits
    rw [(documented.empty_eq s.queue).mpr none] at some
    cases some
  · have none := inv.producers.eq_zero producers waits
    have full : buffer.capacity s.queue = buffer.size s.queue :=
      inv.capacity.trans (Nat.le_antisymm (Nat.le_of_sub_eq_zero none) inv.bound)
    rw [(documented.full_eq s.queue).mpr full] at room
    cases room

/-- **No wakeup is lost**, however the threads are scheduled. -/
theorem no_lost_wakeup {content : β → List α} (documented : buffer.Documented content)
    {maxSize : Nat} {s : State α β} (reach : (machine buffer maxSize).Reachable s) :
    buffer.size s.queue ≤ maxSize ∧
      (0 < count .wait s.consumers → buffer.size s.queue ≤ count .notified s.consumers) ∧
      (0 < count .wait s.producers →
        maxSize - buffer.size s.queue ≤ count .notified s.producers) ∧
      ¬ Stuck buffer s := by
  have inv := reachable_inv documented reach
  exact ⟨inv.bound, inv.consumers, inv.producers, not_stuck documented inv⟩

/-- A buffer with its capacity; `push_back` overwrites the first element of a full one. -/
def listBuffer : CircularBuffer α (Nat × List α) where
  ofCapacity n := (n, [])
  size queue := queue.2.length
  capacity queue := queue.1
  full queue := queue.1 = queue.2.length
  empty queue := queue.2.length = 0
  push_back queue x :=
    (queue.1, if queue.1 = queue.2.length then (queue.2 ++ [x]).tail else queue.2 ++ [x])
  front queue := queue.2.head?
  pop_front queue := (queue.1, queue.2.tail)

theorem listBuffer_documented : (listBuffer (α := α)).Documented Prod.snd where
  size_eq _ := rfl
  full_eq _ := decide_eq_true_iff
  empty_eq _ := decide_eq_true_iff
  front_eq _ := rfl
  content_ofCapacity _ := rfl
  capacity_ofCapacity _ := rfl
  content_push_back _ _ room := if_neg (of_decide_eq_false room)
  capacity_push_back _ _ := rfl
  content_pop_front _ _ := rfl
  capacity_pop_front _ := rfl

/-- Two consumers waited, one of them has been notified of the first element, and the second
producer waits for room. -/
def oneEach : State Nat (Nat × List Nat) where
  queue := (1, [7])
  producers := [.outside, .inside 8 .wait]
  consumers := [.inside () .notified, .inside () .wait]
  accepted := [7]
  taken := []

theorem no_lost_wakeup_oneEach :
    listBuffer.size oneEach.queue ≤ 1 ∧
      (0 < count .wait oneEach.consumers →
        listBuffer.size oneEach.queue ≤ count .notified oneEach.consumers) ∧
      (0 < count .wait oneEach.producers →
        1 - listBuffer.size oneEach.queue ≤ count .notified oneEach.producers) ∧
      ¬ Stuck listBuffer oneEach := by
  refine no_lost_wakeup listBuffer_documented ?_
  exact Machine.reachable_of_run
    [.callTake 0, .take 0 [], .callTake 1, .take 1 [], .callPut 0 7, .put 0 [0], .callPut 1 8,
      .put 1 []] ⟨2, 2, rfl⟩ (by decide)

end BoundedBlockingQueue

end Dbdky
