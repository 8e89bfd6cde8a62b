import Dbdky.Sync.Waiters

/-!
Threads in an operation of a monitor.

A thread calls the operation, waits for the lock and tests its condition. If it has to wait
it gives the lock back until it is notified or wakes up by itself; either way it has to wait
for the lock and tests its condition once more. Threads are known by their place in the list.

* **`Signal.notified_lt`.** A signal that finds a thread waiting notifies one.
* **`Covered`.** While a thread waits, what it waits for is left to those that have been
  notified. This is kept when one more is signalled and when a thread takes one.
-/

namespace Sync.Monitor

/-- Where a thread is in the operation. -/
inductive Place where
  /-- at the lock, for the first time -/
  | enter
  /-- in `wait()` -/
  | wait
  /-- notified, at the lock again -/
  | notified
  /-- woken up by itself, at the lock again -/
  | awake
deriving DecidableEq, Repr

/-- A thread that is in the operation keeps its argument. -/
inductive Thread (α : Type*) where
  | outside
  | inside (arg : α) (place : Place)
deriving DecidableEq, Repr

variable {α : Type*}

def Thread.isAt (place : Place) : Thread α → Bool
  | .outside => false
  | .inside _ here => here = place

/-- How many threads are there. -/
def count (place : Place) (threads : List (Thread α)) : Nat :=
  threads.countP (Thread.isAt place)

section Set

variable {threads : List (Thread α)} {i : Nat} {old new : Thread α} {place : Place}

theorem count_set_add (here : threads[i]? = some old) (new : Thread α) (place : Place) :
    count place (threads.set i new) + (if old.isAt place then 1 else 0) =
      count place threads + (if new.isAt place then 1 else 0) :=
  countP_set_add here new

/-- The thread was not there and does not go there. -/
theorem count_set_other (here : threads[i]? = some old) (left : old.isAt place = false)
    (elsewhere : new.isAt place = false) :
    count place (threads.set i new) = count place threads := by
  have counted := count_set_add here new place
  rw [left, elsewhere] at counted
  exact Nat.add_right_cancel counted

theorem count_set_to (here : threads[i]? = some old) (left : old.isAt place = false)
    (there : new.isAt place = true) :
    count place (threads.set i new) = count place threads + 1 := by
  have counted := count_set_add here new place
  rw [left, there] at counted
  exact counted

theorem count_set_from (here : threads[i]? = some old) (there : old.isAt place = true)
    (elsewhere : new.isAt place = false) :
    count place (threads.set i new) + 1 = count place threads := by
  have counted := count_set_add here new place
  rw [there, elsewhere] at counted
  exact counted

end Set

/-- Threads that are all outside. -/
@[simp] theorem count_replicate (place : Place) (n : Nat) :
    count place (List.replicate n (Thread.outside : Thread α)) = 0 := by
  refine List.countP_eq_zero.mpr ?_
  intro thread mem
  rw [List.eq_of_mem_replicate mem]
  exact Bool.false_ne_true

/-- The thread cannot do anything by itself. -/
def Thread.Asleep : Thread α → Prop
  | .outside => True
  | .inside _ place => place = .wait

theorem notified_asleep {threads : List (Thread α)} (asleep : ∀ thread ∈ threads, thread.Asleep) :
    count .notified threads = 0 := by
  refine List.countP_eq_zero.mpr ?_
  intro thread mem
  cases thread with
  | outside => exact Bool.false_ne_true
  | inside arg place =>
      cases asleep _ mem
      exact Bool.false_ne_true

/-! ### Signals -/

/-- The thread at `i` is notified, if it waits. -/
def wakeAt (i : Nat) (threads : List (Thread α)) : List (Thread α) :=
  match threads[i]? with
  | some (.inside arg .wait) => threads.set i (.inside arg .notified)
  | _ => threads

def wake : List Nat → List (Thread α) → List (Thread α)
  | [], threads => threads
  | i :: woken, threads => wake woken (wakeAt i threads)

def WaitsAt (threads : List (Thread α)) (i : Nat) : Prop :=
  (threads[i]?.any (Thread.isAt .wait)) = true

/-- What a signal may do: it notifies threads that wait, and one at least if there is one. -/
def Signal (woken : List Nat) (threads : List (Thread α)) : Prop :=
  (∀ i ∈ woken, WaitsAt threads i) ∧ (woken = [] → count .wait threads = 0)

instance (threads : List (Thread α)) (i : Nat) : Decidable (WaitsAt threads i) :=
  inferInstanceAs (Decidable (_ = _))

instance (woken : List Nat) (threads : List (Thread α)) : Decidable (Signal woken threads) :=
  inferInstanceAs (Decidable (_ ∧ _))

variable {woken : List Nat} {threads : List (Thread α)} {i : Nat}

theorem WaitsAt.exists (waits : WaitsAt threads i) :
    ∃ arg, threads[i]? = some (.inside arg .wait) := by
  cases here : threads[i]? with
  | none =>
      rw [WaitsAt, here] at waits
      cases waits
  | some thread =>
      rw [WaitsAt, here] at waits
      cases thread with
      | outside => cases waits
      | inside arg place =>
          cases of_decide_eq_true waits
          exact ⟨arg, rfl⟩

theorem wakeAt_of_waits {arg : α} (here : threads[i]? = some (.inside arg .wait)) :
    wakeAt i threads = threads.set i (.inside arg .notified) := by
  rw [wakeAt, here]

/-- One notification: nothing happens, or a thread that waited is notified. -/
theorem wakeAt_cases (i : Nat) (threads : List (Thread α)) :
    wakeAt i threads = threads ∨
      ∃ arg, threads[i]? = some (.inside arg .wait) ∧
        wakeAt i threads = threads.set i (.inside arg .notified) := by
  unfold wakeAt
  split
  · exact .inr ⟨_, ‹_›, rfl⟩
  · exact .inl rfl

theorem notified_wakeAt_le : count .notified threads ≤ count .notified (wakeAt i threads) := by
  rcases wakeAt_cases i threads with same | ⟨arg, here, moved⟩
  · exact Nat.le_of_eq (congrArg _ same.symm)
  · rw [moved, count_set_to here rfl rfl]
    exact Nat.le_succ _

theorem notified_wake_le : count .notified threads ≤ count .notified (wake woken threads) := by
  induction woken generalizing threads with
  | nil => exact Nat.le_refl _
  | cons i woken ih => exact Nat.le_trans notified_wakeAt_le ih

theorem wait_wakeAt_le : count .wait (wakeAt i threads) ≤ count .wait threads := by
  rcases wakeAt_cases i threads with same | ⟨arg, here, moved⟩
  · exact Nat.le_of_eq (congrArg _ same)
  · have fewer : count .wait (threads.set i (.inside arg .notified)) + 1 = count .wait threads :=
      count_set_from here rfl rfl
    rw [moved, ← fewer]
    exact Nat.le_succ _

theorem wait_wake_le : count .wait (wake woken threads) ≤ count .wait threads := by
  induction woken generalizing threads with
  | nil => exact Nat.le_refl _
  | cons i woken ih => exact Nat.le_trans ih wait_wakeAt_le

/-- A signal notifies a thread, if one waits. -/
theorem Signal.notified_lt (signal : Signal woken threads) (some : 0 < count .wait threads) :
    count .notified threads < count .notified (wake woken threads) := by
  obtain ⟨waits, all⟩ := signal
  cases woken with
  | nil => exact absurd (all rfl) (Nat.ne_of_gt some)
  | cons i woken =>
      obtain ⟨arg, here⟩ := (waits i (List.mem_cons_self ..)).exists
      have first : count .notified (wakeAt i threads) = count .notified threads + 1 := by
        rw [wakeAt_of_waits here, count_set_to here rfl rfl]
      have more :
          count .notified (wakeAt i threads) ≤ count .notified (wake (i :: woken) threads) :=
        notified_wake_le
      rw [first] at more
      exact more

/-- Every thread that waits is notified. -/
def wakeAll (threads : List (Thread α)) : List (Thread α) :=
  threads.map fun
    | .inside arg .wait => .inside arg .notified
    | thread => thread

@[simp] theorem wait_wakeAll (threads : List (Thread α)) : count .wait (wakeAll threads) = 0 := by
  refine List.countP_eq_zero.mpr ?_
  intro thread mem
  obtain ⟨before, -, rfl⟩ := List.mem_map.mp mem
  split
  · exact Bool.false_ne_true
  · rename_i stays
    cases before with
    | outside => exact Bool.false_ne_true
    | inside arg place =>
        intro waits
        cases of_decide_eq_true waits
        exact stays arg rfl

/-- No thread waits: each is at the lock or outside. -/
theorem place_ne_wait (none : count .wait threads = 0) {arg : α} {place : Place}
    (here : threads[i]? = some (.inside arg place)) : place ≠ .wait := by
  rintro rfl
  exact List.countP_eq_zero.mp none _ (List.mem_of_getElem? here) rfl

/-! ### What the threads wait for -/

/-- If a thread waits, then `n` or more others have been notified. -/
def Covered (n : Nat) (threads : List (Thread α)) : Prop :=
  0 < count .wait threads → n ≤ count .notified threads

namespace Covered

variable {n : Nat}

theorem zero (threads : List (Thread α)) : Covered 0 threads := fun _ => Nat.zero_le _

/-- One more, and a signal. -/
theorem signal (covered : Covered n threads) (signal : Signal woken threads) :
    Covered (n + 1) (wake woken threads) := by
  intro some
  have some : 0 < count .wait threads := Nat.lt_of_lt_of_le some wait_wake_le
  exact Nat.lt_of_le_of_lt (covered some) (signal.notified_lt some)

/-- A thread that does not wait leaves with one. -/
theorem leave {arg : α} {place : Place} (covered : Covered n threads)
    (here : threads[i]? = some (.inside arg place)) (runs : place ≠ .wait) :
    Covered (n - 1) (threads.set i .outside) := by
  intro some
  rw [count_set_other here (decide_eq_false runs) rfl] at some
  have before := covered some
  by_cases notified : place = .notified
  · have left : count .notified (threads.set i .outside) + 1 = count .notified threads :=
      count_set_from here (decide_eq_true notified) rfl
    omega
  · rw [count_set_other here (decide_eq_false notified) rfl]
    exact Nat.le_trans (Nat.sub_le n 1) before

theorem enter (covered : Covered n threads) (here : threads[i]? = some .outside) (arg : α) :
    Covered n (threads.set i (.inside arg .enter)) := by
  intro some
  rw [count_set_other here rfl rfl] at some ⊢
  exact covered some

theorem wakeup {arg : α} (covered : Covered n threads)
    (here : threads[i]? = some (.inside arg .wait)) :
    Covered n (threads.set i (.inside arg .awake)) := by
  intro some
  have fewer : count .wait (threads.set i (.inside arg .awake)) + 1 = count .wait threads :=
    count_set_from here rfl rfl
  rw [count_set_other here rfl rfl]
  exact covered (fewer ▸ Nat.succ_pos _)

/-- If nobody does anything but somebody waits, there is nothing left. -/
theorem eq_zero (covered : Covered n threads) (asleep : ∀ thread ∈ threads, thread.Asleep)
    (some : 0 < count .wait threads) : n = 0 :=
  Nat.le_zero.mp (notified_asleep asleep ▸ covered some)

end Covered

end Sync.Monitor
