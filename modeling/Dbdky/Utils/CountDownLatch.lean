import Dbdky.CInt.Calc
import Dbdky.Sync.Monitor
import Dbdky.Transition.Machine

/-!
`CountDownLatch` (`src/utils/CountDownLatch.{h,cpp}`): a gate that opens after a number of
calls of `countDown`.

A step is a section under `mutex_`: from where a thread gets the lock, for the first time or
in `wait()`, up to the next `condition_.wait()` or to the end.

* **`gate`.** Nobody passes before the last call, and nobody is left at the gate after it.
-/

namespace Dbdky

open Transition Sync.Monitor

namespace CountDownLatch

structure State where
  /-- `count_` -/
  count : Int
  /-- The threads that call `wait`. -/
  waiters : List (Thread Unit)
  /-- History: how often `countDown` has been called. -/
  countDowns : Nat
  /-- History: how many calls of `wait` have returned. -/
  returned : Nat
deriving DecidableEq

inductive Label where
  | callWait (i : Nat)
  /-- the lock is given to the thread in `wait` -/
  | wait (i : Nat)
  /-- `condition_.wait()` returns by itself -/
  | awake (i : Nat)
  | countDown
deriving DecidableEq

def initial (count : Int) (numWaiters : Nat) : State where
  count
  waiters := List.replicate numWaiters .outside
  countDowns := 0
  returned := 0

/-- `wait`, from `while (count_ > 0)` on -/
def wait (s : State) (i : Nat) : State :=
  if s.count > 0 then { s with waiters := s.waiters.set i (.inside () .wait) }
  else { s with waiters := s.waiters.set i .outside, returned := s.returned + 1 }

/-- `count_--` is undefined where `count_` is the least `int`. -/
def countDown (s : State) : Option State :=
  if CInt.INT_MIN < s.count then
    let count := s.count - 1
    some { s with
      count
      waiters := if count = 0 then wakeAll s.waiters else s.waiters
      countDowns := s.countDowns + 1 }
  else none

def step (s : State) : Label → Option State
  | .callWait i =>
      match s.waiters[i]? with
      | some .outside => some { s with waiters := s.waiters.set i (.inside () .enter) }
      | _ => none
  | .wait i =>
      match s.waiters[i]? with
      | some (.inside () place) => if place ≠ .wait then some (wait s i) else none
      | _ => none
  | .awake i =>
      match s.waiters[i]? with
      | some (.inside () .wait) => some { s with waiters := s.waiters.set i (.inside () .awake) }
      | _ => none
  | .countDown => countDown s

/-- A latch for `count` calls of `countDown`, any number of threads. -/
def machine (count : Int) : Machine State Label where
  init s := ∃ numWaiters, s = initial count numWaiters
  step := step

/-! ### What a step does -/

/-- The steps, branch by branch. -/
inductive Moves (s : State) : Label → State → Prop where
  | callWait {i : Nat} (here : s.waiters[i]? = some .outside) :
      Moves s (.callWait i) { s with waiters := s.waiters.set i (.inside () .enter) }
  | sleep {i : Nat} {place : Place} (here : s.waiters[i]? = some (.inside () place))
      (runs : place ≠ .wait) (closed : 0 < s.count) :
      Moves s (.wait i) { s with waiters := s.waiters.set i (.inside () .wait) }
  | pass {i : Nat} {place : Place} (here : s.waiters[i]? = some (.inside () place))
      (runs : place ≠ .wait) (opened : s.count ≤ 0) :
      Moves s (.wait i)
        { s with waiters := s.waiters.set i .outside, returned := s.returned + 1 }
  | awake {i : Nat} (here : s.waiters[i]? = some (.inside () .wait)) :
      Moves s (.awake i) { s with waiters := s.waiters.set i (.inside () .awake) }
  | countDown (defined : CInt.INT_MIN < s.count) :
      Moves s .countDown
        { s with
          count := s.count - 1
          waiters := if s.count - 1 = 0 then wakeAll s.waiters else s.waiters
          countDowns := s.countDowns + 1 }

theorem step_cases {s t : State} {l : Label} (h : step s l = some t) : Moves s l t := by
  cases l with
  | callWait i =>
      simp only [step] at h
      split at h
      · cases h
        exact .callWait ‹_›
      · cases h
  | wait i =>
      simp only [step] at h
      split at h
      · rename_i place here
        obtain ⟨runs, ⟨⟩⟩ := Option.ite_none_right_eq_some.mp h
        unfold wait
        split
        · exact .sleep here runs ‹_›
        · exact .pass here runs (Int.not_lt.mp ‹_›)
      · cases h
  | awake i =>
      simp only [step] at h
      split at h
      · cases h
        exact .awake ‹_›
      · cases h
  | countDown =>
      obtain ⟨defined, ⟨⟩⟩ := Option.ite_none_right_eq_some.mp h
      exact .countDown defined

/-! ### The gate -/

structure Inv (start : Int) (s : State) : Prop where
  counted : s.count = start - s.countDowns
  /-- Nobody waits at an open gate. -/
  waits : s.count ≤ 0 → count .wait s.waiters = 0
  /-- Nobody has passed a closed one. -/
  passed : 0 < s.returned → s.count ≤ 0

theorem step_inv {start : Int} {s t : State} {l : Label} (inv : Inv start s) (moves : Moves s l t) :
    Inv start t := by
  obtain ⟨counted, waits, passed⟩ := inv
  cases moves with
  | callWait here =>
      refine ⟨counted, fun opened => ?_, passed⟩
      rw [count_set_other here rfl rfl]
      exact waits opened
  | sleep here runs closed =>
      exact ⟨counted, fun opened => absurd closed (Int.not_lt.mpr opened), passed⟩
  | pass here runs opened =>
      refine ⟨counted, fun _ => ?_, fun _ => opened⟩
      rw [count_set_other here (decide_eq_false runs) rfl]
      exact waits opened
  | awake here =>
      refine ⟨counted, fun opened => ?_, passed⟩
      exact absurd rfl (place_ne_wait (waits opened) here)
  | countDown defined =>
      refine ⟨?_, fun opened => ?_, fun some => ?_⟩
      · dsimp only
        rw [counted, Int.natCast_succ, Int.sub_sub]
      · dsimp only at opened ⊢
        split
        · exact wait_wakeAll _
        · exact waits (by omega)
      · exact Int.le_trans (Int.sub_le_self _ (by decide)) (passed some)

theorem reachable_inv {start : Int} {s : State} (reach : (machine start).Reachable s) :
    Inv start s := by
  refine reach.invariant ?_ ?_
  · rintro s ⟨numWaiters, rfl⟩
    exact ⟨(Int.sub_zero _).symm, fun _ => count_replicate _ _, nofun⟩
  · intro s l t inv step
    exact step_inv inv (step_cases step)

/-- **The gate.** As long as there have been fewer than `start` calls of `countDown`, no call of
`wait` returns; from then on no thread is left in `condition_.wait()`, and each that is in `wait`
returns as soon as it is given the lock. -/
theorem gate {start : Int} {s : State} (reach : (machine start).Reachable s) :
    (s.countDowns < start → s.returned = 0) ∧
      (start ≤ s.countDowns → count .wait s.waiters = 0 ∧
        ∀ i place, s.waiters[i]? = some (.inside () place) →
          ∃ t, step s (.wait i) = some t ∧ t.waiters[i]? = some .outside ∧
            t.returned = s.returned + 1) := by
  obtain ⟨counted, waits, passed⟩ := reachable_inv reach
  constructor
  · intro closed
    refine Nat.eq_zero_of_not_pos fun some => ?_
    have opened := passed some
    omega
  · intro enough
    have opened : s.count ≤ 0 := by omega
    have nobody := waits opened
    refine ⟨nobody, fun i place here => ?_⟩
    have bound := (List.getElem?_eq_some_iff.mp here).1
    have passes : wait s i =
        { s with waiters := s.waiters.set i .outside, returned := s.returned + 1 } :=
      if_neg (Int.not_lt.mpr opened)
    refine ⟨wait s i, ?_, ?_, ?_⟩
    · simp only [step, here, if_pos (place_ne_wait nobody here)]
    · rw [passes]
      exact List.getElem?_set_self bound
    · rw [passes]

/-- A thread waits for two calls, which have been made. -/
def opened : State where
  count := 0
  waiters := [.inside () .notified]
  countDowns := 2
  returned := 0

theorem gate_opened :
    (opened.countDowns < (2 : Int) → opened.returned = 0) ∧
      ((2 : Int) ≤ opened.countDowns → count .wait opened.waiters = 0 ∧
        ∀ i place, opened.waiters[i]? = some (.inside () place) →
          ∃ t, step opened (.wait i) = some t ∧ t.waiters[i]? = some .outside ∧
            t.returned = opened.returned + 1) := by
  refine gate ?_
  exact Machine.reachable_of_run [.callWait 0, .wait 0, .countDown, .countDown] ⟨1, rfl⟩ (by decide)

end CountDownLatch

end Dbdky
