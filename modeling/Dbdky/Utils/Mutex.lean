import Dbdky.Transition.Machine
import Mathlib.Logic.Function.Basic

/-!
`MutexLock`, `MutexLockGuard` and `Condition` (`src/utils/Mutex.h`, `src/utils/Condition.h`).

One mutex, the conditions that use it, and any number of threads that lock it through a
`MutexLockGuard`. `lock()` and `unlock()` are two steps each, since `holder_` is written after
`mutex_` has been taken and before it is given back; `pthread_cond_wait` gives `mutex_` back
and takes it again without `holder_` being written.

* **`reachable_inv`.** One thread owns `mutex_`, and `holder_` names a thread that owns it or
  that waits.
* **`isLockedByThisThread_iff_unwritten`.** What `isLockedByThisThread()` tells a thread after
  any steps of the others.
-/

namespace Dbdky

open Transition

namespace MutexLock

variable {Tid : Type*}

/-- Where a thread is. -/
inductive Place where
  | outside
  /-- in `lock()`: `pthread_mutex_lock` has returned -/
  | locking
  /-- between `lock()` and `unlock()` -/
  | locked
  /-- in `unlock()`: `holder_` is 0 -/
  | unlocking
  /-- in `pthread_cond_wait` -/
  | waiting
deriving DecidableEq, Repr

def Place.owns : Place → Bool
  | outside | waiting => false
  | locking | locked | unlocking => true

structure State (Tid : Type*) where
  /-- who has `mutex_` -/
  owner : Option Tid
  /-- `holder_`, which is 0 where this is `none` -/
  holder : Option Tid
  place : Tid → Place

def initial : State Tid where
  owner := none
  holder := none
  place _ := .outside

/-- A step of the thread `t`. -/
inductive Label (Tid : Type*) where
  /-- `pthread_mutex_lock(&mutex_)` returns -/
  | mutexLock (t : Tid)
  /-- `holder_ = CurrentThread::tid()` -/
  | setHolder (t : Tid)
  /-- `holder_ = 0` -/
  | clearHolder (t : Tid)
  /-- `pthread_mutex_unlock(&mutex_)` -/
  | mutexUnlock (t : Tid)
  /-- `pthread_cond_wait` gives `mutex_` back -/
  | wait (t : Tid)
  /-- `pthread_cond_wait` or `pthread_cond_timedwait` returns, with `mutex_` -/
  | awake (t : Tid)

variable [DecidableEq Tid]

/-- `isLockedByThisThread()`, called by the thread `t`, and what `assertLocked()` asserts -/
def isLockedByThisThread (s : State Tid) (t : Tid) : Bool := s.holder = some t

def State.goTo (s : State Tid) (t : Tid) (place : Place) : State Tid :=
  { s with place := Function.update s.place t place }

section GoTo

variable (s : State Tid) (t : Tid) (place : Place)

@[simp] theorem goTo_owner : (s.goTo t place).owner = s.owner := rfl

@[simp] theorem goTo_holder : (s.goTo t place).holder = s.holder := rfl

@[simp] theorem goTo_place_self : (s.goTo t place).place t = place := Function.update_self ..

theorem goTo_place_of_ne {u : Tid} (other : u ≠ t) : (s.goTo t place).place u = s.place u :=
  Function.update_of_ne other ..

end GoTo

def step (s : State Tid) : Label Tid → Option (State Tid)
  | .mutexLock t =>
      if s.place t = .outside ∧ s.owner = none then
        some ({ s with owner := some t }.goTo t .locking)
      else none
  | .setHolder t =>
      if s.place t = .locking then some ({ s with holder := some t }.goTo t .locked) else none
  | .clearHolder t =>
      if s.place t = .locked then some ({ s with holder := none }.goTo t .unlocking) else none
  | .mutexUnlock t =>
      if s.place t = .unlocking then some ({ s with owner := none }.goTo t .outside) else none
  | .wait t =>
      if s.place t = .locked then some ({ s with owner := none }.goTo t .waiting) else none
  | .awake t =>
      if s.place t = .waiting ∧ s.owner = none then
        some ({ s with owner := some t }.goTo t .locked)
      else none

def machine : Machine (State Tid) (Label Tid) where
  init s := s = initial
  step := step

/-! ### What a step does -/

/-- The steps, one by one. -/
inductive Moves (s : State Tid) : Label Tid → State Tid → Prop where
  | mutexLock {t : Tid} (here : s.place t = .outside) (free : s.owner = none) :
      Moves s (.mutexLock t) ({ s with owner := some t }.goTo t .locking)
  | setHolder {t : Tid} (here : s.place t = .locking) :
      Moves s (.setHolder t) ({ s with holder := some t }.goTo t .locked)
  | clearHolder {t : Tid} (here : s.place t = .locked) :
      Moves s (.clearHolder t) ({ s with holder := none }.goTo t .unlocking)
  | mutexUnlock {t : Tid} (here : s.place t = .unlocking) :
      Moves s (.mutexUnlock t) ({ s with owner := none }.goTo t .outside)
  | wait {t : Tid} (here : s.place t = .locked) :
      Moves s (.wait t) ({ s with owner := none }.goTo t .waiting)
  | awake {t : Tid} (here : s.place t = .waiting) (free : s.owner = none) :
      Moves s (.awake t) ({ s with owner := some t }.goTo t .locked)

theorem step_cases {s u : State Tid} {l : Label Tid} (h : step s l = some u) : Moves s l u := by
  cases l with
  | mutexLock t =>
      obtain ⟨⟨here, free⟩, ⟨⟩⟩ := Option.ite_none_right_eq_some.mp h
      exact .mutexLock here free
  | setHolder t =>
      obtain ⟨here, ⟨⟩⟩ := Option.ite_none_right_eq_some.mp h
      exact .setHolder here
  | clearHolder t =>
      obtain ⟨here, ⟨⟩⟩ := Option.ite_none_right_eq_some.mp h
      exact .clearHolder here
  | mutexUnlock t =>
      obtain ⟨here, ⟨⟩⟩ := Option.ite_none_right_eq_some.mp h
      exact .mutexUnlock here
  | wait t =>
      obtain ⟨here, ⟨⟩⟩ := Option.ite_none_right_eq_some.mp h
      exact .wait here
  | awake t =>
      obtain ⟨⟨here, free⟩, ⟨⟩⟩ := Option.ite_none_right_eq_some.mp h
      exact .awake here free

/-! ### The invariant -/

/-- Who may be named by `mutex_` and by `holder_`. -/
structure Inv (s : State Tid) : Prop where
  owner_iff : ∀ t, s.owner = some t ↔ (s.place t).owns = true
  holder_place : ∀ t, s.holder = some t → s.place t = .locked ∨ s.place t = .waiting

/-- A thread that takes or gives back `mutex_` changes nothing of what the others own. -/
theorem owner_iff_update {place : Tid → Place} {owner owner' : Option Tid} {t : Tid} {new : Place}
    (before : ∀ u, owner = some u ↔ (place u).owns = true)
    (free : owner = none ∨ owner = some t)
    (after : owner' = if new.owns then some t else none) (u : Tid) :
    owner' = some u ↔ (Function.update place t new u).owns = true := by
  by_cases self : u = t
  · subst self
    rw [Function.update_self, after]
    split <;> simp [*]
  · have others : ¬ (place u).owns = true := by
      rw [← before u]
      rcases free with free | mine
      · rw [free]
        exact (Option.some_ne_none u).symm
      · rw [mine]
        exact fun same => self (Option.some.inj same).symm
    rw [Function.update_of_ne self, after]
    refine iff_of_false ?_ others
    split
    · exact fun same => self (Option.some.inj same).symm
    · exact (Option.some_ne_none u).symm

/-- A thread that `holder_` names goes where `holder_` may name it, or is another one. -/
theorem holder_place_update {place : Tid → Place} {holder : Option Tid} {t : Tid} {new : Place}
    (before : ∀ u, holder = some u → place u = .locked ∨ place u = .waiting)
    (stays : holder = some t → new = .locked ∨ new = .waiting) (u : Tid)
    (named : holder = some u) :
    Function.update place t new u = .locked ∨ Function.update place t new u = .waiting := by
  by_cases self : u = t
  · subst self
    rw [Function.update_self]
    exact stays named
  · rw [Function.update_of_ne self]
    exact before u named

theorem step_inv {s u : State Tid} {l : Label Tid} (inv : Inv s) (moves : Moves s l u) : Inv u := by
  obtain ⟨owner_iff, holder_place⟩ := inv
  have owned {t : Tid} (owns : (s.place t).owns = true) : s.owner = some t := (owner_iff t).mpr owns
  cases moves with
  | @mutexLock t here free =>
      refine ⟨owner_iff_update owner_iff (.inl free) rfl, holder_place_update holder_place ?_⟩
      intro named
      rcases holder_place t named with there | there <;> cases here.symm.trans there
  | @setHolder t here =>
      have mine : s.owner = some t := owned (by rw [here]; rfl)
      refine ⟨owner_iff_update owner_iff (.inr mine) mine, ?_⟩
      rintro u ⟨⟩
      exact .inl (goTo_place_self ..)
  | @clearHolder t here =>
      have mine : s.owner = some t := owned (by rw [here]; rfl)
      exact ⟨owner_iff_update owner_iff (.inr mine) mine, nofun⟩
  | @mutexUnlock t here =>
      have mine : s.owner = some t := owned (by rw [here]; rfl)
      refine ⟨owner_iff_update owner_iff (.inr mine) rfl, holder_place_update holder_place ?_⟩
      intro named
      rcases holder_place t named with there | there <;> cases here.symm.trans there
  | @wait t here =>
      have mine : s.owner = some t := owned (by rw [here]; rfl)
      exact ⟨owner_iff_update owner_iff (.inr mine) rfl,
        holder_place_update holder_place fun _ => .inr rfl⟩
  | @awake t here free =>
      exact ⟨owner_iff_update owner_iff (.inl free) rfl,
        holder_place_update holder_place fun _ => .inl rfl⟩

omit [DecidableEq Tid] in
theorem initial_inv : Inv (initial : State Tid) where
  owner_iff _ := iff_of_false nofun nofun
  holder_place _ := nofun

theorem reachable_inv {s : State Tid} (reach : (machine : Machine _ (Label Tid)).Reachable s) :
    Inv s := by
  refine reach.invariant ?_ ?_
  · rintro s rfl
    exact initial_inv
  · intro s l u inv step
    exact step_inv inv (step_cases step)

/-- **The lock excludes**, `assertLocked()` passes only in a thread that has the lock, and
`~MutexLock()` does not fail when no thread uses the lock. -/
theorem assertLocked_sound {s : State Tid} (reach : (machine : Machine _ (Label Tid)).Reachable s) :
    (∀ t u, (s.place t).owns = true → (s.place u).owns = true → t = u) ∧
      (∀ t, isLockedByThisThread s t = true → s.place t ≠ .waiting →
        s.place t = .locked ∧ s.owner = some t) ∧
      ((∀ t, s.place t = .outside) → s.holder = none) := by
  obtain ⟨owner_iff, holder_place⟩ := reachable_inv reach
  refine ⟨?_, ?_, ?_⟩
  · intro t u first second
    have mine := (owner_iff t).mpr first
    have yours := (owner_iff u).mpr second
    exact Option.some.inj (mine.symm.trans yours)
  · intro t passes runs
    have locked : s.place t = .locked :=
      (holder_place t (of_decide_eq_true passes)).resolve_right runs
    exact ⟨locked, (owner_iff t).mpr (by rw [locked]; rfl)⟩
  · intro unused
    refine Option.eq_none_iff_forall_ne_some.mpr fun t named => ?_
    rcases holder_place t named with there | there <;> cases (unused t).symm.trans there

/-! ### Sections -/

/-- `MutexLockGuard`'s constructor -/
def enter (t : Tid) : List (Label Tid) := [.mutexLock t, .setHolder t]

/-- `MutexLockGuard`'s destructor -/
def leave (t : Tid) : List (Label Tid) := [.clearHolder t, .mutexUnlock t]

section Section

variable {s : State Tid} {t : Tid}

theorem run_enter (free : s.owner = none) (here : s.place t = .outside) :
    machine.run s (enter t) =
      some { owner := some t, holder := some t, place := Function.update s.place t .locked } := by
  simp [enter, machine, Machine.run, step, free, here, State.goTo]

theorem run_awake (free : s.owner = none) (here : s.place t = .waiting) :
    machine.run s [.awake t] =
      some { s with owner := some t, place := Function.update s.place t .locked } := by
  simp [machine, Machine.run, step, free, here, State.goTo]

theorem run_enter_leave (free : s.owner = none) (here : s.place t = .outside) :
    machine.run s (enter t ++ leave t) = some { s with owner := none, holder := none } := by
  have same : Function.update s.place t .outside = s.place :=
    Function.update_eq_self_iff.mpr here.symm
  simp [enter, leave, machine, Machine.run, step, free, here, State.goTo, same]

theorem run_enter_wait (free : s.owner = none) (here : s.place t = .outside) :
    machine.run s (enter t ++ [.wait t]) =
      some { owner := none, holder := some t, place := Function.update s.place t .waiting } := by
  simp [enter, machine, Machine.run, step, free, here, State.goTo]

theorem run_awake_leave (free : s.owner = none) (here : s.place t = .waiting) :
    machine.run s (.awake t :: leave t) =
      some { owner := none, holder := none, place := Function.update s.place t .outside } := by
  simp [leave, machine, Machine.run, step, free, here, State.goTo]

theorem run_awake_wait (free : s.owner = none) (here : s.place t = .waiting) :
    machine.run s [.awake t, .wait t] = some s := by
  obtain ⟨owner, holder, place⟩ := s
  cases free
  have same : Function.update place t .waiting = place :=
    Function.update_eq_self_iff.mpr here.symm
  simp_all [machine, Machine.run, step, State.goTo]

end Section

/-! ### What the owner of the lock is told -/

/-- The thread that makes the step. -/
def Label.thread : Label Tid → Tid
  | .mutexLock t | .setHolder t | .clearHolder t | .mutexUnlock t | .wait t | .awake t => t

/-- The step assigns to `holder_`. -/
def Label.writesHolder : Label Tid → Bool
  | .setHolder _ | .clearHolder _ => true
  | .mutexLock _ | .mutexUnlock _ | .wait _ | .awake _ => false

theorem place_of_moves {s u : State Tid} {l : Label Tid} {t : Tid} (moves : Moves s l u)
    (other : t ≠ l.thread) : u.place t = s.place t := by
  cases moves <;> exact goTo_place_of_ne _ _ _ other

theorem holder_of_unwritten {s u : State Tid} {l : Label Tid} (moves : Moves s l u)
    (unwritten : l.writesHolder = false) : u.holder = s.holder := by
  cases moves <;> first | rfl | cases unwritten

/-- Nobody waits, and who has passed `lock()` is named. -/
structure Named (s : State Tid) : Prop where
  inv : Inv s
  awake : ∀ t, s.place t ≠ .waiting
  named : ∀ t, s.place t = .locked → s.holder = some t

theorem step_named {s u : State Tid} {l : Label Tid} (before : Named s) (moves : Moves s l u)
    (running : ∀ t, l ≠ .wait t) : Named u := by
  obtain ⟨inv, awake, named⟩ := before
  refine ⟨step_inv inv moves, fun t => ?_, fun t locked => ?_⟩
  · by_cases self : t = l.thread
    · subst self
      cases moves with
      | wait here => exact absurd rfl (running _)
      | mutexLock | setHolder | clearHolder | mutexUnlock | awake =>
          rw [Label.thread, goTo_place_self]
          exact nofun
    · rw [place_of_moves moves self]
      exact awake t
  · by_cases self : t = l.thread
    · subst self
      cases moves with
      | setHolder here => rfl
      | awake here free => exact absurd here (awake _)
      | mutexLock | clearHolder | mutexUnlock | wait =>
          rw [Label.thread, goTo_place_self] at locked
          cases locked
    · rw [place_of_moves moves self] at locked
      have mine := (inv.owner_iff t).mpr (by rw [locked]; rfl)
      -- whoever writes `holder_` owns the mutex as well
      cases moves with
      | setHolder here =>
          have yours := (inv.owner_iff _).mpr (by rw [here]; rfl)
          exact absurd (Option.some.inj (mine.symm.trans yours)) self
      | clearHolder here =>
          have yours := (inv.owner_iff _).mpr (by rw [here]; rfl)
          exact absurd (Option.some.inj (mine.symm.trans yours)) self
      | mutexLock | mutexUnlock | wait | awake => exact named t locked

/-- Without a `wait()`, `isLockedByThisThread()` is true exactly between `lock()` and `unlock()`. -/
theorem isLockedByThisThread_iff_locked {s : State Tid}
    (reach : (machine : Machine _ (Label Tid)).ReachableWhere (fun _ l => ∀ t, l ≠ .wait t) s)
    (t : Tid) :
    isLockedByThisThread s t = true ↔ s.place t = .locked := by
  have names : Named s := by
    refine reach.invariant ?_ ?_
    · rintro s rfl
      exact ⟨initial_inv, fun _ => nofun, fun _ => nofun⟩
    · intro s l u names running step
      exact step_named names (step_cases step) running
  rw [isLockedByThisThread, decide_eq_true_iff]
  exact ⟨fun named => (names.inv.holder_place t named).resolve_right (names.awake t),
    names.named t⟩

/-- The thread has called `lock()` and not yet `unlock()`. -/
def Inside (s : State Tid) (t : Tid) : Prop := s.place t = .locked ∨ s.place t = .waiting

theorem inside_of_moves {s u : State Tid} {l : Label Tid} {t : Tid} (inside : Inside s t)
    (moves : Moves s l u) (stays : l ≠ .clearHolder t) : Inside u t := by
  by_cases self : t = l.thread
  · subst self
    cases moves with
    | wait here => exact .inr (goTo_place_self ..)
    | awake here free => exact .inl (goTo_place_self ..)
    | clearHolder here => exact absurd rfl stays
    | mutexLock here | setHolder here | mutexUnlock here =>
        rcases inside with there | there <;> cases here.symm.trans there
  · rw [Inside, place_of_moves moves self]
    exact inside

/-- What is assigned to `holder_` while `t` is in its section does not name `t`. -/
theorem holder_ne_of_written {s u : State Tid} {l : Label Tid} {t : Tid} (inside : Inside s t)
    (moves : Moves s l u) (written : l.writesHolder = true) : u.holder ≠ some t := by
  cases moves with
  | setHolder here =>
      rintro ⟨⟩
      rcases inside with there | there <;> cases here.symm.trans there
  | clearHolder here => exact nofun
  | mutexLock | mutexUnlock | wait | awake => cases written

theorem holder_ne_of_run {s u : State Tid} {t : Tid} {ls : List (Label Tid)}
    (inside : Inside s t) (lost : s.holder ≠ some t) (run : machine.run s ls = some u)
    (stays : ∀ l ∈ ls, l ≠ .clearHolder t) : u.holder ≠ some t := by
  induction ls generalizing s with
  | nil =>
      cases run
      exact lost
  | cons l ls ih =>
      obtain ⟨middle, step, tail⟩ := Option.bind_eq_some_iff.mp run
      obtain ⟨first, rest⟩ := List.forall_mem_cons.mp stays
      have moves := step_cases step
      refine ih (inside_of_moves inside moves first) ?_ tail rest
      cases written : l.writesHolder with
      | true => exact holder_ne_of_written inside moves written
      | false => rwa [holder_of_unwritten moves written]

/-- **A thread in its section is told so until another one has passed `lock()` or `unlock()`**:
once `holder_` has been written, it does not name the thread again before its own `unlock()`. -/
theorem isLockedByThisThread_iff_unwritten {s u : State Tid} {t : Tid} {ls : List (Label Tid)}
    (reach : (machine : Machine _ (Label Tid)).Reachable s) (own : isLockedByThisThread s t = true)
    (run : machine.run s ls = some u) (stays : ∀ l ∈ ls, l ≠ .clearHolder t) :
    isLockedByThisThread u t = true ↔ ∀ l ∈ ls, l.writesHolder = false := by
  rw [isLockedByThisThread, decide_eq_true_iff] at own ⊢
  have inside : Inside s t := (reachable_inv reach).holder_place t own
  clear reach
  induction ls generalizing s with
  | nil =>
      cases run
      exact iff_of_true own nofun
  | cons l ls ih =>
      obtain ⟨middle, step, tail⟩ := Option.bind_eq_some_iff.mp run
      obtain ⟨first, rest⟩ := List.forall_mem_cons.mp stays
      have moves := step_cases step
      have inside' := inside_of_moves inside moves first
      rw [List.forall_mem_cons]
      cases written : l.writesHolder with
      | true =>
          refine iff_of_false ?_ fun all => Bool.noConfusion all.1
          exact holder_ne_of_run inside' (holder_ne_of_written inside moves written) tail rest
      | false =>
          have same : middle.holder = some t := (holder_of_unwritten moves written).trans own
          exact (ih same tail rest inside').trans (and_iff_right rfl).symm

/-- Of two threads, `false` has the lock. -/
def afterLock : State Bool :=
  (machine.run initial [.mutexLock false, .setHolder false]).get rfl

/-- It waits, while `true` takes the lock, notifies it and leaves. -/
def notification : List (Label Bool) :=
  [.wait false, .mutexLock true, .setHolder true, .clearHolder true, .mutexUnlock true,
    .awake false]

def afterNotification : State Bool := (machine.run afterLock notification).get rfl

theorem afterLock_reachable : machine.Reachable afterLock :=
  Machine.reachable_of_run [.mutexLock false, .setHolder false] rfl rfl

theorem isLockedByThisThread_iff_unwritten_notification :
    afterNotification.owner = some false ∧
      (isLockedByThisThread afterNotification false = true ↔
        ∀ l ∈ notification, l.writesHolder = false) := by
  refine ⟨rfl, ?_⟩
  exact isLockedByThisThread_iff_unwritten afterLock_reachable rfl rfl (by simp [notification])

/-- The thread that has been notified has the lock, and `assertLocked()` fails in it. -/
example : isLockedByThisThread afterNotification false = false := rfl

theorem assertLocked_sound_afterLock :
    (∀ t u, (afterLock.place t).owns = true → (afterLock.place u).owns = true → t = u) ∧
      (∀ t, isLockedByThisThread afterLock t = true → afterLock.place t ≠ .waiting →
        afterLock.place t = .locked ∧ afterLock.owner = some t) ∧
      ((∀ t, afterLock.place t = .outside) → afterLock.holder = none) :=
  assertLocked_sound afterLock_reachable

end MutexLock

end Dbdky
