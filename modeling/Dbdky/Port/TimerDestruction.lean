import Dbdky.Port.TimerExpiry
import Dbdky.Port.TimerLifecycle

/-!
`~TimerQueue`, outside of `handleRead`.

It deletes the timers in `timers_`. A timer whose `addTimerInLoop` has not run is known to the
functor in the queue of the loop only, and nobody deletes it.

* **`destroyed_accounted`.** With those that have been deleted before, every timer that was ever
  created has been deleted once, or waits for its `addTimerInLoop` and is leaked.
-/

namespace Dbdky.Port.TimerQueue

open Transition

/-- The loop of the destructor: `delete it->second;` -/
def deleteEach (s : State) : List Entry → Except Stop State
  | [] => .ok s
  | e :: entries => do
      let s ← delete s e.timer
      deleteEach s entries

def destroy (s : State) : Except Stop State := deleteEach s s.timers.toList

theorem deleteEach_spec {s : State} {entries : List Entry} (owns : Owns s.heap s.toAdd entries)
    (numbered : Numbered s.numCreated s.heap s.deleted) :
    ∃ t, deleteEach s entries = .ok t ∧ Owns t.heap s.toAdd [] ∧
      Numbered s.numCreated t.heap t.deleted ∧ ∀ a ∈ s.toAdd, t.heap a = s.heap a := by
  induction entries generalizing s with
  | nil => exact ⟨s, rfl, owns, numbered, fun _ _ => rfl⟩
  | cons e entries ih =>
      obtain ⟨timer, held, -⟩ := owns.entries e List.mem_cons_self
      let u : State := { s with
        heap := Function.update s.heap e.timer none
        deleted := s.deleted ++ [⟨e.timer, timer.sequence⟩] }
      have first : delete s e.timer = .ok u := delete_eq_ok_iff.mpr ⟨timer, held, rfl⟩
      obtain ⟨t, rest, owns', numbered', waiting⟩ :=
        @ih u owns.free (numbered.free held)
      refine ⟨t, bind_eq_ok_iff.mpr ⟨u, first, rest⟩, owns', numbered', fun a waits => ?_⟩
      have other : a ≠ e.timer := fun same =>
        owns.unique (List.mem_append_left _ (same ▸ waits))
      exact (waiting a waits).trans (Function.update_of_ne other _ _)

/-- What the destructor of the queue `s` has left. -/
structure Accounted (s t : State) : Prop where
  /-- On the heap there are the timers that wait, as they were. -/
  leaked : ∀ a timer, t.heap a = some timer ↔ a ∈ s.toAdd ∧ s.heap a = some timer
  once : (t.deleted.map TimerId.sequence).Nodup
  all : ∀ n, 0 < n → n ≤ s.numCreated →
    Xor (n ∈ t.deleted.map TimerId.sequence)
      (∃ a ∈ s.toAdd, ∃ timer, s.heap a = some timer ∧ timer.sequence = n)

/-- **Every timer is deleted once**, or waits for its `addTimerInLoop` and is leaked. -/
theorem destroyed_accounted {s : State} (reach : machine.Reachable s) (idle : s.phase = .idle) :
    ∃ t, destroy s = .ok t ∧ Accounted s t := by
  have inv := reachable_inv reach
  have owns : Owns s.heap s.toAdd s.timers.toList := by
    have owns := inv.owns
    rwa [stored, idle, remaining, List.append_nil] at owns
  obtain ⟨t, destroyed, left, numbered, waiting⟩ := deleteEach_spec owns inv.numbered
  have leaked : ∀ a timer, t.heap a = some timer ↔ a ∈ s.toAdd ∧ s.heap a = some timer := by
    intro a timer
    constructor
    · intro held
      have waits : a ∈ s.toAdd := by simpa using (left.live a).mpr ⟨timer, held⟩
      exact ⟨waits, (waiting a waits).symm.trans held⟩
    · rintro ⟨waits, held⟩
      exact (waiting a waits).trans held
  refine ⟨t, destroyed, leaked, numbered.once, fun n positive le => ?_⟩
  rcases numbered.created n positive le with ⟨id, mem, rfl⟩ | ⟨a, timer, held, rfl⟩
  · refine .inl ⟨List.mem_map_of_mem mem, ?_⟩
    rintro ⟨a, waits, timer, held, same⟩
    exact (numbered.dead id mem).2 a timer ((leaked a timer).mpr ⟨waits, held⟩) same
  · obtain ⟨waits, held'⟩ := (leaked a timer).mp held
    refine .inr ⟨⟨a, waits, timer, held', rfl⟩, fun mem => ?_⟩
    obtain ⟨id, dead, same⟩ := List.mem_map.mp mem
    exact (numbered.dead id dead).2 a timer held same.symm

/-- One timer has fired, one is filed, and one waits. -/
theorem destroyed_accounted_three : ∃ s t : State, s.numCreated = 3 ∧ destroy s = .ok t ∧
    t.deleted.map TimerId.sequence = [1, 2] ∧ Accounted s t := by
  let labels : List Label :=
    [.newTimer 16 5 oneShot, .addTimerInLoop 16, .tick 9, .handleRead, .run, .reset, .resetNext,
      .rearm, .newTimer 16 90 oneShot, .addTimerInLoop 16, .newTimer 32 20 oneShot]
  have reach := Machine.reachable_of_run (M := machine) labels ⟨1, by decide, rfl⟩ rfl
  obtain ⟨t, destroyed, accounted⟩ := destroyed_accounted reach rfl
  refine ⟨_, t, rfl, destroyed, ?_, accounted⟩
  cases destroyed
  rfl

end Dbdky.Port.TimerQueue
