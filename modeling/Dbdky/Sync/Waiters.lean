import Mathlib.Tactic.Common

/-!
Threads at a condition variable.

A thread that has waited stays on the list until it leaves the monitor: it waits, or it
has been woken and is to test its condition again. A notification wakes threads of its
choice among those that wait, and at least one if there is one.

* **`Notify.waiting_wake`.** Every notification makes fewer threads wait.
* **`exists_notify`.** A notification may wake a single thread.
-/

namespace Sync

/-- One element of a list changes: how many of a kind there are. -/
theorem countP_set_add {β : Type*} {p : β → Bool} {l : List β} {i : Nat} {old : β}
    (here : l[i]? = some old) (new : β) :
    (l.set i new).countP p + (if p old then 1 else 0) =
      l.countP p + (if p new then 1 else 0) := by
  obtain ⟨bound, rfl⟩ := List.getElem?_eq_some_iff.mp here
  have counted := List.boole_getElem_le_countP (p := p) bound
  rw [List.countP_set bound]
  omega

/-- One element of a list changes: what the elements hold. -/
theorem filterMap_set_perm {β γ : Type*} {f : β → Option γ} {l : List β} {i : Nat} {old : β}
    (here : l[i]? = some old) (new : β) :
    ((f old).toList ++ (l.set i new).filterMap f).Perm ((f new).toList ++ l.filterMap f) := by
  induction l generalizing i with
  | nil => cases here
  | cons b l ih =>
      have cons (b : β) (l : List β) : (b :: l).filterMap f = (f b).toList ++ l.filterMap f := by
        cases held : f b <;> simp [held]
      cases i with
      | zero =>
          cases here
          rw [List.set_cons_zero, cons, cons]
          exact List.perm_append_comm_assoc ..
      | succ i =>
          rw [List.set_cons_succ, cons, cons]
          refine (List.perm_append_comm_assoc ..).trans ?_
          exact ((ih here).append_left _).trans (List.perm_append_comm_assoc ..)

structure Waiter (α : Type*) where
  who : α
  waiting : Bool
deriving DecidableEq

variable {α : Type*}

/-- How many threads wait. -/
def waiting (threads : List (Waiter α)) : Nat := threads.countP Waiter.waiting

theorem waiting_pos_iff {threads : List (Waiter α)} :
    0 < waiting threads ↔ ∃ who, ⟨who, true⟩ ∈ threads := by
  rw [waiting, List.countP_pos_iff]
  constructor
  · rintro ⟨⟨who, waits⟩, mem, rfl⟩
    exact ⟨who, mem⟩
  · rintro ⟨who, mem⟩
    exact ⟨_, mem, rfl⟩

theorem waiting_cons (t : Waiter α) (threads : List (Waiter α)) :
    waiting (t :: threads) = waiting threads + if t.waiting = true then 1 else 0 := by
  rw [waiting, List.countP_cons, ← waiting]

/-! ### One thread -/

section One

variable {threads : List (Waiter α)} {i : Nat} {who : α}

theorem map_who_set {old : Bool} (here : threads[i]? = some ⟨who, old⟩) (new : Bool) :
    (threads.set i ⟨who, new⟩).map Waiter.who = threads.map Waiter.who := by
  induction threads generalizing i with
  | nil => rfl
  | cons t threads ih =>
      cases i with
      | zero =>
          cases here
          rfl
      | succ i => rw [List.set_cons_succ, List.map_cons, List.map_cons, ih here]

theorem waiting_concat (threads : List (Waiter α)) (who : α) :
    waiting (threads ++ [⟨who, true⟩]) = waiting threads + 1 := List.countP_append

theorem waiting_set_true (here : threads[i]? = some ⟨who, false⟩) :
    waiting (threads.set i ⟨who, true⟩) = waiting threads + 1 :=
  countP_set_add (p := Waiter.waiting) here ⟨who, true⟩

theorem waiting_set_false (here : threads[i]? = some ⟨who, true⟩) :
    waiting (threads.set i ⟨who, false⟩) + 1 = waiting threads :=
  countP_set_add (p := Waiter.waiting) here ⟨who, false⟩

theorem waiting_eraseIdx (here : threads[i]? = some ⟨who, false⟩) :
    waiting (threads.eraseIdx i) = waiting threads := by
  induction threads generalizing i with
  | nil => cases here
  | cons t threads ih =>
      cases i with
      | zero =>
          cases here
          rw [List.eraseIdx_cons_zero, waiting_cons]
          rfl
      | succ i => rw [List.eraseIdx_cons_succ, waiting_cons, waiting_cons, ih here]

/-- The thread leaves. -/
theorem perm_eraseIdx {w : Bool} (here : threads[i]? = some ⟨who, w⟩) :
    (who :: (threads.eraseIdx i).map Waiter.who).Perm (threads.map Waiter.who) := by
  induction threads generalizing i with
  | nil => cases here
  | cons t threads ih =>
      cases i with
      | zero =>
          cases here
          exact .refl _
      | succ i =>
          rw [List.eraseIdx_cons_succ, List.map_cons, List.map_cons]
          exact (List.Perm.swap ..).trans ((ih here).cons _)

end One

/-! ### Notifications -/

variable [DecidableEq α]

/-- The threads in `woken` are to run. -/
def wake (woken : List α) (threads : List (Waiter α)) : List (Waiter α) :=
  threads.map fun t => if t.who ∈ woken then { t with waiting := false } else t

/-- What one notification may do. -/
def Notify (woken : List α) (threads : List (Waiter α)) : Prop :=
  (∀ who ∈ woken, ⟨who, true⟩ ∈ threads) ∧ (woken = [] → waiting threads = 0)

instance (woken : List α) (threads : List (Waiter α)) : Decidable (Notify woken threads) :=
  inferInstanceAs (Decidable (_ ∧ _))

variable {woken : List α} {threads : List (Waiter α)}

@[simp] theorem map_who_wake : (wake woken threads).map Waiter.who = threads.map Waiter.who := by
  rw [wake, List.map_map]
  apply List.map_congr_left
  intro t _
  dsimp only [Function.comp_apply]
  split <;> rfl

theorem waiting_wake_cons (t : Waiter α) : waiting (wake woken (t :: threads)) =
    waiting (wake woken threads) + if t.waiting = true ∧ t.who ∉ woken then 1 else 0 := by
  rw [wake, List.map_cons, ← wake, waiting, List.countP_cons, ← waiting]
  by_cases chosen : t.who ∈ woken
  · simp [chosen]
  · simp [chosen]

theorem waiting_wake_le : waiting (wake woken threads) ≤ waiting threads := by
  induction threads with
  | nil => exact Nat.le_refl _
  | cons t threads ih =>
      rw [waiting_wake_cons, waiting_cons]
      split <;> split <;> grind

/-- A thread that is woken no longer waits. -/
theorem waiting_wake_lt {who : α} (chosen : who ∈ woken) (mem : ⟨who, true⟩ ∈ threads) :
    waiting (wake woken threads) < waiting threads := by
  induction threads with
  | nil => cases mem
  | cons t threads ih =>
      rw [waiting_wake_cons, waiting_cons]
      rcases List.mem_cons.mp mem with rfl | mem
      · have rest : waiting (wake woken threads) ≤ waiting threads := waiting_wake_le
        rw [if_neg fun stays => stays.2 chosen, if_pos rfl]
        omega
      · have rest := ih mem
        split <;> split <;> grind

theorem Notify.waiting_wake (notify : Notify woken threads) :
    waiting (wake woken threads) = 0 ∨ waiting (wake woken threads) < waiting threads := by
  obtain ⟨wait, some⟩ := notify
  cases woken with
  | nil => exact .inl (Nat.le_zero.mp (some rfl ▸ waiting_wake_le))
  | cons who woken =>
      exact .inr (waiting_wake_lt (List.mem_cons_self ..) (wait who (List.mem_cons_self ..)))

/-- Among distinct threads, waking one leaves the others waiting. -/
theorem waiting_wake_singleton {who : α} (distinct : (threads.map Waiter.who).Nodup) :
    waiting threads ≤ waiting (wake [who] threads) + 1 := by
  induction threads with
  | nil => exact Nat.zero_le _
  | cons t threads ih =>
      obtain ⟨other, distinct⟩ := List.nodup_cons.mp distinct
      rw [waiting_wake_cons, waiting_cons]
      by_cases chosen : t.who = who
      · have untouched : wake [who] threads = threads := by
          have same : ∀ u ∈ threads,
              (if u.who ∈ [who] then { u with waiting := false } else u) = u := by
            intro u mem
            refine if_neg fun hit => other ?_
            rw [chosen, ← List.mem_singleton.mp hit]
            exact List.mem_map_of_mem mem
          exact (List.map_congr_left same).trans (List.map_id' _)
        rw [untouched]
        split <;> split <;> omega
      · have rest := ih distinct
        have stays : t.who ∉ [who] := mt List.mem_singleton.mp chosen
        simp only [stays, not_false_eq_true, and_true]
        omega

theorem exists_notify (distinct : (threads.map Waiter.who).Nodup) (some : 0 < waiting threads) :
    ∃ who, Notify [who] threads ∧ waiting threads ≤ waiting (wake [who] threads) + 1 := by
  obtain ⟨who, mem⟩ := waiting_pos_iff.mp some
  refine ⟨who, ⟨?_, by simp⟩, waiting_wake_singleton distinct⟩
  intro other chosen
  rw [List.mem_singleton.mp chosen]
  exact mem

end Sync
