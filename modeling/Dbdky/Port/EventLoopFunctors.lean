import Dbdky.Port.EventLoop

/-!
What becomes of the functors that are queued to a loop.

A functor is pushed to `pendingFunctors_` under the lock, moved to the local batch of
`doPendingFunctors` by the swap, and executed from there. Only the swap moves functors
to the batch, and it takes all of them, so the three places together always hold the
functors in the order in which they were pushed:

* **`functors_run_in_order`.** At any moment the executed functors, the rest of the
  batch and the pending functors are the queued ones, in lock order; until the next
  swap exactly the functors queued before this one are executed, and the call of
  `doPendingFunctors` comes to its end.
-/

namespace Dbdky.Port.EventLoop

open Transition

variable {F : Type*}

/-- The functors of the batch that have not returned yet. -/
def unexecuted (s : State F) : List F :=
  match s.pc with
  | .runFunctors functors => functors
  | _ => []

/-- `doPendingFunctors` has executed the swap and not returned yet. -/
def Pc.InCall (pc : Pc F) : Prop := ∃ functors, pc = .runFunctors functors

/-- Any step but the next swap. -/
def NoSwap : Guard (State F) (Label F) := fun _ l => l ≠ .swapFunctors

/-- The executed functors, the rest of the batch and the pending ones are the queued ones. -/
def Conserved (s : State F) : Prop :=
  s.executed ++ unexecuted s ++ s.pendingFunctors = s.queued

theorem unexecuted_of_not_inCall {s : State F} (outside : ¬ s.pc.InCall) : unexecuted s = [] := by
  unfold unexecuted
  split
  · rename_i functors pc
    exact absurd ⟨functors, pc⟩ outside
  · rfl

/-! ### What a step does to the functors -/

/-- A functor is queued, the pending ones become the batch, the first of the batch is
executed, or nothing happens to any of them. -/
inductive Flow (s : State F) (l : Label F) (t : State F) : Prop where
  | push (cb : F) (executed : t.executed = s.executed) (batch : unexecuted t = unexecuted s)
      (pending : t.pendingFunctors = s.pendingFunctors ++ [cb])
      (queued : t.queued = s.queued ++ [cb])
  | swap (label : l = .swapFunctors) (executed : t.executed = s.executed)
      (before : unexecuted s = []) (batch : unexecuted t = s.pendingFunctors)
      (pending : t.pendingFunctors = []) (queued : t.queued = s.queued)
  | execute (cb : F) (executed : t.executed = s.executed ++ [cb])
      (batch : unexecuted s = cb :: unexecuted t)
      (pending : t.pendingFunctors = s.pendingFunctors) (queued : t.queued = s.queued)
  | still (executed : t.executed = s.executed) (batch : unexecuted t = unexecuted s)
      (pending : t.pendingFunctors = s.pendingFunctors) (queued : t.queued = s.queued)

theorem step_flow {s t : State F} {l : Label F} (step : step s l = some t) : Flow s l t := by
  cases step_cases step with
  | @pushFunctor _ cb _ => exact .push cb rfl rfl rfl rfl
  | @runQueued _ cb _ _ => exact .push cb rfl rfl rfl rfl
  | swapFunctors pc => exact .swap rfl rfl (by simp [unexecuted, pc]) rfl rfl rfl
  | @functorReturn cb rest pc => exact .execute cb rfl (by simp [unexecuted, pc]) rfl rfl
  | testWakeup _ =>
      rw [testWakeup_eq]
      exact .still rfl rfl rfl rfl
  | quit _ =>
      rw [quit_eq]
      exact .still rfl rfl rfl rfl
  | runHere _ _ => exact .still rfl rfl rfl rfl
  | setReady => exact .still rfl rfl rfl rfl
  | callLoop pc _ | setLooping pc | resetQuit pc | enterPoll pc _ | exitWhile pc _
  | pollReturn pc | eventsHandled pc | functorsDone pc | leave pc =>
      exact .still rfl (by simp [unexecuted, pc]) rfl rfl

theorem step_conserved {s t : State F} {l : Label F} (conserved : Conserved s)
    (step : step s l = some t) : Conserved t := by
  unfold Conserved at *
  cases step_flow step with
  | push cb executed batch pending queued =>
      rw [executed, batch, pending, queued, ← conserved, List.append_assoc _ _ [cb]]
  | swap _ executed before batch pending queued =>
      rw [executed, batch, pending, queued, ← conserved, before]
      simp
  | execute cb executed batch pending queued =>
      rw [executed, pending, queued, ← conserved, batch]
      simp
  | still executed batch pending queued => rw [executed, batch, pending, queued, conserved]

theorem reachable_conserved {s : State F} (reach : (machine F).Reachable s) : Conserved s :=
  reach.invariant (fun _ initial => by subst initial; rfl)
    fun _ _ _ conserved step => step_conserved conserved step

/-! ### One call of `doPendingFunctors` -/

/-- Until the next swap, what has been executed and the rest of the batch do not change
together: pushing reaches neither of them. -/
theorem step_batch {s t : State F} {l : Label F} (meets : NoSwap s l) (step : step s l = some t) :
    t.executed ++ unexecuted t = s.executed ++ unexecuted s := by
  cases step_flow step with
  | push cb executed batch _ _ => rw [executed, batch]
  | swap label _ _ _ _ _ => exact absurd label meets
  | execute cb executed batch _ _ => rw [executed, batch, List.append_assoc, List.singleton_append]
  | still executed batch _ _ => rw [executed, batch]

theorem leads_batch {s t : State F} (leads : (machine F).LeadsWhere NoSwap s t) :
    t.executed ++ unexecuted t = s.executed ++ unexecuted s :=
  leads.invariant (I := fun u => u.executed ++ unexecuted u = s.executed ++ unexecuted s) rfl
    fun _ _ _ same meets step => (step_batch meets step).trans same

/-- The rest of the batch is executed one by one, and the call returns. -/
theorem leads_return {s : State F} {functors : List F} (free : s.queueing = [])
    (pc : s.pc = .runFunctors functors) :
    ∃ t, (machine F).LeadsWhere NoSwap s t ∧ t.pc = .whileQuit ∧
      t.executed = s.executed ++ functors := by
  induction functors generalizing s with
  | nil =>
      have done : (machine F).step s .functorsDone =
          some { s with callingPendingFunctors := false, pc := .whileQuit } := by
        simp [machine, step, loopStep, free, pc]
      exact ⟨_, (Machine.LeadsWhere.refl s).tail (l := .functorsDone) (by simp [NoSwap]) done, rfl,
        (List.append_nil _).symm⟩
  | cons cb rest ih =>
      have return_ : (machine F).step s .functorReturn =
          some { s with pc := .runFunctors rest, executed := s.executed ++ [cb] } := by
        simp [machine, step, loopStep, free, pc]
      obtain ⟨t, leads, returned, executed⟩ :=
        ih (s := { s with pc := .runFunctors rest, executed := s.executed ++ [cb] }) free rfl
      refine ⟨t, ((Machine.LeadsWhere.refl s).tail (l := .functorReturn) (by simp [NoSwap])
        return_).trans leads, returned, ?_⟩
      rw [executed]
      simp

/-- A call under way returns, once the loop thread's own calls of `queueInLoop` have. -/
theorem inCall_returns {s : State F} (inCall : s.pc.InCall) :
    ∃ t, (machine F).LeadsWhere NoSwap s t ∧ t.pc = .whileQuit ∧
      t.executed = s.executed ++ unexecuted s := by
  obtain ⟨functors, pc⟩ := inCall
  obtain ⟨t, leads, returned, executed⟩ :=
    leads_return (s := { s with queueing := [] }) rfl pc
  have settles : (machine F).LeadsWhere NoSwap s { s with queueing := [] } :=
    leads_queueing_nil (by simp [NoSwap]) s
  refine ⟨t, settles.trans leads, returned, ?_⟩
  rw [executed, unexecuted, pc]

/-- Each functor that returns shortens the rest of the batch, and nothing lengthens it. -/
theorem step_shortens {s t : State F} {l : Label F} (meets : NoSwap s l)
    (step : step s l = some t) :
    (unexecuted t).length ≤ (unexecuted s).length ∧
      (l = .functorReturn → (unexecuted t).length < (unexecuted s).length) := by
  constructor
  · cases step_flow step with
    | swap label _ _ _ _ _ => exact absurd label meets
    | execute cb _ batch _ _ => simp [batch]
    | push _ _ batch _ _ => exact Nat.le_of_eq (congrArg List.length batch)
    | still _ batch _ _ => exact Nat.le_of_eq (congrArg List.length batch)
  · rintro rfl
    cases step_cases step with
    | functorReturn pc => simp [unexecuted, pc]

/-- What holds of the call of `doPendingFunctors` that swaps in state `s`, in every state
`u` between this swap and the next. -/
structure RunsBatch (s u : State F) : Prop where
  /-- What was queued up to the swap, and nothing that is queued later, has been executed or
  waits for its turn in the batch. -/
  batch : u.executed ++ unexecuted u = s.queued
  /-- When the call has returned, exactly the batch has been executed. -/
  returned : ¬ u.pc.InCall → u.executed = s.executed ++ s.pendingFunctors
  /-- As long as it has not, it can go on and return. -/
  returns : u.pc.InCall → ∃ v, (machine F).LeadsWhere NoSwap u v ∧ v.pc = .whileQuit ∧
    v.executed = s.executed ++ s.pendingFunctors
  /-- Each functor that returns brings it closer to its end, and no step takes it away. -/
  shortens : ∀ l v, NoSwap u l → step u l = some v →
    (unexecuted v).length ≤ (unexecuted u).length ∧
      (l = .functorReturn → (unexecuted v).length < (unexecuted u).length)

/-- **Functors run exactly once, in order.** The executed functors, the rest of the batch and
the pending ones are the queued ones in lock order, and a swap takes along what is executed
until the next. -/
theorem functors_run_in_order {s : State F} (reach : (machine F).Reachable s) :
    s.executed ++ unexecuted s ++ s.pendingFunctors = s.queued ∧
      ∀ t u, (machine F).step s .swapFunctors = some t → (machine F).LeadsWhere NoSwap t u →
        RunsBatch s u := by
  have conserved := reachable_conserved reach
  refine ⟨conserved, ?_⟩
  intro t u swap leads
  have swap : step s .swapFunctors = some t := swap
  cases step_cases swap with
  | swapFunctors pc =>
      have before : unexecuted s = [] := by simp [unexecuted, pc]
      have taken : s.executed ++ s.pendingFunctors = s.queued := by
        rw [← conserved, before, List.append_nil]
      have batch : u.executed ++ unexecuted u = s.queued := (leads_batch leads).trans taken
      refine ⟨batch, ?_, ?_, ?_⟩
      · intro outside
        rw [taken, ← batch, unexecuted_of_not_inCall outside, List.append_nil]
      · intro inCall
        obtain ⟨v, leads', back, executed⟩ := inCall_returns inCall
        exact ⟨v, leads', back, by rw [executed, batch, taken]⟩
      · intro l v meets step
        exact step_shortens meets step

/-- A functor of the batch queues another one: it is pending when the call has returned. -/
theorem functors_run_in_order_requeue : ∃ s : State Nat, s.executed = [7] ∧
    s.pendingFunctors = [8] ∧
    (s.executed ++ unexecuted s ++ s.pendingFunctors = s.queued ∧
      ∀ t u, (machine Nat).step s .swapFunctors = some t →
        (machine Nat).LeadsWhere NoSwap t u → RunsBatch s u) := by
  let labels : List (Label Nat) :=
    [.callLoop, .setLooping, .resetQuit, .whileQuit, .pushFunctor (.other 1) 7, .pollReturn,
      .eventsHandled, .swapFunctors, .pushFunctor .loop 8, .testWakeup .loop, .functorReturn,
      .functorsDone, .whileQuit, .pollReturn, .eventsHandled]
  exact ⟨_, rfl, rfl, functors_run_in_order (Machine.reachable_of_run labels rfl rfl)⟩

end Dbdky.Port.EventLoop
