import Dbdky.Port.TimerLifecycle

/-!
What a cancel does.

`cancelInLoop` looks for the timer in `activeTimers_`, and `insert` never enters one there.
So a cancel that finds its timer pending in `timers_` does nothing at all
(`pending_cancel_fires`), and only a cancel of a timer in the batch being called takes
effect, through `cancelingTimers_`:

* **`cancel_effective_of_noPendingCancel`.** In a run that cancels no timer pending in
  `timers_`, every cancel is effective.
-/

namespace Dbdky.Port.TimerQueue

open Transition

/-- The id belongs to a timer that is pending in `timers_`. -/
def Pending (s : State) (id : TimerId) : Prop :=
  ∃ timer, s.heap id.timer = some timer ∧ timer.sequence = id.sequence ∧
    entry timer id.timer ∈ s.timers

/-- The entries of the batch whose callbacks the loop is calling. -/
def calledBatch : Phase → List Entry
  | .calling _ called uncalled => called ++ uncalled
  | _ => []

/-- The id belongs to a timer in the batch being called. -/
def InBatch (s : State) (id : TimerId) : Prop :=
  ∃ timer, s.heap id.timer = some timer ∧ timer.sequence = id.sequence ∧
    entry timer id.timer ∈ calledBatch s.phase

/-- The callbacks of timer number `sequence` that run between two states of a run. -/
def CallsSince (s u : State) (sequence : Nat) (calls : List Invocation) : Prop :=
  ∃ more, u.invocations = s.invocations ++ more ∧
    calls = more.filter fun i => i.timer.sequence = sequence

/-- What a cancel of `id` in state `s` is for, seen from a later state: a pending timer is
not called again, and a timer of the batch being called is called once more at most, in
that batch, and not put back. -/
def CancelEffective (s : State) (id : TimerId) (u : State) : Prop :=
  ∃ calls, CallsSince s u id.sequence calls ∧
    (Pending s id → calls = []) ∧
    (InBatch s id → calls.length ≤ 1 ∧ (∀ i ∈ calls, i.batch = s.batch) ∧
      ∀ e ∈ u.timers, ∀ timer, u.heap e.timer = some timer → timer.sequence ≠ id.sequence)

/-- The condition on the steps: no cancel finds its timer pending in `timers_`. -/
def NoPendingCancel : Guard State Label
  | s, .cancelInLoop id => ¬ Pending s id
  | _, _ => True

/-! ### The calls since a state -/

theorem CallsSince.refl (s : State) (sequence : Nat) : CallsSince s s sequence [] :=
  ⟨[], (List.append_nil _).symm, rfl⟩

section CallsSince

variable {s u v : State} {sequence : Nat} {calls : List Invocation} {i : Invocation}

theorem CallsSince.other (since : CallsSince s u sequence calls)
    (ran : v.invocations = u.invocations ++ [i]) (other : i.timer.sequence ≠ sequence) :
    CallsSince s v sequence calls := by
  obtain ⟨more, grown, rfl⟩ := since
  exact ⟨more ++ [i], by rw [ran, grown, List.append_assoc], by simp [other]⟩

theorem CallsSince.call (since : CallsSince s u sequence calls)
    (ran : v.invocations = u.invocations ++ [i]) (same : i.timer.sequence = sequence) :
    CallsSince s v sequence (calls ++ [i]) := by
  obtain ⟨more, grown, rfl⟩ := since
  exact ⟨more ++ [i], by rw [ran, grown, List.append_assoc], by simp [same]⟩

/-- The callbacks that have run stay on record. -/
theorem CallsSince.step {l : Label} (since : CallsSince s u sequence calls)
    (step : machine.step u l = some v) : ∃ calls', CallsSince s v sequence calls' := by
  cases step_cases step with
  | @run now called e uncalled timer _ _ =>
      by_cases same : timer.sequence = sequence
      · exact ⟨_, since.call rfl same⟩
      · exact ⟨_, since.other rfl same⟩
  | _ => exact ⟨calls, since⟩

end CallsSince

/-! ### A cancel in the batch -/

/-- While callbacks are called, the flag says so. -/
def Flagged (s : State) : Prop :=
  ∀ now called uncalled, s.phase = .calling now called uncalled → s.callingExpiredTimers = true

theorem step_flagged {s t : State} {l : Label} (flagged : Flagged s)
    (step : machine.step s l = some t) : Flagged t := by
  cases step_cases step with
  | handleRead _ _ _ => exact fun _ _ _ _ => rfl
  | run phase _ => exact fun _ _ _ _ => flagged _ _ _ phase
  | reset | restart | delete | rearmNothing | rearm => exact fun _ _ _ => nofun
  | _ => exact flagged

/-- What becomes of a timer after it has been cancelled in its batch: it waits for `reset`,
with at most one call, or it is deleted. -/
inductive Settled (s : State) (id : TimerId) (u : State) : Prop where
  | waiting {timer : Timer} {calls : List Invocation} (since : CallsSince s u id.sequence calls)
      (held : u.heap id.timer = some timer) (number : timer.sequence = id.sequence)
      (canceling : id.active ∈ u.cancelingTimers) (batch : u.batch = s.batch)
      (stays : id.timer ∈ (remaining u.phase).map Entry.timer)
      (once : calls.length ≤ 1) (here : ∀ i ∈ calls, i.batch = s.batch)
      (before : ∀ now called uncalled, u.phase = .calling now called uncalled →
        id.timer ∈ uncalled.map Entry.timer → calls = [])
  | gone {calls : List Invocation} (since : CallsSince s u id.sequence calls)
      (known : id.sequence ≤ u.numCreated)
      (dead : ∀ a timer, u.heap a = some timer → timer.sequence ≠ id.sequence)
      (once : calls.length ≤ 1) (here : ∀ i ∈ calls, i.batch = s.batch)

theorem Settled.gone_step {s u v : State} {id : TimerId} {l : Label} {calls : List Invocation}
    (since : CallsSince s u id.sequence calls) (known : id.sequence ≤ u.numCreated)
    (dead : ∀ a timer, u.heap a = some timer → timer.sequence ≠ id.sequence)
    (once : calls.length ≤ 1) (here : ∀ i ∈ calls, i.batch = s.batch) (inactive : Inactive u)
    (step : machine.step u l = some v) : Settled s id v := by
  cases step_cases step with
  | newTimer _ _ free =>
      refine .gone since (Nat.le_succ_of_le known) (fun a timer held => ?_) once here
      rcases update_some_eq_some_iff.mp held with ⟨-, rfl⟩ | ⟨-, held⟩
      · dsimp only
        omega
      · exact dead a timer held
  | cancelActive _ active _ _ => exact absurd active (inactive _)
  | run _ held => exact .gone (since.other rfl (dead _ _ held)) known dead once here
  | restart _ held _ _ _ =>
      refine .gone since known (fun a timer held' => ?_) once here
      rcases update_some_eq_some_iff.mp held' with ⟨-, rfl⟩ | ⟨-, held'⟩
      · rw [restart_sequence]
        exact dead _ _ held
      · exact dead a timer held'
  | delete _ _ _ =>
      exact .gone since known (fun a timer held => dead a timer (update_none_eq_some_iff.mp held).2)
        once here
  | _ => exact .gone since known dead once here

theorem Settled.waiting_step {s u v : State} {id : TimerId} {l : Label} {timer : Timer}
    {calls : List Invocation} (since : CallsSince s u id.sequence calls)
    (held : u.heap id.timer = some timer) (number : timer.sequence = id.sequence)
    (canceling : id.active ∈ u.cancelingTimers) (batch : u.batch = s.batch)
    (stays : id.timer ∈ (remaining u.phase).map Entry.timer)
    (once : calls.length ≤ 1) (here : ∀ i ∈ calls, i.batch = s.batch)
    (before : ∀ now called uncalled, u.phase = .calling now called uncalled →
      id.timer ∈ uncalled.map Entry.timer → calls = []) (inv : Inv u)
    (step : machine.step u l = some v) : Settled s id v := by
  cases step_cases step with
  | tick | addEarliest | addLater | cancelNothing | expire =>
      exact .waiting since held number canceling batch stays once here before
  | newTimer _ _ free =>
      refine .waiting since (update_some_eq_some_iff.mpr (.inr ⟨?_, held⟩)) number canceling batch
        stays once here before
      rintro rfl
      simp [free] at held
  | cancelActive _ active _ _ => exact absurd active (inv.inactive _)
  | cancelInBatch _ _ _ =>
      exact .waiting since held number (OrderedSet.mem_insert.mpr (.inr canceling)) batch stays once
        here before
  | handleRead phase _ _ | rearmNothing phase _ | rearm phase _ _ _ =>
      simp [phase, remaining] at stays
  | @run now called e uncalled object phase held' =>
      have nodup := inv.owns.batch_nodup
      simp only [phase, remaining, List.map_append, List.map_cons] at nodup stays
      have stays' :
          id.timer ∈ (remaining (.calling now (called ++ [e]) uncalled)).map Entry.timer := by
        simpa [remaining] using stays
      by_cases same : e.timer = id.timer
      · -- this is its call, and there was none before
        have unique : id.timer ∉ uncalled.map Entry.timer := by
          rw [← same]
          exact (List.nodup_cons.mp nodup.of_append_right).1
        obtain rfl := before now called (e :: uncalled) phase (by simp [same])
        obtain rfl : object = timer := Option.some.inj (held'.symm.trans (same ▸ held))
        refine .waiting (since.call rfl number) held number canceling batch stays' (by simp)
          (fun i mem => ?_) fun now called uncalled phase mem => ?_
        · obtain rfl := List.mem_singleton.mp mem
          exact batch
        · cases phase
          exact absurd mem unique
      · have other : object.sequence ≠ id.sequence := fun number' =>
          same (inv.numbered.distinct _ _ _ _ held' held (number'.trans number.symm))
        refine .waiting (since.other rfl other) held number canceling batch stays' once here
          fun now called uncalled phase' mem => ?_
        cases phase'
        exact before _ _ _ phase (List.mem_cons_of_mem _ mem)
  | reset phase =>
      refine .waiting since held number canceling batch ?_ once here (by simp)
      simpa [phase, remaining] using stays
  | @restart now e expired object phase held' _ uncancelled _ =>
      have other : id.timer ≠ e.timer := by
        intro same
        obtain rfl : object = timer := Option.some.inj (held'.symm.trans (same ▸ held))
        rw [TimerId.active, same, ← number] at canceling
        exact uncancelled canceling
      refine .waiting since (update_some_eq_some_iff.mpr (.inr ⟨other, held⟩)) number canceling
        batch ?_ once here (by simp)
      simpa [phase, remaining, other] using stays
  | @delete now e expired object phase held' _ =>
      by_cases same : id.timer = e.timer
      · obtain rfl : object = timer := Option.some.inj (held'.symm.trans (same ▸ held))
        refine .gone since ?_ (fun a other held'' number' => ?_) once here
        · rw [← number]
          exact (inv.numbered.bound _ _ held).2
        · obtain ⟨elsewhere, held''⟩ := update_none_eq_some_iff.mp held''
          exact elsewhere (inv.numbered.distinct _ _ _ _ held'' held' (number'.trans number.symm))
      · refine .waiting since (update_none_eq_some_iff.mpr ⟨same, held⟩) number canceling batch
          ?_ once here (by simp)
        simpa [phase, remaining, same] using stays

theorem step_settled {s u v : State} {id : TimerId} {l : Label} (settled : Settled s id u)
    (inv : Inv u) (step : machine.step u l = some v) : Settled s id v := by
  cases settled with
  | waiting since held number canceling batch stays once here before =>
      exact .waiting_step since held number canceling batch stays once here before inv step
  | gone since known dead once here => exact .gone_step since known dead once here inv.inactive step

/-- A timer of the batch is settled as soon as it is cancelled. -/
theorem settled_of_cancel {s t : State} {id : TimerId} (inv : Inv s) (flagged : Flagged s)
    (inBatch : InBatch s id) (cancel : machine.step s (.cancelInLoop id) = some t) :
    Settled s id t := by
  obtain ⟨timer, held, number, mem⟩ := inBatch
  cases phase : s.phase with
  | idle => simp [phase, calledBatch] at mem
  | resetting now expired => simp [phase, calledBatch] at mem
  | calling now called uncalled =>
      have flag := flagged now called uncalled phase
      have stays : id.timer ∈ (remaining s.phase).map Entry.timer := by
        simp only [phase, remaining, calledBatch] at mem ⊢
        exact List.mem_map_of_mem (f := Entry.timer) mem
      cases step_cases cancel with
      | cancelActive _ active _ _ => exact absurd active (inv.inactive _)
      | cancelInBatch _ _ _ =>
          exact .waiting (CallsSince.refl s id.sequence) held number
            (OrderedSet.mem_insert.mpr (.inl rfl)) rfl stays (by simp) (by simp)
            fun _ _ _ _ _ => rfl
      | cancelNothing _ _ unflagged => simp [flag] at unflagged

theorem Settled.effective {s u : State} {id : TimerId} (settled : Settled s id u) (inv : Inv u)
    (notPending : ¬ Pending s id) : CancelEffective s id u := by
  cases settled with
  | @waiting timer calls since held number canceling batch stays once here before =>
      refine ⟨calls, since, fun pending => absurd pending notPending, fun _ => ⟨once, here, ?_⟩⟩
      intro e mem other held' number'
      -- its entry is in the batch, so there is none in `timers_`
      have same := inv.numbered.distinct _ _ _ _ held' held (number'.trans number.symm)
      have nodup := inv.owns.nodup.of_append_right
      rw [stored, List.map_append] at nodup
      exact (List.nodup_append.mp nodup).2.2 e.timer (List.mem_map_of_mem mem) id.timer stays same
  | gone since known dead once here =>
      exact ⟨_, since, fun pending => absurd pending notPending, fun _ =>
        ⟨once, here, fun e _ timer held => dead e.timer timer held⟩⟩

/-- **When a cancel is effective.** If no cancel of the run finds its timer pending in
`timers_`, every cancel is effective in every later state. -/
theorem cancel_effective_of_noPendingCancel {s₁ s₂ s₃ : State} {id : TimerId}
    (before : machine.ReachableWhere NoPendingCancel s₁)
    (meets : NoPendingCancel s₁ (.cancelInLoop id))
    (cancel : machine.step s₁ (.cancelInLoop id) = some s₂)
    (after : machine.LeadsWhere NoPendingCancel s₂ s₃) : CancelEffective s₁ id s₃ := by
  have inv₁ := reachable_inv before.reachable
  have inv₂ := step_inv inv₁ cancel
  have flagged : Flagged s₁ := before.reachable.invariant
    (fun _ ⟨_, _, same⟩ => by subst same; exact fun _ _ _ => nofun)
    fun _ _ _ flagged step => step_flagged flagged step
  by_cases inBatch : InBatch s₁ id
  · have final := after.leads.invariant (I := fun u => Settled s₁ id u ∧ Inv u)
      ⟨settled_of_cancel inv₁ flagged inBatch cancel, inv₂⟩
      fun _ _ _ ⟨settled, inv⟩ step => ⟨step_settled settled inv step, step_inv inv step⟩
    exact final.1.effective final.2 meets
  · obtain ⟨calls, first⟩ := (CallsSince.refl s₁ id.sequence).step cancel
    obtain ⟨calls, since⟩ := after.leads.invariant
      (I := fun u => ∃ calls, CallsSince s₁ u id.sequence calls)
      ⟨calls, first⟩ fun _ _ _ ⟨_, since⟩ step => since.step step
    exact ⟨calls, since, fun pending => absurd pending meets, fun here => absurd here inBatch⟩

/-- A periodic timer is cancelled from its own callback and not re-armed. -/
theorem cancel_effective_of_noPendingCancel_self : ∃ s₁ s₃ : State,
    InBatch s₁ ⟨16, 1⟩ ∧ s₃.phase = .idle ∧ s₃.timers.toList = [] ∧
      CancelEffective s₁ ⟨16, 1⟩ s₃ := by
  let before : List Label :=
    [.newTimer 16 5 ⟨true, 20, fun _ => by decide⟩, .addTimerInLoop 16, .tick 9, .handleRead, .run]
  let after : List Label := [.reset, .resetNext, .rearm]
  have meets : ∀ s, machine.Meets NoPendingCancel s before := by
    simp [before, Machine.Meets, NoPendingCancel]
  have meets' : ∀ s, machine.Meets NoPendingCancel s after := by
    simp [after, Machine.Meets, NoPendingCancel]
  refine ⟨_, _, ⟨⟨5, ⟨true, 20, fun _ => by decide⟩, 1⟩, rfl, rfl, List.mem_singleton.mpr rfl⟩, rfl,
    rfl, cancel_effective_of_noPendingCancel
      ⟨.new 1, ⟨1, by decide, rfl⟩, Machine.leadsWhere_of_run before (meets _) rfl⟩ ?_ rfl
      (Machine.leadsWhere_of_run after (meets' _) rfl)⟩
  rintro ⟨timer, -, -, mem⟩
  exact List.not_mem_nil mem

/-! ### A cancel of a pending timer -/

/-- Only `handleRead` takes a timer out of `timers_`. -/
theorem Pending.step {s t : State} {id : TimerId} {l : Label} (pending : Pending s id) (inv : Inv s)
    (step : machine.step s l = some t) (notRead : l ≠ .handleRead) : Pending t id := by
  obtain ⟨timer, held, number, mem⟩ := pending
  -- the timers of the batch stand at other addresses
  have apart : ∀ e ∈ remaining s.phase, id.timer ≠ e.timer := by
    have nodup := inv.owns.nodup.of_append_right
    rw [stored, List.map_append] at nodup
    exact fun e memE => (List.nodup_append.mp nodup).2.2 id.timer
      (List.mem_map_of_mem (f := Entry.timer) mem) e.timer (List.mem_map_of_mem memE)
  cases step_cases step with
  | newTimer _ _ free =>
      refine ⟨timer, update_some_eq_some_iff.mpr (.inr ⟨?_, held⟩), number, mem⟩
      rintro rfl
      simp [free] at held
  | addEarliest | addLater =>
      exact ⟨timer, held, number, OrderedSet.mem_insert.mpr (.inr mem)⟩
  | cancelActive _ active _ _ => exact absurd active (inv.inactive _)
  | handleRead => exact absurd rfl notRead
  | @restart now e expired object phase _ _ _ _ =>
      have other := apart e (by simp [phase, remaining])
      exact ⟨timer, update_some_eq_some_iff.mpr (.inr ⟨other, held⟩), number,
        OrderedSet.mem_insert.mpr (.inr mem)⟩
  | @delete now e expired object phase _ _ =>
      have other := apart e (by simp [phase, remaining])
      exact ⟨timer, update_none_eq_some_iff.mpr ⟨other, held⟩, number, mem⟩
  | _ => exact ⟨timer, held, number, mem⟩

section Enabled

variable {s : State} {now : Int} {called uncalled expired : List Entry} {e : Entry} {timer : Timer}

theorem deref_ok {heap : Addr → Option Timer} {a : Addr} (held : heap a = some timer) :
    deref heap a = .ok timer :=
  deref_eq_ok_iff.mpr held

theorem ok_bind {α β : Type} (a : α) (f : α → Except Stop β) :
    ((.ok a : Except Stop α) >>= f) = f a := rfl

theorem run_enabled (phase : s.phase = .calling now called (e :: uncalled))
    (held : s.heap e.timer = some timer) :
    machine.step s .run = some { s with
      invocations := s.invocations ++ [{ timer, now, batch := s.batch }]
      phase := .calling now (called ++ [e]) uncalled } := by
  apply machine_step_eq_some_iff.mpr
  simp only [step, phase, run, deref_ok held, ok_bind]

theorem reset_enabled (phase : s.phase = .calling now called []) :
    machine.step s .reset =
      some { s with callingExpiredTimers := false, phase := .resetting now called } := by
  apply machine_step_eq_some_iff.mpr
  simp only [step, phase]

/-- Re-arming cannot fail: the timer has no entry in `timers_` yet. -/
theorem resetNext_enabled (inv : Inv s) (phase : s.phase = .resetting now (e :: expired)) :
    ∃ t, machine.step s .resetNext = some t ∧ t.phase = .resetting now expired := by
  obtain ⟨timer, held, -⟩ := inv.owns.entries e (by simp [stored, phase, remaining])
  have new : ∀ object : Timer, entry object e.timer ∉ s.timers := fun object mem =>
    (inv.owns.next phase).unique (List.mem_append_right _ (List.mem_map.mpr
      ⟨entry object e.timer, List.mem_append_left _ mem, rfl⟩))
  have enabled : ∃ t, resetNext s now e expired = .ok t := by
    by_cases periodic : timer.repeats ∧ toLex (e.timer, timer.sequence) ∉ s.cancelingTimers
    · refine ⟨{ s with
        heap := Function.update s.heap e.timer (some (timer.restart now))
        timers := s.timers.insert (entry (timer.restart now) e.timer)
        phase := .resetting now expired }, ?_⟩
      simp only [resetNext, deref_ok held, ok_bind, if_pos periodic, insert,
        deref_ok (Function.update_self _ _ _), if_pos (new _)]
    · refine ⟨{ s with
        heap := Function.update s.heap e.timer none
        deleted := s.deleted ++ [⟨e.timer, timer.sequence⟩]
        phase := .resetting now expired }, ?_⟩
      simp only [resetNext, deref_ok held, ok_bind, if_neg periodic, delete]
  obtain ⟨t, enabled⟩ := enabled
  have taken : machine.step s .resetNext = some t :=
    machine_step_eq_some_iff.mpr (by simpa only [step, phase] using enabled)
  refine ⟨t, taken, ?_⟩
  cases step_cases taken with
  | restart phase' _ _ _ _ | delete phase' _ _ =>
      cases phase.symm.trans phase'
      rfl

theorem rearm_enabled (inv : Inv s) (phase : s.phase = .resetting now []) :
    ∃ t, machine.step s .rearm = some t ∧ t.phase = .idle := by
  have enabled : ∃ t, rearm s = .ok t := by
    cases least : s.timers.first? with
    | none => exact ⟨{ s with phase := .idle }, by simp only [rearm, least]⟩
    | some first =>
        obtain ⟨timer, held, -⟩ :=
          inv.owns.entries first (List.mem_append_left _ (OrderedSet.first?_mem least))
        by_cases valid : Timestamp.valid timer.expiration
        · refine ⟨resetTimerfd { s with phase := .idle } timer.expiration, ?_⟩
          simp only [rearm, least, deref_ok held, ok_bind, if_pos valid]
        · refine ⟨{ s with phase := .idle }, ?_⟩
          simp only [rearm, least, deref_ok held, ok_bind, if_neg valid]
  obtain ⟨t, enabled⟩ := enabled
  have taken : machine.step s .rearm = some t :=
    machine_step_eq_some_iff.mpr (by simpa only [step, phase] using enabled)
  refine ⟨t, taken, ?_⟩
  cases step_cases taken <;> rfl

/-- Late enough, `handleRead` takes all timers. -/
theorem handleRead_enabled (inv : Inv s) (phase : s.phase = .idle)
    (late : ∀ e ∈ s.timers, e.expiration < s.clock) :
    ∃ t, machine.step s .handleRead = some t ∧ t.phase = .calling s.clock [] s.timers.toList ∧
      t.heap = s.heap := by
  have nothing : (s.timers.notBelow (toLex (s.clock, uint32Max))).toList = [] := by
    refine List.eq_nil_iff_forall_not_mem.mpr fun e mem => ?_
    obtain ⟨mem, le⟩ := OrderedSet.mem_notBelow.mp mem
    exact absurd (late e mem) (not_lt.mpr (Prod.Lex.monotone_fst_ofLex le))
  have all : s.timers.below (toLex (s.clock, uint32Max)) = s.timers.toList := by
    rw [← OrderedSet.below_append_notBelow s.timers (toLex (s.clock, uint32Max)), nothing,
      List.append_nil]
  have live : ∀ e ∈ s.timers.toList, s.heap e.timer ≠ none :=
    fun e mem => inv.owns.live_entry (List.mem_append_left _ mem)
  obtain ⟨left, erased⟩ := eraseActive_ok s.activeTimers live
  have later : ∀ first ∈ (s.timers.notBelow (toLex (s.clock, uint32Max))).first?,
      s.clock < first.expiration := by
    simp [OrderedSet.first?, nothing]
  refine ⟨{ s with
    timerfd := readTimerfd s.timerfd
    timers := s.timers.notBelow (toLex (s.clock, uint32Max))
    activeTimers := left
    callingExpiredTimers := true
    cancelingTimers := .empty
    phase := .calling s.clock [] s.timers.toList
    batch := s.batch + 1 }, machine_step_eq_some_iff.mpr ?_, rfl, rfl⟩
  simp only [step, phase, if_true, handleRead, getExpired, if_pos later, all, erased, ok_bind]

end Enabled

/-- Left alone, the loop thread finishes `handleRead` without dropping a pending timer. -/
theorem leads_idle_of_resetting {s : State} {now : Int} {expired : List Entry} {id : TimerId}
    (inv : Inv s) (pending : Pending s id) (phase : s.phase = .resetting now expired) :
    ∃ t, machine.Leads s t ∧ Inv t ∧ Pending t id ∧ t.phase = .idle := by
  induction expired generalizing s with
  | nil =>
      obtain ⟨t, step, idle⟩ := rearm_enabled inv phase
      exact ⟨t, (Machine.LeadsWhere.refl s).tail (l := .rearm) trivial step, step_inv inv step,
        pending.step inv step nofun, idle⟩
  | cons e expired ih =>
      obtain ⟨t, step, phase'⟩ := resetNext_enabled inv phase
      obtain ⟨u, leads, rest⟩ := ih (step_inv inv step) (pending.step inv step nofun) phase'
      exact ⟨u, leads.head (l := .resetNext) step, rest⟩

theorem leads_idle_of_calling {s : State} {now : Int} {called uncalled : List Entry} {id : TimerId}
    (inv : Inv s) (pending : Pending s id) (phase : s.phase = .calling now called uncalled) :
    ∃ t, machine.Leads s t ∧ Inv t ∧ Pending t id ∧ t.phase = .idle := by
  induction uncalled generalizing s called with
  | nil =>
      have step := reset_enabled phase
      obtain ⟨u, leads, rest⟩ := leads_idle_of_resetting (step_inv inv step)
        (pending.step inv step (by simp)) rfl
      exact ⟨u, Machine.Leads.head (l := .reset) step leads, rest⟩
  | cons e uncalled ih =>
      obtain ⟨timer, held, -⟩ := inv.owns.entries e (by simp [stored, phase, remaining])
      have step := run_enabled phase held
      obtain ⟨u, leads, rest⟩ := ih (step_inv inv step) (pending.step inv step (by simp)) rfl
      exact ⟨u, Machine.Leads.head (l := .run) step leads, rest⟩

theorem leads_idle {s : State} {id : TimerId} (inv : Inv s) (pending : Pending s id) :
    ∃ t, machine.Leads s t ∧ Inv t ∧ Pending t id ∧ t.phase = .idle := by
  cases phase : s.phase with
  | idle => exact ⟨s, .refl s, inv, pending, phase⟩
  | calling now called uncalled => exact leads_idle_of_calling inv pending phase
  | resetting now expired => exact leads_idle_of_resetting inv pending phase

/-- The loop over the callbacks comes to every entry of the batch. -/
theorem leads_call {s₀ s : State} {now : Int} {called uncalled : List Entry} {id : TimerId}
    {timer : Timer} {calls : List Invocation} (since : CallsSince s₀ s id.sequence calls)
    (live : ∀ e ∈ uncalled, s.heap e.timer ≠ none) (held : s.heap id.timer = some timer)
    (number : timer.sequence = id.sequence) (phase : s.phase = .calling now called uncalled)
    (mem : entry timer id.timer ∈ uncalled) :
    ∃ t calls, machine.Leads s t ∧ CallsSince s₀ t id.sequence calls ∧ calls ≠ [] := by
  induction uncalled generalizing s called calls with
  | nil => cases mem
  | cons e uncalled ih =>
      rcases List.mem_cons.mp mem with rfl | mem
      · have step := run_enabled phase (by simpa using held)
        exact ⟨_, _, Machine.Leads.tail (l := .run) (.refl s) step, since.call rfl number, by simp⟩
      · obtain ⟨object, heldE⟩ := Option.ne_none_iff_exists'.mp (live e List.mem_cons_self)
        have step := run_enabled phase heldE
        obtain ⟨calls', since'⟩ := since.step step
        obtain ⟨t, calls'', leads, rest⟩ := ih since'
          (fun f mem => live f (List.mem_cons_of_mem _ mem)) held rfl mem
        exact ⟨t, calls'', Machine.Leads.head (l := .run) step leads, rest⟩

theorem exists_late (clock : Int) (timers : List Entry) :
    ∃ delay : Nat, ∀ e ∈ timers, e.expiration < clock + delay := by
  induction timers with
  | nil => exact ⟨0, nofun⟩
  | cons e timers ih =>
      obtain ⟨delay, late⟩ := ih
      refine ⟨max delay (e.expiration - clock + 1).toNat, fun f mem => ?_⟩
      rcases List.mem_cons.mp mem with rfl | mem
      · omega
      · have := late f mem
        omega

/-- **A pending cancel is lost.** Once a cancel has found its timer pending in `timers_`, the
run can always go on to the point where that timer's callback is called all the same. -/
theorem pending_cancel_fires {s₁ s₂ : State} {id : TimerId} (reach : machine.Reachable s₁)
    (pending : Pending s₁ id) (cancel : machine.step s₁ (.cancelInLoop id) = some s₂) :
    ∃ s₃, machine.Leads s₂ s₃ ∧ ¬ CancelEffective s₁ id s₃ := by
  have inv := reachable_inv reach
  obtain ⟨calls, since⟩ := (CallsSince.refl s₁ id.sequence).step cancel
  obtain ⟨u, leads, inv, pending', phase⟩ :=
    leads_idle (step_inv inv cancel) (pending.step inv cancel nofun)
  obtain ⟨calls, since⟩ := leads.invariant
    (I := fun u => ∃ calls, CallsSince s₁ u id.sequence calls)
    ⟨calls, since⟩ fun _ _ _ ⟨_, since⟩ step => since.step step
  -- the clock passes every expiration, and `handleRead` takes all timers
  obtain ⟨delay, late⟩ := exists_late u.clock u.timers.toList
  have tick : machine.step u (.tick delay) = some { u with clock := u.clock + delay } := rfl
  obtain ⟨v, read, phase, heap⟩ := handleRead_enabled (step_inv inv tick) phase late
  obtain ⟨timer, held, number, mem⟩ := pending'
  obtain ⟨calls, since⟩ := since.step tick
  obtain ⟨calls, since⟩ := since.step read
  obtain ⟨w, calls, called, since, called_once⟩ := leads_call since
    (fun e mem => by rw [heap]; exact inv.owns.live_entry (List.mem_append_left _ mem))
    (by rw [heap]; exact held) number phase mem
  refine ⟨w, leads.trans ((Machine.Leads.head (l := .handleRead) read called).head
    (l := .tick delay) tick), ?_⟩
  rintro ⟨others, ⟨more, grown, rfl⟩, none_left, -⟩
  obtain ⟨more', grown', rfl⟩ := since
  obtain rfl : more = more' := List.append_cancel_left (grown.symm.trans grown')
  exact called_once (none_left pending)

/-- A one-shot timer is added, cancelled and called. -/
theorem cancelled_timer_fires :
    ¬ ∀ (s₁ s₂ s₃ : State) (id : TimerId), machine.Reachable s₁ →
      machine.step s₁ (.cancelInLoop id) = some s₂ → machine.Leads s₂ s₃ →
      CancelEffective s₁ id s₃ := by
  intro effective
  let before : List Label := [.newTimer 16 5 ⟨false, 0, nofun⟩, .addTimerInLoop 16]
  have reach := Machine.reachable_of_run (M := machine) before ⟨1, by decide, rfl⟩ rfl
  obtain ⟨calls, ⟨more, grown, rfl⟩, none_left, -⟩ := effective _ _ _ ⟨16, 1⟩ reach rfl
    (Machine.leads_of_run [.tick 9, .handleRead, .run] rfl)
  have called : more = [⟨⟨5, ⟨false, 0, nofun⟩, 1⟩, 10, 1⟩] := grown.symm
  have none_left := none_left ⟨⟨5, ⟨false, 0, nofun⟩, 1⟩, rfl, rfl, List.mem_singleton.mpr rfl⟩
  rw [called] at none_left
  exact absurd none_left (by decide)

end Dbdky.Port.TimerQueue
