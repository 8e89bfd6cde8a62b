import Dbdky.Port.EventLoop

/-!
Wakeups of the event loop.

A functor that is pending while the loop sits in `poll` waits until some
descriptor becomes readable or the poll times out, unless a `wakeup()` has made
`wakeupFd_` readable in the meantime (`Awake`). Since `wakeup()` is empty, no
state ever has a readable `wakeupFd_` (`wakeupFd_eq_zero`), and what decides is
when functors are pushed:

* **`awake_of_pushesBeforeSwap`.** As long as every `push_back` happens between
  the return of `poll` and the swap of `doPendingFunctors`, no functor is pending
  when the loop enters `poll`.
* **`late_push_blocks`.** After any other `push_back` the loop can block in `poll`
  with that functor pending, whichever thread pushed it.
-/

namespace Dbdky.Port.EventLoop

open Transition

variable {F : Type*}

/-- The loop sits in `poll` and no registered descriptor is readable. -/
def Blocked (s : State F) : Prop := s.pc = .poll ∧ s.ready = false ∧ s.wakeupFd = 0

/-- If the loop is in `poll` with a functor pending, a `wakeup()` issued after that
functor was queued has made `wakeupFd_` readable. -/
def Awake (s : State F) : Prop :=
  s.pc = .poll → s.pendingFunctors ≠ [] → 0 < s.wakeupFd ∧ s.wokenSince = true

/-- Between the return of `poll` and the swap of `doPendingFunctors`. -/
def Pc.BeforeSwap (pc : Pc F) : Prop := pc = .handleEvents ∨ pc = .swapFunctors

/-- The condition on the steps: whoever pushes a functor does so between the return
of `poll` and the swap. -/
def PushesBeforeSwap : Guard (State F) (Label F)
  | s, .pushFunctor _ _ => s.pc.BeforeSwap
  | s, .runInLoop t _ => isInLoopThread t = true ∨ s.pc.BeforeSwap
  | _, _ => True

theorem not_awake_of_blocked {s : State F} (blocked : Blocked s)
    (pending : s.pendingFunctors ≠ []) : ¬ Awake s := by
  obtain ⟨inPoll, -, unread⟩ := blocked
  intro awake
  exact absurd (awake inPoll pending).1 (by omega)

/-! ### No functor is pending in `poll` -/

/-- Functors are pending only before the swap. -/
def PendingBeforeSwap (s : State F) : Prop := s.pendingFunctors ≠ [] → s.pc.BeforeSwap

theorem step_pendingBeforeSwap {s t : State F} {l : Label F} (inv : PendingBeforeSwap s)
    (meets : PushesBeforeSwap s l) (step : step s l = some t) : PendingBeforeSwap t := by
  -- a step that moves the program counter out of the window starts with nothing pending
  have outside {u : State F} (same : u.pendingFunctors = s.pendingFunctors)
      (not_before : ¬ s.pc.BeforeSwap) : PendingBeforeSwap u := by
    intro pending
    rw [same] at pending
    exact absurd (inv pending) not_before
  cases step_cases step with
  | pushFunctor _ => exact fun _ => meets
  | runQueued _ elsewhere =>
      exact fun _ => meets.resolve_left (by simp [elsewhere])
  | testWakeup _ => simpa [PendingBeforeSwap] using inv
  | quit _ => simpa [PendingBeforeSwap] using inv
  | runHere _ _ => exact inv
  | setReady => exact inv
  | eventsHandled _ => exact fun _ => Or.inr rfl
  | swapFunctors _ => exact fun pending => absurd rfl pending
  | pollReturn pc => exact fun _ => Or.inl rfl
  | callLoop pc _ | enterPoll pc _ | exitWhile pc _ =>
      exact outside rfl (by simp [Pc.BeforeSwap, pc])
  | setLooping pc | resetQuit pc | functorReturn pc | functorsDone pc | leave pc =>
      exact outside rfl (by simp [Pc.BeforeSwap, pc])

theorem pendingBeforeSwap {s : State F} (reach : (machine F).ReachableWhere PushesBeforeSwap s) :
    PendingBeforeSwap s :=
  reach.invariant (fun _ initial => by subst initial; exact fun pending => absurd rfl pending)
    fun _ _ _ inv meets step => step_pendingBeforeSwap inv meets step

/-- **No lost wakeup, as long as functors are pushed before the swap.** The loop
never blocks in `poll` with a functor pending. -/
theorem awake_of_pushesBeforeSwap {s : State F}
    (reach : (machine F).ReachableWhere PushesBeforeSwap s) :
    Awake s ∧ ¬ (Blocked s ∧ s.pendingFunctors ≠ []) := by
  have none_pending : s.pc = .poll → s.pendingFunctors = [] := by
    intro inPoll
    by_contra pending
    rcases pendingBeforeSwap reach pending with pc | pc <;> simp [inPoll] at pc
  constructor
  · exact fun inPoll pending => absurd (none_pending inPoll) pending
  · rintro ⟨⟨inPoll, -⟩, pending⟩
    exact pending (none_pending inPoll)

/-- An event handler queues a functor; the loop runs it before the next `poll`. -/
theorem awake_of_pushesBeforeSwap_handler :
    ∃ s : State Nat, s.pc = .poll ∧ s.executed = [7] ∧
      Awake s ∧ ¬ (Blocked s ∧ s.pendingFunctors ≠ []) := by
  let labels : List (Label Nat) :=
    [.callLoop, .setLooping, .resetQuit, .whileQuit, .pollReturn, .pushFunctor .loop 7,
      .testWakeup .loop, .eventsHandled, .swapFunctors, .functorReturn, .functorsDone, .whileQuit]
  have meets : (machine Nat).Meets PushesBeforeSwap State.new labels := by
    simp [labels, Machine.Meets, PushesBeforeSwap, machine, step, loopStep, State.new, mayCall,
      Pc.callsOut, pushFunctor, Pc.BeforeSwap]
  exact ⟨_, rfl, rfl, awake_of_pushesBeforeSwap ⟨.new, rfl, Machine.leadsWhere_of_run _ meets rfl⟩⟩

/-- A functor queued from another thread while the loop sits in `poll`: its
`queueInLoop` has returned, and the loop is blocked. -/
theorem blocked_after_queueInLoop :
    ¬ ∀ s : State Nat, (machine Nat).Reachable s → s.queueing = [] → Awake s := by
  intro awake
  have run : (machine Nat).run .new
      [.callLoop, .setLooping, .resetQuit, .whileQuit, .pushFunctor (.other 1) 7,
        .testWakeup (.other 1)] =
      some { State.new with
        looping := true, pc := .poll, pendingFunctors := [7], queued := [7] } := rfl
  exact not_awake_of_blocked ⟨rfl, rfl, rfl⟩ (by simp)
    (awake _ (Machine.reachable_of_run _ rfl run) rfl)

/-! ### A later push can be left waiting

From wherever the loop thread stands, it comes back to `poll`: through the rest of
its batch, or through another call of `loop()` if it was asked to quit. Only the
swap takes functors out of the pending list, and it lies behind `poll`. -/

/-- The loop can go on to `poll` without touching the pending functors. -/
def ReachesPoll (s : State F) : Prop :=
  ∃ v, (machine F).Leads s v ∧ v.pc = .poll ∧ v.pendingFunctors = s.pendingFunctors ∧
    v.ready = s.ready ∧ v.wakeupFd = s.wakeupFd

theorem ReachesPoll.of_step {s t : State F} {l : Label F} (first : step s l = some t)
    (pending : t.pendingFunctors = s.pendingFunctors) (ready : t.ready = s.ready)
    (wakeupFd : t.wakeupFd = s.wakeupFd) (later : ReachesPoll t) : ReachesPoll s := by
  obtain ⟨v, leads, inPoll, pending', ready', wakeupFd'⟩ := later
  exact ⟨v, Machine.Leads.head (M := machine F) first leads, inPoll,
    pending'.trans pending, ready'.trans ready, wakeupFd'.trans wakeupFd⟩

theorem reachesPoll_of_running {s : State F} (free : s.queueing = []) (pc : s.pc = .whileQuit)
    (running : s.quit = false) : ReachesPoll s := by
  have enter : step s .whileQuit = some { s with pc := .poll } := by
    simp [step, loopStep, free, pc, running]
  exact .of_step enter rfl rfl rfl ⟨_, .refl _, rfl, rfl, rfl, rfl⟩

theorem reachesPoll_of_resetQuit {s : State F} (free : s.queueing = []) (pc : s.pc = .resetQuit) :
    ReachesPoll s := by
  have reset : step s .resetQuit = some { s with quit := false, pc := .whileQuit } := by
    simp [step, loopStep, free, pc]
  exact .of_step reset rfl rfl rfl (reachesPoll_of_running free rfl rfl)

theorem reachesPoll_of_setLooping {s : State F} (free : s.queueing = [])
    (pc : s.pc = .setLooping) : ReachesPoll s := by
  have set : step s .setLooping = some { s with looping := true, pc := .resetQuit } := by
    simp [step, loopStep, free, pc]
  exact .of_step set rfl rfl rfl (reachesPoll_of_resetQuit free rfl)

theorem reachesPoll_of_outside {s : State F} (free : s.queueing = []) (pc : s.pc = .outside)
    (idle : s.looping = false) : ReachesPoll s := by
  have call : step s .callLoop = some { s with pc := .setLooping } := by
    simp [step, loopStep, free, pc, idle]
  exact .of_step call rfl rfl rfl (reachesPoll_of_setLooping free rfl)

theorem reachesPoll_of_leave {s : State F} (free : s.queueing = []) (pc : s.pc = .leave) :
    ReachesPoll s := by
  have leave : step s .leave = some { s with looping := false, pc := .outside } := by
    simp [step, loopStep, free, pc]
  exact .of_step leave rfl rfl rfl (reachesPoll_of_outside free rfl rfl)

theorem reachesPoll_of_whileQuit {s : State F} (free : s.queueing = []) (pc : s.pc = .whileQuit) :
    ReachesPoll s := by
  cases quitting : s.quit with
  | false => exact reachesPoll_of_running free pc quitting
  | true =>
      have exit : step s .whileQuit = some { s with pc := .leave } := by
        simp [step, loopStep, free, pc, quitting]
      exact .of_step exit rfl rfl rfl (reachesPoll_of_leave free rfl)

theorem reachesPoll_of_runFunctors {s : State F} {functors : List F} (free : s.queueing = [])
    (pc : s.pc = .runFunctors functors) : ReachesPoll s := by
  induction functors generalizing s with
  | nil =>
      have done : step s .functorsDone =
          some { s with callingPendingFunctors := false, pc := .whileQuit } := by
        simp [step, loopStep, free, pc]
      exact .of_step done rfl rfl rfl (reachesPoll_of_whileQuit free rfl)
  | cons cb rest ih =>
      have return_ : step s .functorReturn =
          some { s with pc := .runFunctors rest, executed := s.executed ++ [cb] } := by
        simp [step, loopStep, free, pc]
      exact .of_step return_ rfl rfl rfl (ih free rfl)

/-- Outside `loop()` the flag `looping_` is clear, and nothing ever writes to
`wakeupFd_`. -/
def Quiet (s : State F) : Prop :=
  ((s.pc = .outside ∨ s.pc = .setLooping) → s.looping = false) ∧ s.wakeupFd = 0

theorem step_quiet {s t : State F} {l : Label F} (inv : Quiet s) (step : step s l = some t) :
    Quiet t := by
  obtain ⟨idle, unread⟩ := inv
  cases step_cases step with
  | callLoop pc looping => exact ⟨fun _ => looping, unread⟩
  | leave pc => exact ⟨fun _ => rfl, unread⟩
  | pushFunctor _ => exact ⟨idle, unread⟩
  | runQueued _ _ => exact ⟨idle, unread⟩
  | runHere _ _ => exact ⟨idle, unread⟩
  | setReady => exact ⟨idle, unread⟩
  | testWakeup _ => simpa [Quiet] using And.intro idle unread
  | quit _ => simpa [Quiet] using And.intro idle unread
  | _ => exact ⟨by simp [EventLoop.swapFunctors], unread⟩

theorem reachable_quiet {s : State F} (reach : (machine F).Reachable s) : Quiet s :=
  reach.invariant (fun _ initial => by subst initial; exact ⟨fun _ => rfl, rfl⟩)
    fun _ _ _ inv step => step_quiet inv step

theorem reachesPoll {s : State F} (quiet : Quiet s) (free : s.queueing = [])
    (late : ¬ s.pc.BeforeSwap) : ReachesPoll s := by
  cases pc : s.pc with
  | outside => exact reachesPoll_of_outside free pc (quiet.1 (.inl pc))
  | setLooping => exact reachesPoll_of_setLooping free pc
  | resetQuit => exact reachesPoll_of_resetQuit free pc
  | whileQuit => exact reachesPoll_of_whileQuit free pc
  | poll => exact ⟨s, .refl s, pc, rfl, rfl, rfl⟩
  | handleEvents => exact absurd (.inl pc) late
  | swapFunctors => exact absurd (.inr pc) late
  | runFunctors functors => exact reachesPoll_of_runFunctors free pc
  | leave => exact reachesPoll_of_leave free pc

/-- **The condition is exact.** After a `push_back` outside the window, by whichever
thread, the loop can block in `poll` with that functor pending while no call of
`queueInLoop` is under way. -/
theorem late_push_blocks {s t : State F} {u : Thread} {cb : F} (reach : (machine F).Reachable s)
    (late : ¬ s.pc.BeforeSwap) (push : step s (.pushFunctor u cb) = some t) :
    ∃ v, (machine F).Leads t v ∧ Blocked v ∧ cb ∈ v.pendingFunctors := by
  have quiet : Quiet t := step_quiet (reachable_quiet reach) push
  obtain ⟨-, ⟨⟩⟩ := Option.ite_none_right_eq_some.mp push
  let settled : State F := { pushFunctor s u cb with queueing := [], ready := false }
  have settles : (machine F).Leads (pushFunctor s u cb) settled :=
    (leads_queueing_nil (fun _ _ => trivial) _).tail (M := machine F) (l := .setReady false)
      trivial rfl
  obtain ⟨v, leads, inPoll, pending, ready, wakeupFd⟩ :=
    reachesPoll (s := settled) quiet rfl late
  exact ⟨v, settles.trans leads, ⟨inPoll, ready, wakeupFd.trans quiet.2⟩,
    by rw [pending]; simp [settled, pushFunctor]⟩

end Dbdky.Port.EventLoop
