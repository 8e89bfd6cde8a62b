import Dbdky.Port.EventLoopThread
import Dbdky.Sync.Monitor

/-!
The handshake of `EventLoopThread`, and how long `loop_` stays valid
(`src/port/EventLoopThread.cpp`).

`startLoop` waits on `cond_` until `threadFunc` has stored the address of its loop. The loop is
a local variable of `threadFunc`, so `loop_` dangles once `loop()` has returned, and nothing
resets it. `Handshake` adds to `EventLoopThread` where the owner is in its wait.

* **`Handshake.loop_handed_over`.** No notification is lost: once the loop is published
  `startLoop` can return. And a destructor that is yet to come finds the loop alive, as long as
  callbacks and functors do not call `quit()` on it, exactly if none of them has done so before.
-/

namespace Dbdky.Port

open Transition

namespace EventLoopThread

variable {F : Type*}

/-! ### As long as nobody quits, the loop is alive -/

/-- The loop is not asked to quit by its own callbacks and functors. -/
def OwnerQuits : Guard (State F) (Label F)
  | s, .loop (.quit _) => s.worker ≠ .inLoop
  | _, _ => True

/-- The destructor has not called `quit()`. -/
def Undestroyed (s : State F) : Prop := s.owner ≠ .join ∧ s.owner ≠ .joined

/-- `loop()` goes on. -/
structure Running (s : EventLoop.State F) : Prop where
  inside : s.pc ≠ .outside
  stays : s.pc ≠ .leave
  quit : s.pc ≠ .setLooping → s.pc ≠ .resetQuit → s.quit = false

/-- What holds until the destructor calls `quit()`. -/
structure Alive (s : State F) : Prop where
  shown : s.worker = .callLoop ∨ s.worker = .inLoop ∨ s.worker = .finished → s.published = true
  unfinished : Undestroyed s → s.quitRequested = false → s.worker ≠ .finished
  running : Undestroyed s → s.quitRequested = false → s.worker = .inLoop → Running s.loop

/-- A loop that is not asked to quit goes on. -/
theorem Running.step {s t : EventLoop.State F} {l : EventLoop.Label F} (running : Running s)
    (step : EventLoop.Step s l t) (asked : ∀ u, l ≠ .quit u) : Running t := by
  obtain ⟨inside, stays, quit⟩ := running
  cases step with
  | callLoop pc _ => exact absurd pc inside
  | setLooping _ => exact ⟨nofun, nofun, fun _ second => absurd rfl second⟩
  | resetQuit _ => exact ⟨nofun, nofun, fun _ _ => rfl⟩
  | enterPoll _ unset => exact ⟨nofun, nofun, fun _ _ => unset⟩
  | exitWhile pc set =>
      have unset := quit (by rw [pc]; nofun) (by rw [pc]; nofun)
      cases set.symm.trans unset
  | leave pc => exact absurd pc stays
  | @quit u _ => exact absurd rfl (asked u)
  | testWakeup _ =>
      rw [EventLoop.testWakeup_eq]
      exact ⟨inside, stays, quit⟩
  | pushFunctor _ | runQueued _ _ | runHere _ _ | setReady => exact ⟨inside, stays, quit⟩
  | pollReturn pc | eventsHandled pc | swapFunctors pc | functorReturn pc | functorsDone pc =>
      exact ⟨nofun, nofun, fun _ _ => quit (by rw [pc]; nofun) (by rw [pc]; nofun)⟩

theorem step_alive {s t : State F} {l : Label F} (inv : Alive s) (step : step s l = some t) :
    Alive t := by
  obtain ⟨shown, unfinished, running⟩ := inv
  cases step_cases step with
  | startThread _ => exact ⟨nofun, fun _ _ => nofun, fun _ _ => nofun⟩
  | returnLoop owner _ | setExiting owner =>
      have before : Undestroyed s := ⟨by rw [owner]; nofun, by rw [owner]; nofun⟩
      exact ⟨shown, fun _ => unfinished before, fun _ => running before⟩
  | quit _ _ => exact ⟨shown, fun ahead => absurd rfl ahead.1, fun ahead => absurd rfl ahead.1⟩
  | join _ _ => exact ⟨shown, fun ahead => absurd rfl ahead.2, fun ahead => absurd rfl ahead.2⟩
  | construct _ | callbackReturn _ _ => exact ⟨nofun, fun _ _ => nofun, fun _ _ => nofun⟩
  | publish _ => exact ⟨fun _ => rfl, fun _ _ => nofun, fun _ _ => nofun⟩
  | callLoop worker inner =>
      have seen := shown (.inl worker)
      cases inner with
      | callLoop _ _ =>
          exact ⟨fun _ => seen, fun _ _ => nofun,
            fun _ _ _ => ⟨nofun, nofun, fun first => absurd rfl first⟩⟩
  | finish worker pc =>
      have seen := shown (.inr (.inl worker))
      refine ⟨fun _ => seen, fun ahead unasked => ?_, fun _ _ => nofun⟩
      exact absurd pc (running ahead unasked worker).inside
  | @loop l loop may inner =>
      have unasked : ∀ b, (s.quitRequested || b) = false → s.quitRequested = false := by
        intro b
        cases s.quitRequested <;> simp
      refine ⟨shown, fun ahead later => unfinished ahead (unasked _ later), ?_⟩
      intro ahead later worker
      have seen : s.published = true := shown (.inr (.inl worker))
      refine (running ahead (unasked _ later) worker).step inner ?_
      rintro u rfl
      simp [seen] at later

theorem reachable_alive {s : State F} (reach : (machine F).Reachable s) : Alive s :=
  reach.invariant
    (fun _ initial => by subst initial; exact ⟨nofun, fun _ _ => nofun, fun _ _ => nofun⟩)
    fun _ _ _ inv step => step_alive inv step

/-- On the published loop, `quit()` is called by a callback or a functor. -/
theorem inLoop_of_quit {s : State F} {u : Thread} (published : s.published = true →
      s.worker = .callLoop ∨ s.worker = .inLoop ∨ s.worker = .finished)
    (seen : s.published = true) (may : loopMayStep s (.quit u) = true) : s.worker = .inLoop := by
  cases u with
  | other tid => cases may
  | loop =>
      rcases published seen with worker | worker | worker
      · simp [loopMayStep, worker] at may
      · exact worker
      · simp [loopMayStep, worker] at may

/-- A step by which the loop is not asked to quit. -/
theorem unasked_step {s t : State F} {l : Label F} (published : s.published = true →
      s.worker = .callLoop ∨ s.worker = .inLoop ∨ s.worker = .finished)
    (meets : OwnerQuits s l) (step : step s l = some t) (ahead : Undestroyed t) :
    Undestroyed s ∧ t.quitRequested = s.quitRequested := by
  cases step_cases step with
  | startThread owner | returnLoop owner _ | setExiting owner =>
      exact ⟨⟨by rw [owner]; nofun, by rw [owner]; nofun⟩, rfl⟩
  | quit _ _ => exact absurd rfl ahead.1
  | join _ _ => exact absurd rfl ahead.2
  | construct _ | callbackReturn _ _ | publish _ | callLoop _ _ | finish _ _ => exact ⟨ahead, rfl⟩
  | @loop l loop may inner =>
      refine ⟨ahead, ?_⟩
      cases seen : s.published with
      | false => exact Bool.or_false _
      | true =>
          cases l with
          | quit u => exact absurd (inLoop_of_quit published seen may) meets
          | _ => exact Bool.or_false _

/-! ### Once somebody else quits, the loop may have ended -/

/-- The worker can go on to the end of `threadFunc`, with no `quit()` and nothing done by the
owner. -/
def Ends (s : State F) : Prop :=
  ∃ v, (machine F).LeadsWhere OwnerQuits s v ∧ v.worker = .finished ∧ v.owner = s.owner ∧
    v.published = s.published

theorem Ends.of_step {s t : State F} {l : Label F} (first : step s l = some t)
    (meets : OwnerQuits s l) (owner : t.owner = s.owner) (published : t.published = s.published)
    (later : Ends t) : Ends s := by
  obtain ⟨v, leads, finished, owner', published'⟩ := later
  have head : (machine F).LeadsWhere OwnerQuits s t :=
    (Machine.LeadsWhere.refl s).tail meets first
  exact ⟨v, head.trans leads, finished, owner'.trans owner, published'.trans published⟩

section Inside

variable {s : State F} (worker : s.worker = .inLoop)
include worker

theorem ends_of_outside (pc : s.loop.pc = .outside) : Ends s := by
  have finish : step s .finish = some { s with worker := .finished } := by
    simp [step, worker, pc]
  exact .of_step finish trivial rfl rfl ⟨_, .refl _, rfl, rfl, rfl⟩

variable (free : .loop ∉ s.loop.queueing)
include free

theorem ends_of_leave (pc : s.loop.pc = .leave) : Ends s := by
  have leave : step s (.loop .leave) =
      some { s with loop := { s.loop with looping := false, pc := .outside } } := by
    simp [step, loopMayStep, worker, pc, EventLoop.step, EventLoop.loopStep, free]
  exact .of_step leave trivial rfl rfl (ends_of_outside worker rfl)

variable (quitting : s.loop.quit = true)
include quitting

theorem ends_of_whileQuit (pc : s.loop.pc = .whileQuit) : Ends s := by
  have exit : step s (.loop .whileQuit) =
      some { s with loop := { s.loop with pc := .leave } } := by
    simp [step, loopMayStep, worker, pc, EventLoop.step, EventLoop.loopStep, free, quitting]
  exact .of_step exit trivial rfl rfl (ends_of_leave worker free rfl)

theorem ends_of_runFunctors {functors : List F} (pc : s.loop.pc = .runFunctors functors) :
    Ends s := by
  induction functors generalizing s with
  | nil =>
      have done : step s (.loop .functorsDone) = some { s with
          loop := { s.loop with callingPendingFunctors := false, pc := .whileQuit } } := by
        simp [step, loopMayStep, worker, pc, EventLoop.step, EventLoop.loopStep, free]
      exact .of_step done trivial rfl rfl (ends_of_whileQuit worker free quitting rfl)
  | cons cb rest ih =>
      have return_ : step s (.loop .functorReturn) = some { s with
          loop := { s.loop with
            pc := .runFunctors rest, executed := s.loop.executed ++ [cb] } } := by
        simp [step, loopMayStep, worker, pc, EventLoop.step, EventLoop.loopStep, free]
      exact .of_step return_ trivial rfl rfl (ih worker free quitting rfl)

theorem ends_of_swapFunctors (pc : s.loop.pc = .swapFunctors) : Ends s := by
  have swap : step s (.loop .swapFunctors) =
      some { s with loop := EventLoop.swapFunctors s.loop } := by
    simp [step, loopMayStep, worker, pc, EventLoop.step, EventLoop.loopStep, free]
  exact .of_step swap trivial rfl rfl (ends_of_runFunctors worker free quitting rfl)

theorem ends_of_handleEvents (pc : s.loop.pc = .handleEvents) : Ends s := by
  have handled : step s (.loop .eventsHandled) = some { s with
      loop := { s.loop with
        eventHandling := false, callingPendingFunctors := true, pc := .swapFunctors } } := by
    simp [step, loopMayStep, worker, pc, EventLoop.step, EventLoop.loopStep, free]
  exact .of_step handled trivial rfl rfl (ends_of_swapFunctors worker free quitting rfl)

theorem ends_of_poll (pc : s.loop.pc = .poll) : Ends s := by
  have return_ : step s (.loop .pollReturn) = some { s with
      loop := { s.loop with
        iteration := s.loop.iteration + 1, eventHandling := true, pc := .handleEvents } } := by
    simp [step, loopMayStep, worker, pc, EventLoop.step, EventLoop.loopStep, free]
  exact .of_step return_ trivial rfl rfl (ends_of_handleEvents worker free quitting rfl)

end Inside

/-- Past the reset, a loop that has been asked to quit comes to its end. -/
theorem ends_of_pastReset {s : State F} (past : PastReset s) (free : .loop ∉ s.loop.queueing)
    (quitting : s.loop.quit = true) : Ends s := by
  obtain ⟨worker, first, second⟩ := past
  cases pc : s.loop.pc with
  | outside => exact ends_of_outside worker pc
  | setLooping => exact absurd pc first
  | resetQuit => exact absurd pc second
  | whileQuit => exact ends_of_whileQuit worker free quitting pc
  | poll => exact ends_of_poll worker free quitting pc
  | handleEvents => exact ends_of_handleEvents worker free quitting pc
  | swapFunctors => exact ends_of_swapFunctors worker free quitting pc
  | runFunctors functors => exact ends_of_runFunctors worker free quitting pc
  | leave => exact ends_of_leave worker free pc

/-- A call of `queueInLoop` that the worker is in the middle of ends first. -/
theorem ends_of_quitting {s : State F} (past : PastReset s) (quitting : s.loop.quit = true) :
    Ends s := by
  by_cases outside : s.loop.pc = .outside
  · exact ends_of_outside past.1 outside
  · induction calls : s.loop.queueing.count .loop generalizing s with
    | zero => exact ends_of_pastReset past (List.count_eq_zero.mp calls) quitting
    | succ n ih =>
        have inside : .loop ∈ s.loop.queueing := List.count_pos_iff.mp (calls ▸ n.succ_pos)
        have may : loopMayStep s (.testWakeup .loop) = true := by
          cases pc : s.loop.pc <;> simp_all [loopMayStep, past.1]
        have test : step s (.loop (.testWakeup .loop)) = some { s with
            loop := { s.loop with queueing := s.loop.queueing.erase .loop } } := by
          simp [step, may, EventLoop.step, inside]
        refine .of_step test trivial rfl rfl (ih past quitting outside ?_)
        rw [List.count_erase_self, calls]
        rfl

/-- Until the destructor calls `quit()`, every request comes after the reset. -/
theorem reachable_undestroyed {s : State F} (reach : (machine F).Reachable s) :
    Undestroyed s → (machine F).ReachableWhere QuitsAfterReset s := by
  refine Machine.Reachable.invariant
    (I := fun s => Undestroyed s → (machine F).ReachableWhere QuitsAfterReset s) reach
    (fun s initial _ => ⟨s, initial, .refl s⟩) ?_
  intro s l t before step ahead
  cases step_cases step with
  | quit _ _ => exact absurd rfl ahead.1
  | join _ _ => exact absurd rfl ahead.2
  | startThread owner | returnLoop owner _ | setExiting owner =>
      exact (before ⟨by rw [owner]; nofun, by rw [owner]; nofun⟩).tail (by trivial) step
  | _ => exact (before ahead).tail (by trivial) step

/-- **A loop that has been asked to quit can end before the destructor asks it.** -/
theorem ends_of_quitRequested {s : State F} (reach : (machine F).Reachable s)
    (ahead : Undestroyed s) (asked : s.quitRequested = true) : Ends s := by
  rcases (reachable_inv (reachable_undestroyed reach ahead)).kept asked with finished | inside
  · exact ⟨s, .refl s, finished, rfl, rfl⟩
  · exact ends_of_quitting inside.1 inside.2

/-! ### The wait for the loop -/

/-- With the owner's place in `while (loop_ == NULL) cond_.wait()`. -/
structure Handshake (F : Type*) where
  thread : State F
  place : Sync.Monitor.Place

namespace Handshake

inductive Label (F : Type*) where
  | thread (l : EventLoopThread.Label F)
  /-- Owner: `loop_ == NULL` is seen, and `cond_.wait()` called. -/
  | wait
  /-- Owner: `cond_.wait()` wakes up by itself. -/
  | wakeup

/-- Where a statement of either thread leaves the owner. -/
def placeAfter (place : Sync.Monitor.Place) : EventLoopThread.Label F → Sync.Monitor.Place
  | .startThread => .enter
  -- `cond_.notify()`
  | .publish => if place = .wait then .notified else place
  | _ => place

/-- Each locked block is one step. -/
def step (s : Handshake F) : Label F → Option (Handshake F)
  | .thread l =>
      if l matches .returnLoop ∧ s.place = .wait then none
      else (EventLoopThread.step s.thread l).map fun thread => ⟨thread, placeAfter s.place l⟩
  | .wait =>
      if s.thread.owner = .waitLoop ∧ s.thread.published = false ∧ s.place ≠ .wait then
        some { s with place := .wait }
      else none
  | .wakeup => if s.place = .wait then some { s with place := .awake } else none

variable (F) in
/-- All interleavings of the owner with the worker, and spurious wakeups. -/
def machine : Machine (Handshake F) (Label F) where
  init s := s = ⟨.new, .enter⟩
  step := step

/-- The steps as a relation. -/
inductive Step : Handshake F → Label F → Handshake F → Prop where
  | thread {s l thread} : (l = .returnLoop → s.place ≠ .wait) →
      EventLoopThread.step s.thread l = some thread →
      Step s (.thread l) ⟨thread, placeAfter s.place l⟩
  | wait {s} : s.thread.owner = .waitLoop → s.thread.published = false →
      Step s .wait { s with place := .wait }
  | wakeup {s} : s.place = .wait → Step s .wakeup { s with place := .awake }

/-- **Inversion.** -/
theorem step_cases {s t : Handshake F} {l : Label F} (h : step s l = some t) : Step s l t := by
  cases l with
  | thread l =>
      obtain ⟨awake, h⟩ := Option.ite_none_left_eq_some.mp h
      obtain ⟨thread, inner, ⟨⟩⟩ := Option.map_eq_some_iff.mp h
      refine .thread ?_ inner
      rintro rfl asleep
      exact awake ⟨rfl, asleep⟩
  | wait =>
      obtain ⟨⟨owner, hidden, -⟩, ⟨⟩⟩ := Option.ite_none_right_eq_some.mp h
      exact .wait owner hidden
  | wakeup =>
      obtain ⟨asleep, ⟨⟩⟩ := Option.ite_none_right_eq_some.mp h
      exact .wakeup asleep

theorem step_thread {s : Handshake F} {l : EventLoopThread.Label F} {thread : State F}
    (awake : l = .returnLoop → s.place ≠ .wait)
    (inner : EventLoopThread.step s.thread l = some thread) :
    step s (.thread l) = some ⟨thread, placeAfter s.place l⟩ := by
  refine (if_neg ?_).trans (congrArg (Option.map _) inner)
  rintro ⟨returns, asleep⟩
  cases l with
  | returnLoop => exact awake rfl asleep
  | _ => cases returns

/-- **The handshake refines `EventLoopThread`.** -/
theorem reachable_thread {s : Handshake F} (reach : (machine F).Reachable s) :
    (EventLoopThread.machine F).Reachable s.thread := by
  refine reach.invariant (I := fun s => (EventLoopThread.machine F).Reachable s.thread)
    (fun s initial => ?_) fun s l t before step => ?_
  · subst initial
    exact .of_init rfl
  · cases step_cases step with
    | thread _ inner => exact before.tail inner
    | wait _ _ | wakeup _ => exact before

/-- The owner only sleeps while there is no loop. -/
def NotMissed (s : Handshake F) : Prop :=
  s.place = .wait → s.thread.owner = .waitLoop ∧ s.thread.published = false

/-- What a step of the threads does for the wait. -/
theorem NotMissed.thread {s : Handshake F} {l : EventLoopThread.Label F} {thread : State F}
    (inv : NotMissed s) (awake : l = .returnLoop → s.place ≠ .wait)
    (inner : EventLoopThread.step s.thread l = some thread) :
    NotMissed ⟨thread, placeAfter s.place l⟩ := by
  intro asleep
  cases EventLoopThread.step_cases inner with
  | startThread _ => cases asleep
  | returnLoop _ _ => exact absurd asleep (awake rfl)
  | publish _ =>
      rw [placeAfter] at asleep
      split at asleep
      · cases asleep
      · exact absurd asleep ‹_›
  | setExiting owner | quit owner _ | join owner _ =>
      cases (inv asleep).1.symm.trans owner
  | construct _ | callbackReturn _ _ | callLoop _ _ | loop _ _ | finish _ _ => exact inv asleep

theorem reachable_notMissed {s : Handshake F} (reach : (machine F).Reachable s) : NotMissed s := by
  refine reach.invariant (fun s initial => ?_) fun s l t inv step => ?_
  · subst initial
    exact nofun
  · cases step_cases step with
    | thread awake inner => exact inv.thread awake inner
    | wait owner hidden => exact fun _ => ⟨owner, hidden⟩
    | wakeup _ => exact nofun

/-- The same guard. -/
def OwnerQuits : Guard (Handshake F) (Label F)
  | s, .thread l => EventLoopThread.OwnerQuits s.thread l
  | _, _ => True

/-- An owner that does not sleep is in nobody's way. -/
theorem leads_thread {s : Handshake F} {l : EventLoopThread.Label F} {thread : State F}
    (awake : s.place ≠ .wait) (inner : EventLoopThread.step s.thread l = some thread)
    (meets : EventLoopThread.OwnerQuits s.thread l) :
    (machine F).LeadsWhere OwnerQuits s ⟨thread, placeAfter s.place l⟩ := by
  have move : (machine F).step s (.thread l) = some ⟨thread, placeAfter s.place l⟩ :=
    step_thread (fun _ => awake) inner
  exact (Machine.LeadsWhere.refl s).tail (by exact meets) move

/-- So all goes on as it does without its wait. -/
theorem leads_of_awake {s : Handshake F} {v : State F} (awake : s.place ≠ .wait)
    (leads : (EventLoopThread.machine F).LeadsWhere EventLoopThread.OwnerQuits s.thread v) :
    ∃ place, place ≠ .wait ∧ (machine F).LeadsWhere OwnerQuits s ⟨v, place⟩ := by
  induction leads with
  | refl => exact ⟨s.place, awake, .refl s⟩
  | @tail u v _ next ih =>
      obtain ⟨place, awake, leads⟩ := ih
      obtain ⟨l, meets, inner⟩ := next
      refine ⟨placeAfter place l, ?_, leads.trans (leads_thread awake inner meets)⟩
      unfold placeAfter
      split
      · nofun
      · rw [if_neg awake]
        exact awake
      · exact awake

/-- The owner comes to the `quit()` in its destructor. -/
theorem leads_to_quit {s : Handshake F} (ahead : Undestroyed s.thread)
    (started : s.thread.owner ≠ .constructed) (published : s.thread.published = true)
    (awake : s.place ≠ .wait) :
    ∃ t, (machine F).LeadsWhere OwnerQuits s t ∧ t.thread.owner = .callQuit ∧
      t.thread.worker = s.thread.worker := by
  have destroy : ∀ s : Handshake F, s.thread.owner = .started → s.place ≠ .wait →
      ∃ t, (machine F).LeadsWhere OwnerQuits s t ∧ t.thread.owner = .callQuit ∧
        t.thread.worker = s.thread.worker := by
    intro s owner awake
    have inner : EventLoopThread.step s.thread .setExiting =
        some { s.thread with owner := .callQuit, exiting := true } := if_pos owner
    exact ⟨_, leads_thread awake inner trivial, rfl, rfl⟩
  cases owner : s.thread.owner with
  | constructed => exact absurd owner started
  | waitLoop =>
      have inner : EventLoopThread.step s.thread .returnLoop =
          some { s.thread with owner := .started } := if_pos ⟨owner, published⟩
      obtain ⟨t, leads, quits, worker⟩ :=
        destroy ⟨{ s.thread with owner := .started }, s.place⟩ rfl awake
      exact ⟨t, (leads_thread awake inner trivial).trans leads, quits, worker⟩
  | started => exact destroy s owner awake
  | callQuit => exact ⟨s, .refl s, owner, rfl⟩
  | join => exact absurd owner ahead.1
  | joined => exact absurd owner ahead.2

/-- As long as only the destructor calls `quit()`, the loop is not asked before. -/
theorem unasked_leads {s t : Handshake F} (reach : (machine F).Reachable s)
    (unasked : s.thread.quitRequested = false) (leads : (machine F).LeadsWhere OwnerQuits s t) :
    Undestroyed t.thread → t.thread.quitRequested = false := by
  refine (leads.invariant (I := fun t => (machine F).Reachable t ∧
    (Undestroyed t.thread → t.thread.quitRequested = false)) ⟨reach, fun _ => unasked⟩ ?_).2
  rintro s l t ⟨reach, unasked⟩ meets step
  refine ⟨reach.tail step, fun ahead => ?_⟩
  cases step_cases step with
  | thread _ inner =>
      have published := (reachable_placed (reachable_thread reach)).published
      obtain ⟨before, same⟩ := unasked_step published meets inner ahead
      exact same.trans (unasked before)
  | wait _ _ | wakeup _ => exact unasked ahead

/-- The destructor's `quit()` finds the loop alive. -/
theorem quits_of_unfinished {s : Handshake F} (owner : s.thread.owner = .callQuit)
    (unfinished : s.thread.worker ≠ .finished) : ∃ t, step s (.thread .quit) = some t := by
  have inner : EventLoopThread.step s.thread .quit = some { s.thread with
      owner := .join, loop := EventLoop.quit s.thread.loop ownerThread, quitRequested := true } :=
    if_pos ⟨owner, unfinished⟩
  exact ⟨_, step_thread nofun inner⟩

/-- The destructor's `quit()` finds the loop gone. -/
theorem not_quits_of_finished {s : Handshake F} (finished : s.thread.worker = .finished) :
    ¬ ∃ t, step s (.thread .quit) = some t := by
  rintro ⟨t, move⟩
  cases step_cases move with
  | thread _ inner =>
      cases EventLoopThread.step_cases inner with
      | quit _ unfinished => exact unfinished finished

/-- Once the loop has been asked to quit, the destructor may come too late. -/
theorem leads_to_dangling {s : Handshake F} (reach : (machine F).Reachable s)
    (ahead : Undestroyed s.thread) (asked : s.thread.quitRequested = true) :
    ∃ t, (machine F).LeadsWhere OwnerQuits s t ∧ t.thread.owner = .callQuit ∧
      t.thread.worker = .finished := by
  have reach' := reachable_thread reach
  obtain ⟨v, leads, finished, owner, published⟩ := ends_of_quitRequested reach' ahead asked
  have seen : s.thread.published = true := by
    rcases (reachable_inv (reachable_undestroyed reach' ahead)).kept asked with worker | inside
    · exact (reachable_alive reach').shown (.inr (.inr worker))
    · exact (reachable_alive reach').shown (.inr (.inl inside.1.1))
  have started : s.thread.owner ≠ .constructed := by
    intro owner
    have hidden := (reachable_placed reach').unstarted owner
    rcases (reachable_placed reach').published seen with worker | worker | worker <;>
      cases hidden.symm.trans worker
  have awake : s.place ≠ .wait := by
    intro asleep
    cases (reachable_notMissed reach asleep).2.symm.trans seen
  obtain ⟨place, awake, leads⟩ := leads_of_awake awake leads
  obtain ⟨t, leads', quits, worker⟩ := leads_to_quit (s := ⟨v, place⟩)
    (show Undestroyed v from ⟨owner ▸ ahead.1, owner ▸ ahead.2⟩) (owner ▸ started)
    (published.trans seen) awake
  exact ⟨t, leads.trans leads', quits, worker.trans finished⟩

/-- **The wait of `startLoop` misses no notification, and the destructor finds the loop alive
exactly if no callback and no functor has called `quit()`.** -/
theorem loop_handed_over {s : Handshake F} (reach : (machine F).Reachable s) :
    (s.thread.owner = .waitLoop → s.thread.published = true →
      ∃ t, step s (.thread .returnLoop) = some t) ∧
    (Undestroyed s.thread →
      (s.thread.quitRequested = false ↔
        ∀ t, (machine F).LeadsWhere OwnerQuits s t → t.thread.owner = .callQuit →
          ∃ u, step t (.thread .quit) = some u)) := by
  refine ⟨fun owner seen => ?_, fun ahead => ⟨fun unasked t leads owner => ?_, fun alive => ?_⟩⟩
  · have awake : s.place ≠ .wait := by
      intro asleep
      cases (reachable_notMissed reach asleep).2.symm.trans seen
    have inner : EventLoopThread.step s.thread .returnLoop =
        some { s.thread with owner := .started } := if_pos ⟨owner, seen⟩
    exact ⟨_, step_thread (fun _ => awake) inner⟩
  · have ahead : Undestroyed t.thread := ⟨by rw [owner]; nofun, by rw [owner]; nofun⟩
    have reach' := reachable_thread (reach.trans leads.leads)
    have unfinished :=
      (reachable_alive reach').unfinished ahead (unasked_leads reach unasked leads ahead)
    exact quits_of_unfinished owner unfinished
  · cases asked : s.thread.quitRequested with
    | false => rfl
    | true =>
        obtain ⟨t, leads, owner, finished⟩ := leads_to_dangling reach ahead asked
        exact absurd (alive t leads owner) (not_quits_of_finished finished)

/-- The loop is published while the owner sleeps. -/
theorem loop_handed_over_asleep :
    let labels : List (Label Nat) := [.thread .startThread, .wait, .thread .construct,
      .thread .callbackReturn, .thread .publish]
    ∃ s, (machine Nat).run ⟨.new, .enter⟩ labels = some s ∧ s.place = .notified ∧
      (∃ t, step s (.thread .returnLoop) = some t) ∧
      ∀ t, (machine Nat).LeadsWhere OwnerQuits s t → t.thread.owner = .callQuit →
        ∃ u, step t (.thread .quit) = some u := by
  intro labels
  refine ⟨_, rfl, rfl, ?_⟩
  obtain ⟨returns, alive⟩ := loop_handed_over (F := Nat) (Machine.reachable_of_run labels rfl rfl)
  exact ⟨returns rfl rfl, (alive ⟨nofun, nofun⟩).mp rfl⟩

/-- A callback calls `quit()`, and the destructor comes too late. -/
example :
    ((machine Nat).run ⟨.new, .enter⟩ ([.startThread, .construct, .callbackReturn, .publish,
      .returnLoop, .callLoop, .loop .setLooping, .loop .resetQuit, .loop .whileQuit,
      .loop .pollReturn, .loop (.quit .loop), .loop .eventsHandled, .loop .swapFunctors,
      .loop .functorsDone, .loop .whileQuit, .loop .leave, .finish, .setExiting].map .thread)).map
      (fun s => (s.thread.owner, s.thread.worker)) = some (.callQuit, .finished) := rfl

end Handshake

end EventLoopThread

end Dbdky.Port
