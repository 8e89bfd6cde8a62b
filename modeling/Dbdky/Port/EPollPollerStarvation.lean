import Dbdky.Port.EPollPollerRegistration
import Dbdky.Transition.Tally

/-!
Ready channels that a poll of `EPollPoller` does not report.

`epoll_wait` reports as many channels as `events_` has room for, and which ones it leaves out is
up to the kernel. A poll that fills `events_` doubles it, and it is never made smaller.

* **`few_passed_over`.** While at most `n` channels are watched, a channel that is ready is passed
  over at most once for each doubling that leads from 16 beyond `n`, in a whole run.
-/

namespace Dbdky.Port.EPollPoller

open Transition Poller

variable {debug : Bool} {s t : State EPollPoller} {fd : Fd}

/-! ### The size of `events_` -/

theorem update_eventsSize {operation : Operation} (ran : update operation fd s = some t) :
    t.poller.eventsSize = s.poller.eventsSize := by
  unfold update at ran
  split at ran
  · rename_i changed
    cases ran
    unfold epollCtl at changed
    split at changed <;> cases changed <;> rfl
  · cases ran
    rfl
  · cases ran

theorem updateChannel_eventsSize (ran : updateChannel debug fd s = some t) :
    t.poller.eventsSize = s.poller.eventsSize := by
  simp only [updateChannel, Option.bind_eq_bind] at ran
  split at ran
  · split at ran
    · obtain ⟨_, -, ran⟩ := Option.bind_eq_some_iff.mp ran
      refine (update_eventsSize (s := (touch fd s).setIndex fd _) ran).trans ?_
      change (touch fd s).poller.eventsSize = _
      rw [touch]
      split <;> rfl
    · obtain ⟨_, -, ran⟩ := Option.bind_eq_some_iff.mp ran
      obtain ⟨_, -, ran⟩ := Option.bind_eq_some_iff.mp ran
      exact update_eventsSize (s := s.setIndex fd _) ran
  · obtain ⟨_, -, ran⟩ := Option.bind_eq_some_iff.mp ran
    obtain ⟨_, -, ran⟩ := Option.bind_eq_some_iff.mp ran
    obtain ⟨_, -, ran⟩ := Option.bind_eq_some_iff.mp ran
    split at ran
    · obtain ⟨u, deleted, ⟨⟩⟩ := Option.bind_eq_some_iff.mp ran
      exact (update_eventsSize deleted : u.poller.eventsSize = _)
    · exact update_eventsSize ran

theorem removeChannel_eventsSize (ran : removeChannel debug fd s = some t) :
    t.poller.eventsSize = s.poller.eventsSize := by
  simp only [removeChannel, Option.bind_eq_bind] at ran
  obtain ⟨_, -, ran⟩ := Option.bind_eq_some_iff.mp ran
  obtain ⟨_, -, ran⟩ := Option.bind_eq_some_iff.mp ran
  obtain ⟨_, -, ran⟩ := Option.bind_eq_some_iff.mp ran
  obtain ⟨_, -, ran⟩ := Option.bind_eq_some_iff.mp ran
  split at ran
  · obtain ⟨u, erased, ⟨⟩⟩ := Option.bind_eq_some_iff.mp ran
    exact (update_eventsSize erased : u.poller.eventsSize = _)
  · cases ran
    rfl

/-- A poll that fills `events_` doubles it. -/
theorem poll_eventsSize {kernel : Kernel} {active : List Fd}
    (ran : poll debug kernel s = some (t, active)) :
    t.poller.eventsSize =
      if (epollWait kernel s.poller).length = s.poller.eventsSize then 2 * s.poller.eventsSize
      else s.poller.eventsSize := by
  simp only [poll, Option.bind_eq_bind] at ran
  split at ran
  · obtain ⟨⟨u, filled⟩, fill, ran⟩ := Option.bind_eq_some_iff.mp ran
    have same := congrArg eventsSize (fillActiveChannels_poller fill)
    split at ran
    · rename_i full
      cases ran
      rw [if_pos (full.trans same)]
      exact (congrArg (· * 2) same).trans (Nat.mul_comm _ 2)
    · rename_i room
      cases ran
      rw [if_neg (same ▸ room), same]
  · cases ran
    split <;> omega

/-- `events_` never becomes smaller. -/
theorem step_eventsSize {l : Label} (step : (machine debug (poller debug)).step s l = some t) :
    s.poller.eventsSize ≤ t.poller.eventsSize := by
  cases l with
  | update u fd =>
      simp only [machine, Poller.step, Update.run_eq] at step
      exact Nat.le_of_eq (updateChannel_eventsSize (s := s.setEvents fd _) step).symm
  | remove fd =>
      obtain ⟨_, -, ran⟩ := Option.bind_eq_some_iff.mp step
      exact Nat.le_of_eq (removeChannel_eventsSize ran).symm
  | poll kernel =>
      obtain ⟨⟨u, active⟩, ran, ⟨⟩⟩ := Option.bind_eq_some_iff.mp step
      rw [poll_eventsSize ran]
      split <;> omega

theorem reachable_eventsSize (reach : (machine debug (poller debug)).Reachable s) :
    kInitEventListSize ≤ s.poller.eventsSize := by
  refine reach.invariant (I := fun s => kInitEventListSize ≤ s.poller.eventsSize) ?_ ?_
  · rintro s ⟨-, initial⟩
    rw [initial]
    exact Nat.le_refl _
  · intro s l t inv step
    exact Nat.le_trans inv (step_eventsSize step)

/-! ### Ready channels -/

/-- A poll in which the channel is ready and is not reported. -/
def PassesOver (fd : Fd) (s : State EPollPoller) : Label → Prop
  | .poll kernel =>
      fd ∈ ready kernel s.poller ∧ fd ∉ (epollWait kernel s.poller).map Prod.fst
  | _ => False

instance (fd : Fd) (s : State EPollPoller) (l : Label) : Decidable (PassesOver fd s l) :=
  l.casesOn (fun _ _ => instDecidableFalse) (fun _ => instDecidableFalse)
    fun _ => inferInstanceAs (Decidable (_ ∧ _))

/-- At most `n` channels are watched. -/
def Watches (n : Nat) (s : State EPollPoller) (_ : Label) : Prop :=
  s.poller.interest.keys.length ≤ n

instance (n : Nat) (s : State EPollPoller) (l : Label) : Decidable (Watches n s l) :=
  inferInstanceAs (Decidable (_ ≤ _))

theorem epollWait_fds (kernel : Kernel) (p : EPollPoller) :
    (epollWait kernel p).map Prod.fst = (kernel.order (ready kernel p)).take p.eventsSize := by
  rw [epollWait, List.map_map]
  exact List.map_id _

/-- With room for all the ready channels, they are all reported. -/
theorem epollWait_complete {kernel : Kernel} {p : EPollPoller}
    (room : (ready kernel p).length ≤ p.eventsSize) :
    ((epollWait kernel p).map Prod.fst).Perm (ready kernel p) := by
  have length := (kernel.permutes (ready kernel p)).length_eq
  rw [epollWait_fds, List.take_of_length_le (length ▸ room)]
  exact kernel.permutes _

/-- A channel is passed over only if `events_` is full. -/
theorem PassesOver.full {kernel : Kernel} (passes : PassesOver fd s (.poll kernel)) :
    s.poller.eventsSize < s.poller.interest.keys.length ∧
      (epollWait kernel s.poller).length = s.poller.eventsSize := by
  obtain ⟨is_ready, unreported⟩ := passes
  have many : s.poller.eventsSize < (ready kernel s.poller).length := by
    by_contra room
    exact unreported ((epollWait_complete (Nat.not_lt.mp room)).mem_iff.mpr is_ready)
  constructor
  · exact Nat.lt_of_lt_of_le many (List.length_filter_le _ _)
  · have length := (kernel.permutes (ready kernel s.poller)).length_eq
    rw [epollWait, List.length_map, List.length_take, length]
    exact Nat.min_eq_left (Nat.le_of_lt many)

/-- **No starvation.** -/
theorem few_passed_over {n : Nat} {ls : List Label}
    (reach : (machine debug (poller debug)).Reachable s)
    (watches : (machine debug (poller debug)).Meets (Watches n) s ls) (fd : Fd) :
    (machine debug (poller debug)).tally (PassesOver fd) s ls = 0 ∨
      kInitEventListSize * 2 ^ (machine debug (poller debug)).tally (PassesOver fd) s ls <
        2 * n := by
  have few : (machine debug (poller debug)).tally (PassesOver fd) s ls = 0 ∨ _ :=
    Machine.tally_of_doubling (fun s => s.poller.eventsSize) n ?_ ?_ watches
  · refine few.imp_right fun less => Nat.lt_of_le_of_lt ?_ less
    exact Nat.mul_le_mul_right _ (reachable_eventsSize reach)
  · intro s l t step
    exact step_eventsSize step
  · intro s l t watches passes step
    cases l with
    | update u fd => cases passes
    | remove fd => cases passes
    | poll kernel =>
        obtain ⟨many, full⟩ := passes.full
        obtain ⟨⟨u, active⟩, ran, ⟨⟩⟩ := Option.bind_eq_some_iff.mp step
        refine ⟨Nat.lt_of_lt_of_le many watches, ?_⟩
        rw [poll_eventsSize ran, if_pos full]

/-- Channels 0 to 16 are enabled and polled twice, with all of them ready. -/
def seventeenReady : List Label :=
  (List.range 17).map (.update .enableReading ·) ++ List.replicate 2 (.poll allReadable)
where
  allReadable : Kernel := ⟨fun _ => Channel.kReadEvent, id, fun _ => .refl _⟩

/-- The first poll reports 16 channels, the second one all of them. -/
theorem few_passed_over_seventeen :
    (machine false (poller false)).tally (PassesOver 0) ⟨fun _ => .unused, new⟩ seventeenReady = 1 ∧
      kInitEventListSize * 2 ^ 1 < 2 * 17 := by
  have once : (machine false (poller false)).tally (PassesOver 0) ⟨fun _ => .unused, new⟩
      seventeenReady = 1 := by decide
  have watches : (machine false (poller false)).Meets (Watches 17) ⟨fun _ => .unused, new⟩
      seventeenReady := by decide
  have few := few_passed_over (.of_init (unused_init false)) watches 0
  rw [once] at few
  exact ⟨once, few.resolve_left (by decide)⟩

end Dbdky.Port.EPollPoller
