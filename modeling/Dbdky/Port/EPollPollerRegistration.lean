import Dbdky.Port.EPollPoller

/-!
What `EPollPoller` knows of the channels: their index, `channels_` and the interest set.

* **`interest_iff`.** In every run with assertions off, the kernel watches exactly the channels
  whose index is `kAdded`, for their events.
* **`lookup_ne_channel`.** No entry of `channels_` ever points to a channel, so with assertions
  on no channel survives a second operation (`registered_aborts`).
* **`keeps_registration_iff`.** The three agree until the first operation, and no longer.
-/

namespace Dbdky.Port.EPollPoller

open Transition
open Poller (State Label Update)

/-- The channel has been updated, and not been removed since. -/
def Registered (c : Channel) : Prop := c.index = kAdded ∨ c.index = kDeleted

instance (c : Channel) : Decidable (Registered c) := inferInstanceAs (Decidable (_ ∨ _))

/-- Operations on channels; only a registered channel without events is removed. -/
def Legal (s : State EPollPoller) : Label → Prop
  | .update _ _ => True
  | .remove fd => Registered (s.channels fd) ∧ (s.channels fd).isNoneEvent
  | .poll _ => False

instance (s : State EPollPoller) : ∀ l, Decidable (Legal s l)
  | .update _ _ => isTrue trivial
  | .remove _ => inferInstanceAs (Decidable (_ ∧ _))
  | .poll _ => isFalse not_false

/-- The channel's index, `channels_` and the interest set agree. -/
structure Registration (s : State EPollPoller) : Prop where
  entry : ∀ fd, s.poller.channels.lookup fd = some (some fd) ↔ Registered (s.channels fd)
  no_entry : ∀ fd, (s.channels fd).index = kNew → s.poller.channels.lookup fd = none
  interest : ∀ fd events, s.poller.interest.lookup fd = some events ↔
    (Registered (s.channels fd) ∧ ¬ (s.channels fd).isNoneEvent) ∧ events = (s.channels fd).events

variable {debug : Bool} {fd : Fd} {s t : State EPollPoller}

/-! ### The interest set, with assertions off -/

/-- A channel is watched, for its events, if its index is `kAdded`; it has one of the three. -/
structure Mirrored (s : State EPollPoller) (fd : Fd) : Prop where
  index : (s.channels fd).index = kNew ∨ Registered (s.channels fd)
  added : (s.channels fd).index = kAdded →
    s.poller.interest.lookup fd = some (s.channels fd).events
  others : (s.channels fd).index ≠ kAdded → s.poller.interest.lookup fd = none

theorem Mirrored.of_added (index : (t.channels fd).index = kAdded)
    (watched : t.poller.interest.lookup fd = some (t.channels fd).events) : Mirrored t fd :=
  ⟨.inr (.inl index), fun _ => watched, fun other => absurd index other⟩

theorem Mirrored.of_not_added
    (index : (t.channels fd).index = kNew ∨ (t.channels fd).index = kDeleted)
    (unwatched : t.poller.interest.lookup fd = none) : Mirrored t fd := by
  refine ⟨index.imp_right .inr, fun added => ?_, fun _ => unwatched⟩
  rw [added] at index
  exact absurd index (by decide)

theorem Mirrored.added_iff (mirrored : Mirrored s fd) :
    (s.channels fd).index = kAdded ↔ s.poller.interest.lookup fd ≠ none := by
  constructor
  · intro added
    rw [mirrored.added added]
    exact Option.some_ne_none _
  · intro watched
    by_contra other
    exact watched (mirrored.others other)

theorem Mirrored.frame (mirrored : Mirrored s fd)
    (index : (t.channels fd).index = (s.channels fd).index)
    (events : (t.channels fd).events = (s.channels fd).events)
    (interest : t.poller.interest.lookup fd = s.poller.interest.lookup fd) : Mirrored t fd := by
  refine ⟨?_, ?_, ?_⟩
  · rw [Registered, index]
    exact mirrored.index
  · rw [index, events, interest]
    exact mirrored.added
  · rw [index, interest]
    exact mirrored.others

theorem setIndex_self (s : State EPollPoller) (fd : Fd) :
    s.setIndex fd (s.channels fd).index = s := by
  rw [State.setIndex, State.modify, Function.update_eq_self]

/-- An update leaves the channel watched for its events, or deleted and unwatched. -/
theorem updateChannel_cases (known : (s.channels fd).index = kNew ∨ Registered (s.channels fd))
    (added : (s.channels fd).index = kAdded ↔ s.poller.interest.lookup fd ≠ none) :
    ∃ u index watching, updateChannel false fd s = some u ∧
      u.channels = (s.setIndex fd index).channels ∧
      u.poller.interest.lookup = Function.update s.poller.interest.lookup fd watching ∧
      (index = kAdded ∧ watching = some (s.channels fd).events ∨
        index = kDeleted ∧ watching = none) := by
  by_cases index : (s.channels fd).index = kAdded
  · obtain ⟨events, watched⟩ := Option.ne_none_iff_exists'.mp (added.mp index)
    by_cases no_event : (s.channels fd).isNoneEvent
    · obtain ⟨u, ran, channels, interest⟩ := updateChannel_del index watched no_event
      exact ⟨u, kDeleted, none, ran, channels, interest, .inr ⟨rfl, rfl⟩⟩
    · obtain ⟨u, ran, channels, interest⟩ := updateChannel_mod index watched no_event
      refine ⟨u, kAdded, _, ran, ?_, interest, .inl ⟨rfl, rfl⟩⟩
      rw [channels, ← index, setIndex_self]
  · have unwatched := not_not.mp (mt added.mpr index)
    have elsewhere : (s.channels fd).index = kNew ∨ (s.channels fd).index = kDeleted := by
      rcases known with new | added | deleted
      · exact .inl new
      · exact absurd added index
      · exact .inr deleted
    obtain ⟨u, ran, channels, interest⟩ := updateChannel_add elsewhere unwatched
    exact ⟨u, kAdded, _, ran, channels, interest, .inl ⟨rfl, rfl⟩⟩

/-- Only the channel that is changed has to be looked at. -/
theorem mirrored_of_frame (mirrored : ∀ g, Mirrored s g) (here : Mirrored t fd)
    (channels : ∀ g ≠ fd, t.channels g = s.channels g) {watching : Option Mask}
    (interest : t.poller.interest.lookup = Function.update s.poller.interest.lookup fd watching) :
    ∀ g, Mirrored t g := by
  intro g
  rcases eq_or_ne g fd with rfl | other
  · exact here
  · have same := channels g other
    exact (mirrored g).frame (congrArg _ same) (congrArg _ same)
      ((congrFun interest g).trans (Function.update_of_ne other ..))

theorem change_mirrored {f : Mask → Mask} (mirrored : ∀ g, Mirrored s g)
    (ran : (poller false).change f fd s = some t) : ∀ g, Mirrored t g := by
  let u := s.setEvents fd (f (s.channels fd).events)
  have index : (u.channels fd).index = (s.channels fd).index := by rw [s.setEvents_self]
  have known : (u.channels fd).index = kNew ∨ Registered (u.channels fd) := by
    rw [Registered, index]
    exact (mirrored fd).index
  obtain ⟨v, index', watching, ran', channels, interest, outcome⟩ :=
    updateChannel_cases known (index ▸ (mirrored fd).added_iff)
  obtain rfl : t = v := Option.some.inj (ran.symm.trans ran')
  have at_fd : t.channels fd = { u.channels fd with index := index' } := by
    rw [channels, State.setIndex, State.modify_self]
  have watched : t.poller.interest.lookup fd = watching :=
    (congrFun interest fd).trans (Function.update_self ..)
  refine mirrored_of_frame mirrored ?_ ?_ interest
  · rcases outcome with ⟨rfl, rfl⟩ | ⟨rfl, rfl⟩
    · exact .of_added (by rw [at_fd]) (by rw [watched, at_fd])
    · exact .of_not_added (.inr (by rw [at_fd])) watched
  · intro g other
    rw [channels, State.setIndex, State.modify_of_ne _ other]
    exact s.modify_of_ne other _

theorem remove_mirrored (mirrored : ∀ g, Mirrored s g)
    (ran : (poller false).remove false fd s = some t) : ∀ g, Mirrored t g := by
  obtain ⟨u, ran', channels, interest⟩ := removeChannel_eq (mirrored fd).added_iff
  obtain rfl : t = u := Option.some.inj (ran.symm.trans ran')
  refine mirrored_of_frame mirrored (.of_not_added (.inl ?_) ?_) ?_ interest
  · rw [channels, State.setIndex, State.modify_self]
  · exact (congrFun interest fd).trans (Function.update_self ..)
  · intro g other
    rw [channels, State.setIndex, State.modify_of_ne _ other]

theorem reachable_mirrored (reach : (Poller.machine false (poller false)).Reachable s) :
    ∀ g, Mirrored s g := by
  refine reach.invariant (I := fun s => ∀ g, Mirrored s g) ?_ ?_
  · rintro s ⟨fresh, new⟩ g
    refine .of_not_added (.inl (fresh g).index) ?_
    rw [new]
    rfl
  · intro s l t mirrored step
    cases l with
    | update u fd =>
        simp only [Poller.machine, Poller.step, Update.run_eq] at step
        exact change_mirrored mirrored step
    | remove fd => exact remove_mirrored mirrored step
    | poll kernel =>
        obtain ⟨u, ran, channels, interest⟩ := poll_eq kernel s
        simp only [Poller.machine, Poller.step, poller, ran, Option.bind_eq_bind, Option.bind_some,
          Option.some.injEq] at step
        subst step
        intro g
        obtain ⟨revents, changed⟩ := State.report_channel (epollWait kernel s.poller) s g
        refine (mirrored g).frame ?_ ?_ (by rw [interest])
        · rw [channels, changed]
        · rw [channels, changed]

/-- **The kernel watches the channels whose index is `kAdded`**, with or without events. -/
theorem interest_iff (reach : (Poller.machine false (poller false)).Reachable s) (fd : Fd)
    (events : Mask) : s.poller.interest.lookup fd = some events ↔
      (s.channels fd).index = kAdded ∧ events = (s.channels fd).events := by
  have mirrored := reachable_mirrored reach fd
  by_cases index : (s.channels fd).index = kAdded
  · rw [mirrored.added index, Option.some.injEq, eq_comm, and_iff_right index]
  · rw [mirrored.others index]
    exact iff_of_false nofun fun added => index added.1

/-! ### The entries of `channels_` -/

/-- `channels_` has no other entries than null pointers. -/
def NoChannel (s : State EPollPoller) : Prop := ∀ fd g, s.poller.channels.lookup fd ≠ some (some g)

theorem NoChannel.of_channels (nulls : NoChannel s)
    (same : t.poller.channels = s.poller.channels) : NoChannel t := by
  rw [NoChannel, same]
  exact nulls

theorem update_channels {operation : Operation} (ran : update operation fd s = some t) :
    t.poller.channels = s.poller.channels := by
  unfold update at ran
  split at ran
  · rename_i poller _ controlled
    cases ran
    unfold epollCtl at controlled
    split at controlled <;> cases controlled <;> rfl
  · cases ran
    rfl
  · cases ran

theorem NoChannel.touch (nulls : NoChannel s) (fd : Fd) : NoChannel (touch fd s) := by
  intro g h entry
  unfold EPollPoller.touch at entry
  split at entry
  · rcases eq_or_ne g fd with rfl | other
    · cases (AList.lookup_insert _).symm.trans entry
    · exact nulls g h ((AList.lookup_insert_ne other).symm.trans entry)
  · exact nulls g h entry

theorem updateChannel_noChannel (nulls : NoChannel s) (ran : updateChannel debug fd s = some t) :
    NoChannel t := by
  simp only [updateChannel, Option.bind_eq_bind] at ran
  split at ran
  · split at ran
    · obtain ⟨_, -, ran⟩ := Option.bind_eq_some_iff.mp ran
      exact (nulls.touch fd).of_channels (update_channels (s := (touch fd s).setIndex fd _) ran)
    · obtain ⟨_, -, ran⟩ := Option.bind_eq_some_iff.mp ran
      obtain ⟨_, -, ran⟩ := Option.bind_eq_some_iff.mp ran
      exact nulls.of_channels (update_channels (s := s.setIndex fd _) ran)
  · obtain ⟨_, -, ran⟩ := Option.bind_eq_some_iff.mp ran
    obtain ⟨_, -, ran⟩ := Option.bind_eq_some_iff.mp ran
    obtain ⟨_, -, ran⟩ := Option.bind_eq_some_iff.mp ran
    split at ran
    · obtain ⟨u, deleted, same⟩ := Option.bind_eq_some_iff.mp ran
      cases same
      exact nulls.of_channels (t := u.setIndex fd _) (update_channels (t := u) deleted)
    · exact nulls.of_channels (update_channels ran)

theorem NoChannel.erase (nulls : NoChannel s) (fd g h : Fd) :
    (s.poller.channels.erase fd).lookup g ≠ some (some h) := by
  intro entry
  rcases eq_or_ne g fd with rfl | other
  · cases (AList.lookup_erase _ _).symm.trans entry
  · exact nulls g h ((AList.lookup_erase_ne other).symm.trans entry)

theorem removeChannel_noChannel (nulls : NoChannel s) (ran : removeChannel debug fd s = some t) :
    NoChannel t := by
  simp only [removeChannel, Option.bind_eq_bind] at ran
  obtain ⟨_, -, ran⟩ := Option.bind_eq_some_iff.mp ran
  obtain ⟨_, -, ran⟩ := Option.bind_eq_some_iff.mp ran
  obtain ⟨_, -, ran⟩ := Option.bind_eq_some_iff.mp ran
  obtain ⟨_, -, ran⟩ := Option.bind_eq_some_iff.mp ran
  split at ran
  · obtain ⟨u, erased, same⟩ := Option.bind_eq_some_iff.mp ran
    cases same
    intro g h
    change u.poller.channels.lookup g ≠ some (some h)
    rw [update_channels erased]
    exact nulls.erase fd g h
  · cases ran
    exact nulls.erase fd

theorem fillActiveChannels_poller {events : List (Fd × Mask)} {active : List Fd}
    (ran : fillActiveChannels debug events s = some (t, active)) : t.poller = s.poller := by
  induction events generalizing s active with
  | nil =>
      cases ran
      rfl
  | cons head events ih =>
      simp only [fillActiveChannels, Option.bind_eq_bind] at ran
      obtain ⟨_, -, ran⟩ := Option.bind_eq_some_iff.mp ran
      obtain ⟨⟨u, rest⟩, filled, ⟨⟩⟩ := Option.bind_eq_some_iff.mp ran
      exact ih (s := s.setRevents head.1 head.2) filled

theorem poll_noChannel {kernel : Kernel} {active : List Fd} (nulls : NoChannel s)
    (ran : poll debug kernel s = some (t, active)) : NoChannel t := by
  simp only [poll, Option.bind_eq_bind] at ran
  split at ran
  · obtain ⟨⟨u, filled⟩, fill, ran⟩ := Option.bind_eq_some_iff.mp ran
    have same := congrArg channels (fillActiveChannels_poller fill)
    split at ran <;> cases ran
    · exact nulls.of_channels same
    · exact nulls.of_channels same
  · cases ran
    exact nulls

theorem step_noChannel {l : Label} (nulls : NoChannel s)
    (step : (Poller.machine debug (poller debug)).step s l = some t) : NoChannel t := by
  cases l with
  | update u fd =>
      simp only [Poller.machine, Poller.step, Update.run_eq] at step
      exact updateChannel_noChannel (s := s.setEvents fd _) nulls step
  | remove fd =>
      obtain ⟨_, -, ran⟩ := Option.bind_eq_some_iff.mp step
      exact removeChannel_noChannel nulls ran
  | poll kernel =>
      obtain ⟨⟨u, active⟩, ran, ⟨⟩⟩ := Option.bind_eq_some_iff.mp step
      exact poll_noChannel nulls ran

/-- No entry of `channels_` ever points to a channel. -/
theorem lookup_ne_channel (reach : (Poller.machine debug (poller debug)).Reachable s) :
    NoChannel s := by
  refine reach.invariant ?_ fun s l t nulls step => step_noChannel nulls step
  rintro s ⟨-, new⟩ fd g entry
  rw [new] at entry
  cases entry

/-! ### Registration -/

theorem index_of_registered {c : Channel} (registered : Registered c) : c.index ≠ kNew := by
  rcases registered with added | deleted
  · rw [added]
    decide
  · rw [deleted]
    decide

theorem updateChannel_aborts (nulls : NoChannel s) (registered : Registered (s.channels fd)) :
    updateChannel true fd s = none := by
  refine Option.eq_none_iff_forall_ne_some.mpr fun t ran => ?_
  simp only [updateChannel, Option.bind_eq_bind, index_of_registered registered, false_or,
    if_false] at ran
  -- Either branch asserts that the entry points to the channel.
  split at ran
  · obtain ⟨_, -, ran⟩ := Option.bind_eq_some_iff.mp ran
    obtain ⟨_, passed, -⟩ := Option.bind_eq_some_iff.mp ran
    exact nulls fd fd (of_assertIf passed)
  · obtain ⟨_, -, ran⟩ := Option.bind_eq_some_iff.mp ran
    obtain ⟨_, passed, -⟩ := Option.bind_eq_some_iff.mp ran
    exact nulls fd fd (of_assertIf passed)

theorem removeChannel_aborts (nulls : NoChannel s) : removeChannel true fd s = none := by
  refine Option.eq_none_iff_forall_ne_some.mpr fun t ran => ?_
  obtain ⟨_, -, ran⟩ := Option.bind_eq_some_iff.mp ran
  obtain ⟨_, passed, -⟩ := Option.bind_eq_some_iff.mp ran
  exact nulls fd fd (of_assertIf passed)

/-- With assertions on, no operation on a registered channel gets past them. -/
theorem registered_aborts (reach : (Poller.machine true (poller true)).Reachable s)
    (registered : Registered (s.channels fd)) (u : Update) :
    u.run (poller true) fd s = none ∧ (poller true).remove true fd s = none := by
  have nulls := lookup_ne_channel reach
  constructor
  · rw [Update.run_eq]
    refine updateChannel_aborts (s := s.setEvents fd _) nulls ?_
    rw [Registered, s.setEvents_self]
    exact registered
  · refine Option.eq_none_iff_forall_ne_some.mpr fun t ran => ?_
    obtain ⟨_, -, ran⟩ := Option.bind_eq_some_iff.mp ran
    exact Option.some_ne_none t (ran.symm.trans (removeChannel_aborts nulls))

theorem update_same_channels {operation : Operation} (ran : update operation fd s = some t) :
    t.channels = s.channels := by
  unfold update at ran
  split at ran <;> cases ran <;> rfl

theorem init_registration (init : (Poller.machine debug (poller debug)).init s) :
    Registration s := by
  obtain ⟨fresh, new⟩ := init
  have unregistered : ∀ fd, ¬ Registered (s.channels fd) :=
    fun fd registered => index_of_registered registered (fresh fd).index
  constructor
  · intro fd
    rw [new]
    exact iff_of_false nofun (unregistered fd)
  · intro fd _
    rw [new]
    rfl
  · intro fd events
    rw [new]
    exact iff_of_false nofun fun watched => unregistered fd watched.1.1

/-- The first operation registers its channel. -/
theorem step_registers {l : Label} (init : (Poller.machine debug (poller debug)).init s)
    (legal : Legal s l) (step : (Poller.machine debug (poller debug)).step s l = some t) :
    ∃ fd, Registered (t.channels fd) := by
  obtain ⟨fresh, new⟩ := init
  cases l with
  | poll kernel => cases legal
  | remove fd => exact absurd (fresh fd).index (index_of_registered legal.1)
  | update u fd =>
      refine ⟨fd, .inl ?_⟩
      simp only [Poller.machine, Poller.step, Update.run_eq] at step
      have no_entry : s.poller.channels.lookup fd = none := by
        rw [new]
        rfl
      have index :
          ((s.setEvents fd (u.events (s.channels fd).events)).channels fd).index = kNew := by
        rw [s.setEvents_self]
        exact (fresh fd).index
      have ran := (updateChannel_eq_touch debug index no_entry).symm.trans step
      rw [update_same_channels ran, State.setIndex, State.modify_self]

theorem not_keeps_registration {l : Label} {ls : List Label}
    (init : (Poller.machine debug (poller debug)).init s) (legal : Legal s l) :
    ¬ (Poller.machine debug (poller debug)).Keeps Registration s (l :: ls) := by
  rintro ⟨-, t, step, rest⟩
  obtain ⟨fd, registered⟩ := step_registers init legal step
  have nulls := step_noChannel (lookup_ne_channel (.of_init init)) step
  exact nulls fd fd ((rest.start.entry fd).mpr registered)

/-- **Registration** holds before the first operation and breaks with it. -/
theorem keeps_registration_iff {ls : List Label}
    (init : (Poller.machine debug (poller debug)).init s)
    (lawful : (Poller.machine debug (poller debug)).Meets Legal s ls) :
    (Poller.machine debug (poller debug)).Keeps Registration s ls ↔ ls = [] := by
  cases ls with
  | nil => exact iff_of_true (init_registration init) rfl
  | cons l ls => exact iff_of_false (not_keeps_registration init lawful.1) (List.cons_ne_nil l ls)

theorem unused_init (debug : Bool) :
    (Poller.machine debug (poller debug)).init ⟨fun _ => .unused, new⟩ :=
  ⟨fun _ => Channel.unused_fresh, rfl⟩

theorem keeps_registration_iff_enabled :
    (Poller.machine true (poller true)).Keeps Registration ⟨fun _ => .unused, new⟩
      [.update .enableReading 3] ↔ [Label.update .enableReading 3] = [] :=
  keeps_registration_iff (unused_init true) (by decide)

/-- A channel is enabled and disabled: the second operation aborts. -/
theorem registration_breaks :
    ∃ s ls, (Poller.machine true (poller true)).init s ∧
      (Poller.machine true (poller true)).Meets Legal s ls ∧
      (Poller.machine true (poller true)).run s ls = none ∧
      ¬ (Poller.machine true (poller true)).Keeps Registration s ls := by
  exact ⟨⟨fun _ => .unused, new⟩, [.update .enableReading 3, .update .disableAll 3],
    unused_init true, by decide, rfl, not_keeps_registration (unused_init true) trivial⟩

end Dbdky.Port.EPollPoller
