import Mathlib.Data.List.AList
import Dbdky.Port.Poller

/-!
`EPollPoller` (`src/port/EPollPoller.{h,cpp}`), with the interest set the kernel keeps
behind `epollfd_`.

The entry that `updateChannel` means to make in `channels_` is written with `==`, so what
it does is insert a null pointer.

With assertions off `channels_` is not read, and an operation changes the interest set at
one fd: `updateChannel_add`, `updateChannel_mod`, `updateChannel_del`,
`removeChannel_eq`. A poll changes neither the interest set nor what a channel is watched
for (`poll_eq`).
-/

namespace Dbdky.Port

/-- The kernel's interest set is part of the state. The channel pointer in its `data` is
the fd it is filed under. -/
structure EPollPoller where
  /-- `events_.size()` -/
  eventsSize : Nat
  /-- `channels_`; `none` is the null pointer. -/
  channels : AList fun _ : Fd => Option Fd
  interest : AList fun _ : Fd => Mask

namespace EPollPoller

open Poller (State)

def kNew : Int := -1
def kAdded : Int := 1
def kDeleted : Int := 2

def kInitEventListSize : Nat := 16

def new : EPollPoller := ⟨kInitEventListSize, ∅, ∅⟩

inductive Operation where
  | EPOLL_CTL_ADD
  | EPOLL_CTL_MOD
  | EPOLL_CTL_DEL

/-- `::epoll_ctl`, which fails if the fd is there already (`ADD`) or is not (`MOD`, `DEL`) -/
def epollCtl (operation : Operation) (fd : Fd) (events : Mask) (p : EPollPoller) :
    Option EPollPoller :=
  match operation, p.interest.lookup fd with
  | .EPOLL_CTL_ADD, none => some { p with interest := p.interest.insert fd events }
  | .EPOLL_CTL_MOD, some _ => some { p with interest := p.interest.insert fd events }
  | .EPOLL_CTL_DEL, some _ => some { p with interest := p.interest.erase fd }
  | _, _ => none

def update (operation : Operation) (fd : Fd) (s : State EPollPoller) :
    Option (State EPollPoller) :=
  match epollCtl operation fd (s.channels fd).events s.poller, operation with
  | some poller, _ => some { s with poller }
  -- LOG_SYSERR
  | none, .EPOLL_CTL_DEL => some s
  -- LOG_SYSFATAL
  | none, _ => none

/-- `channels_[fd]` as an expression: a missing entry is made, with a null pointer. -/
def touch (fd : Fd) (s : State EPollPoller) : State EPollPoller :=
  if s.poller.channels.lookup fd = none then
    { s with poller := { s.poller with channels := s.poller.channels.insert fd none } }
  else s

def updateChannel (debug : Bool) (fd : Fd) (s : State EPollPoller) :
    Option (State EPollPoller) := do
  let index := (s.channels fd).index
  if index = kNew ∨ index = kDeleted then
    let s ←
      if index = kNew then do
        assertIf debug (s.poller.channels.lookup fd = none)
        -- channels_[fd] == channel;
        some (touch fd s)
      else do
        assertIf debug (s.poller.channels.lookup fd ≠ none)
        assertIf debug (s.poller.channels.lookup fd = some (some fd))
        some s
    update .EPOLL_CTL_ADD fd (s.setIndex fd kAdded)
  else
    assertIf debug (s.poller.channels.lookup fd ≠ none)
    assertIf debug (s.poller.channels.lookup fd = some (some fd))
    assertIf debug (index = kAdded)
    if (s.channels fd).isNoneEvent then
      let s ← update .EPOLL_CTL_DEL fd s
      some (s.setIndex fd kDeleted)
    else
      update .EPOLL_CTL_MOD fd s

def removeChannel (debug : Bool) (fd : Fd) (s : State EPollPoller) :
    Option (State EPollPoller) := do
  assertIf debug (s.poller.channels.lookup fd ≠ none)
  assertIf debug (s.poller.channels.lookup fd = some (some fd))
  assertIf debug (s.channels fd).isNoneEvent
  let index := (s.channels fd).index
  assertIf debug (index = kAdded ∨ index = kDeleted)
  let s := { s with poller := { s.poller with channels := s.poller.channels.erase fd } }
  let s ← if index = kAdded then update .EPOLL_CTL_DEL fd s else some s
  some (s.setIndex fd kNew)

/-- What the kernel has to report on an fd: nothing if it is not watched. -/
def reportOf (kernel : Kernel) (p : EPollPoller) (fd : Fd) : Mask :=
  match p.interest.lookup fd with
  | some events => events.report (kernel.conditions fd)
  | none => 0

/-- The fds the kernel has something to report on. -/
def ready (kernel : Kernel) (p : EPollPoller) : List Fd :=
  p.interest.keys.filter fun fd => reportOf kernel p fd ≠ 0

/-- `::epoll_wait`: the first `numEvents` entries of `events_` -/
def epollWait (kernel : Kernel) (p : EPollPoller) : List (Fd × Mask) :=
  ((kernel.order (ready kernel p)).take p.eventsSize).map fun fd => (fd, reportOf kernel p fd)

def fillActiveChannels (debug : Bool) :
    List (Fd × Mask) → State EPollPoller → Option (State EPollPoller × List Fd)
  | [], s => some (s, [])
  | (fd, revents) :: events, s => do
      assertIf debug (s.poller.channels.lookup fd ≠ none)
      let (s, activeChannels) ← fillActiveChannels debug events (s.setRevents fd revents)
      some (s, fd :: activeChannels)

def poll (debug : Bool) (kernel : Kernel) (s : State EPollPoller) :
    Option (State EPollPoller × List Fd) := do
  let events := epollWait kernel s.poller
  if events.length > 0 then
    let (s, activeChannels) ← fillActiveChannels debug events s
    if events.length = s.poller.eventsSize then
      some ({ s with poller := { s.poller with eventsSize := s.poller.eventsSize * 2 } },
        activeChannels)
    else some (s, activeChannels)
  else some (s, [])

/-- `EPollPoller` behind the interface. -/
def poller (debug : Bool) : Poller EPollPoller where
  new := new
  poll := poll debug
  updateChannel := updateChannel debug
  removeChannel := removeChannel debug
  watches p fd events := p.interest.lookup fd = some events
  knows p fd := (p.interest.lookup fd).isSome

/-! ### The operations, with assertions off -/

theorem lookup_insert (l : AList fun _ : Fd => Mask) (fd : Fd) (events : Mask) :
    (l.insert fd events).lookup = Function.update l.lookup fd (some events) := by
  funext g
  by_cases same : g = fd
  · rw [same, AList.lookup_insert, Function.update_self]
  · rw [AList.lookup_insert_ne same, Function.update_of_ne same]

theorem lookup_erase (l : AList fun _ : Fd => Mask) (fd : Fd) :
    (l.erase fd).lookup = Function.update l.lookup fd none := by
  funext g
  by_cases same : g = fd
  · rw [same, AList.lookup_erase, Function.update_self]
  · rw [AList.lookup_erase_ne same, Function.update_of_ne same]

section Operations

variable {fd : Fd} {s : State EPollPoller}

theorem touch_channels (fd : Fd) (s : State EPollPoller) : (touch fd s).channels = s.channels := by
  rw [touch]
  split <;> rfl

theorem touch_interest (fd : Fd) (s : State EPollPoller) :
    (touch fd s).poller.interest = s.poller.interest := by
  rw [touch]
  split <;> rfl

theorem touch_entry {fd g : Fd} {s : State EPollPoller}
    (entry : (touch fd s).poller.channels.lookup g ≠ none) :
    g = fd ∨ s.poller.channels.lookup g ≠ none := by
  rw [touch] at entry
  split at entry
  · exact (eq_or_ne g fd).imp_right fun other =>
      (AList.lookup_insert_ne other).symm.trans_ne entry
  · exact .inr entry

theorem update_add (unwatched : s.poller.interest.lookup fd = none) :
    update .EPOLL_CTL_ADD fd s = some { s with
      poller := { s.poller with
        interest := s.poller.interest.insert fd (s.channels fd).events } } := by
  simp only [update, epollCtl, unwatched]

theorem update_mod {events : Mask} (watched : s.poller.interest.lookup fd = some events) :
    update .EPOLL_CTL_MOD fd s = some { s with
      poller := { s.poller with
        interest := s.poller.interest.insert fd (s.channels fd).events } } := by
  simp only [update, epollCtl, watched]

theorem update_del {events : Mask} (watched : s.poller.interest.lookup fd = some events) :
    update .EPOLL_CTL_DEL fd s = some { s with
      poller := { s.poller with interest := s.poller.interest.erase fd } } := by
  simp only [update, epollCtl, watched]

theorem updateChannel_eq_touch (debug : Bool) (index : (s.channels fd).index = kNew)
    (no_entry : s.poller.channels.lookup fd = none) :
    updateChannel debug fd s = update .EPOLL_CTL_ADD fd ((touch fd s).setIndex fd kAdded) := by
  simp only [updateChannel, index, true_or, if_true, assertIf_of debug no_entry,
    Option.bind_eq_bind, Option.bind_some]

/-- A channel that is not watched is added, with or without events. -/
theorem updateChannel_add
    (index : (s.channels fd).index = kNew ∨ (s.channels fd).index = kDeleted)
    (unwatched : s.poller.interest.lookup fd = none) :
    ∃ t, updateChannel false fd s = some t ∧ t.channels = (s.setIndex fd kAdded).channels ∧
      t.poller.interest.lookup =
        Function.update s.poller.interest.lookup fd (some (s.channels fd).events) := by
  have added : ∀ u : State EPollPoller, u.channels = s.channels →
      u.poller.interest = s.poller.interest →
      ∃ t, update .EPOLL_CTL_ADD fd (u.setIndex fd kAdded) = some t ∧
        t.channels = (s.setIndex fd kAdded).channels ∧
        t.poller.interest.lookup =
          Function.update s.poller.interest.lookup fd (some (s.channels fd).events) := by
    intro u channels interest
    rw [← interest] at unwatched
    refine ⟨_, update_add (s := u.setIndex fd kAdded) unwatched, ?_, ?_⟩
    · simp only [State.setIndex, State.modify, channels]
    · simp only [State.setIndex, State.modify_self, State.modify_poller, interest, channels,
        lookup_insert]
  simp only [updateChannel, index, if_true, assertIf_false, Option.bind_eq_bind, Option.bind_some]
  split
  · exact added (touch fd s) (touch_channels fd s) (touch_interest fd s)
  · exact added s rfl rfl

/-- A watched channel that has events is watched for them. -/
theorem updateChannel_mod {events : Mask} (index : (s.channels fd).index = kAdded)
    (watched : s.poller.interest.lookup fd = some events)
    (some_event : ¬ (s.channels fd).isNoneEvent) :
    ∃ t, updateChannel false fd s = some t ∧ t.channels = s.channels ∧
      t.poller.interest.lookup =
        Function.update s.poller.interest.lookup fd (some (s.channels fd).events) := by
  have not_added : ¬ (kAdded = kNew ∨ kAdded = kDeleted) := by decide
  have modified : updateChannel false fd s = update .EPOLL_CTL_MOD fd s := by
    simp only [updateChannel, index, not_added, if_false, assertIf_false, Option.bind_eq_bind,
      Option.bind_some, some_event]
  exact ⟨_, modified.trans (update_mod watched), rfl, lookup_insert _ _ _⟩

/-- A watched channel that has no events is no longer watched. -/
theorem updateChannel_del {events : Mask} (index : (s.channels fd).index = kAdded)
    (watched : s.poller.interest.lookup fd = some events) (no_event : (s.channels fd).isNoneEvent) :
    ∃ t, updateChannel false fd s = some t ∧ t.channels = (s.setIndex fd kDeleted).channels ∧
      t.poller.interest.lookup = Function.update s.poller.interest.lookup fd none := by
  have not_added : ¬ (kAdded = kNew ∨ kAdded = kDeleted) := by decide
  simp only [updateChannel, index, not_added, if_false, assertIf_false, Option.bind_eq_bind,
    Option.bind_some, no_event, if_true, update_del watched]
  exact ⟨_, rfl, rfl, lookup_erase _ _⟩

/-- A removed channel is not watched. -/
theorem removeChannel_eq
    (added : (s.channels fd).index = kAdded ↔ s.poller.interest.lookup fd ≠ none) :
    ∃ t, removeChannel false fd s = some t ∧ t.channels = (s.setIndex fd kNew).channels ∧
      t.poller.interest.lookup = Function.update s.poller.interest.lookup fd none := by
  simp only [removeChannel, assertIf_false, Option.bind_eq_bind, Option.bind_some]
  split
  · rename_i index
    obtain ⟨events, watched⟩ := Option.ne_none_iff_exists'.mp (added.mp index)
    rw [update_del (by exact watched)]
    exact ⟨_, rfl, rfl, lookup_erase _ _⟩
  · rename_i index
    have unwatched := not_not.mp fun watched => index (added.mpr watched)
    refine ⟨_, rfl, rfl, ?_⟩
    exact (Function.update_eq_self_iff.mpr unwatched.symm).symm

theorem fillActiveChannels_eq (events : List (Fd × Mask)) (s : State EPollPoller) :
    fillActiveChannels false events s = some (s.report events, events.map Prod.fst) := by
  induction events generalizing s with
  | nil => rfl
  | cons head events ih =>
      simp only [fillActiveChannels, assertIf_false, Option.bind_eq_bind, Option.bind_some, ih]
      rfl

/-- A poll sets `revents_` of the channels it reports, and nothing else but the size of
`events_`. -/
theorem poll_eq (kernel : Kernel) (s : State EPollPoller) :
    ∃ t, poll false kernel s = some (t, (epollWait kernel s.poller).map Prod.fst) ∧
      t.channels = (s.report (epollWait kernel s.poller)).channels ∧
      t.poller.interest = s.poller.interest := by
  simp only [poll, fillActiveChannels_eq, Option.bind_eq_bind, Option.bind_some]
  split
  · have unchanged := congrArg interest (State.report_poller (epollWait kernel s.poller) s)
    split
    · exact ⟨_, rfl, rfl, unchanged⟩
    · exact ⟨_, rfl, rfl, unchanged⟩
  · rename_i nothing
    obtain empty : epollWait kernel s.poller = [] := by
      rw [← List.length_eq_zero_iff]
      omega
    rw [empty]
    exact ⟨_, rfl, rfl, rfl⟩

end Operations

/-- A new channel is enabled without trouble, with or without assertions. -/
theorem registers (debug : Bool) : (poller debug).Registers fun p =>
    ∀ fd, p.channels.lookup fd ≠ none → p.interest.lookup fd ≠ none where
  new _ entry := absurd rfl entry
  unknown _ := rfl
  enableReading {s fd} inv fresh unknown := by
    have unwatched : s.poller.interest.lookup fd = none := by
      simpa [poller] using unknown
    have no_entry : s.poller.channels.lookup fd = none := by
      by_contra entry
      exact inv fd entry unwatched
    let u : State EPollPoller := s.setEvents fd ((s.channels fd).events ||| Channel.kReadEvent)
    have index : (u.channels fd).index = kNew :=
      (congrArg Channel.index (s.setEvents_self fd _)).trans fresh.index
    have enabled : (poller debug).enableReading fd s =
        update .EPOLL_CTL_ADD fd ((touch fd u).setIndex fd kAdded) :=
      updateChannel_eq_touch debug index no_entry
    have interest : ((touch fd u).setIndex fd kAdded).poller.interest = s.poller.interest :=
      touch_interest fd u
    have watched : ∀ g events, ((((touch fd u).setIndex fd kAdded).poller.interest.insert fd
        events).lookup g).isSome = true ↔ (s.poller.interest.lookup g).isSome = true ∨ g = fd := by
      intro g events
      rw [interest]
      rcases eq_or_ne g fd with rfl | other
      · simp
      · rw [AList.lookup_insert_ne other, or_iff_left other]
    refine ⟨_, enabled.trans (update_add (interest ▸ unwatched)), fun g entry => ?_,
      fun g => watched g _, fun g other => ?_⟩
    · refine Option.isSome_iff_ne_none.mp ((watched g _).mpr ?_)
      rcases touch_entry entry with same | old
      · exact .inr same
      · exact .inl (Option.isSome_iff_ne_none.mpr (inv g old))
    · simp only [u, State.setIndex, State.modify_of_ne _ other, touch_channels, State.setEvents]

end EPollPoller

end Dbdky.Port
