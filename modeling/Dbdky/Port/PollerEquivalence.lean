import Dbdky.Port.EPollPoller
import Dbdky.Port.PollPoller

/-!
The two pollers on the same operations.

Both are run with assertions off. The relation between their states (`Agree`) says of each
channel in which of three ways it is known to both pollers (`Linked`). It is kept by every
poll, and by the operations that `Regular` admits. What `Regular` leaves out is what goes
wrong in `PollPoller`: a slot that is muted stays muted, the index of a removed channel is
not reset, and a slot without events is skipped although the kernel watches it.

* **`pollers_agree`.** After any regular run both pollers make the kernel watch the same,
  and the next poll leads to the same callbacks, unless more fds are ready than
  `EPollPoller` has room for.
-/

namespace Dbdky.Port.PollerEquivalence

open Transition
open Poller (State Label Update)
open PollPoller (slot slotOf muted owner setEvents_inv)
open EPollPoller (kNew kAdded kDeleted)

/-- `EPollPoller`, with assertions off. -/
abbrev epoll : Poller EPollPoller := EPollPoller.poller false

/-- `PollPoller`, with assertions off. -/
abbrev poll : Poller PollPoller := PollPoller.poller false

variable {e e' : State EPollPoller} {p p' : State PollPoller} {fd : Fd}

/-! ### What is claimed to be the same -/

def SameWatches (e : State EPollPoller) (p : State PollPoller) : Prop :=
  ∀ fd events, epoll.watches e.poller fd events ↔ poll.watches p.poller fd events

/-- The next poll leads to the same callbacks, up to their order. -/
def SameCallbacks (kernel : Kernel) (e : State EPollPoller) (p : State PollPoller) : Prop :=
  ∃ cs ds, epoll.callbacks kernel e = some cs ∧ poll.callbacks kernel p = some ds ∧ cs.Perm ds

/-- `events_` has room for every fd that is ready. -/
def Fits (kernel : Kernel) (e : State EPollPoller) : Prop :=
  (EPollPoller.ready kernel e.poller).length ≤ e.poller.eventsSize

/-- The operations on which the pollers agree, by the state of `PollPoller`. A channel is
updated for the first time, and is given events or is silent; or it is updated while its
slot bears its fd. It is removed while it is registered and has no events. -/
def Regular (p : State PollPoller) : Label → Prop
  | .update u fd =>
      if (p.channels fd).index < 0 then
        u.events (p.channels fd).events ≠ 0 ∨ (p.channels fd).Silent
      else
        (p.poller.pollfds[(p.channels fd).index.toNat]?).map PollFd.fd = some (fd : Int)
  | .remove fd => p.poller.channels.lookup (fd : Int) ≠ none ∧ (p.channels fd).isNoneEvent
  | .poll _ => True

instance (p : State PollPoller) (l : Label) : Decidable (Regular p l) := by
  cases l <;> unfold Regular <;> infer_instance

/-- The operations in question: a channel is removed only when it has no events. -/
def Allowed (p : State PollPoller) : Label → Prop
  | .remove fd => (p.channels fd).isNoneEvent
  | _ => True

instance (p : State PollPoller) (l : Label) : Decidable (Allowed p l) := by
  cases l <;> unfold Allowed <;> infer_instance

/-! ### The relation -/

/-- How a channel is known to both pollers. -/
inductive Linked (e : State EPollPoller) (p : State PollPoller) (fd : Fd) : Prop
  | unregistered (index : (e.channels fd).index = kNew)
      (interest : e.poller.interest.lookup fd = none) (slot : slot p fd = none)
      (events : (p.channels fd).events = 0)
  | watched (revents : Mask) (index : (e.channels fd).index = kAdded)
      (interest : e.poller.interest.lookup fd = some (p.channels fd).events)
      (slot : slot p fd = some ⟨fd, (p.channels fd).events, revents⟩)
      (silent : (p.channels fd).events = 0 → (p.channels fd).Silent)
  | muted (revents : Mask) (index : (e.channels fd).index = kDeleted)
      (interest : e.poller.interest.lookup fd = none)
      (slot : slot p fd = some ⟨muted fd, 0, revents⟩)
      (events : (p.channels fd).events = 0)

structure Agree (e : State EPollPoller) (p : State PollPoller) : Prop where
  alike : ∀ fd, (e.channels fd).Alike (p.channels fd)
  /-- No other bits than those of the three events are ever enabled. -/
  small : ∀ fd, (p.channels fd).events.toNat < 8
  inv : PollPoller.Inv p
  linked : ∀ fd, Linked e p fd

theorem Linked.frame (linked : Linked e p fd) (channel : e'.channels fd = e.channels fd)
    (interest : e'.poller.interest.lookup fd = e.poller.interest.lookup fd)
    (alike : (p'.channels fd).Alike (p.channels fd)) (same_slot : slot p' fd = slot p fd) :
    Linked e' p' fd := by
  cases linked with
  | unregistered index unwatched no_slot no_event =>
      exact .unregistered (channel ▸ index) (interest.trans unwatched) (same_slot.trans no_slot)
        (alike.events.trans no_event)
  | watched revents index watching at_slot silent =>
      refine .watched revents (channel ▸ index) ?_ ?_ ?_
      · rw [interest, watching, alike.events]
      · rw [same_slot, at_slot, alike.events]
      · intro no_event
        exact alike.symm.silent (silent (alike.events.symm.trans no_event))
  | muted revents index unwatched at_slot no_event =>
      exact .muted revents (channel ▸ index) (interest.trans unwatched) (same_slot.trans at_slot)
        (alike.events.trans no_event)

/-- A change at one channel only has to be looked at there. -/
theorem Agree.change (agree : Agree e p) (fd : Fd) (inv : PollPoller.Inv p')
    (alike : (e'.channels fd).Alike (p'.channels fd)) (small : (p'.channels fd).events.toNat < 8)
    (linked : Linked e' p' fd)
    (epoll_frame : ∀ g ≠ fd, e'.channels g = e.channels g ∧
      e'.poller.interest.lookup g = e.poller.interest.lookup g)
    (poll_frame : ∀ g ≠ fd, (p'.channels g).Alike (p.channels g) ∧ slot p' g = slot p g) :
    Agree e' p' := by
  have others : ∀ g ≠ fd, (e'.channels g).Alike (p'.channels g) ∧
      (p'.channels g).events.toNat < 8 ∧ Linked e' p' g := by
    intro g other
    obtain ⟨channel, interest⟩ := epoll_frame g other
    obtain ⟨alike', same_slot⟩ := poll_frame g other
    refine ⟨?_, ?_, (agree.linked g).frame channel interest alike' same_slot⟩
    · rw [channel]
      exact (agree.alike g).trans alike'.symm
    · rw [alike'.events]
      exact agree.small g
  refine ⟨fun g => ?_, fun g => ?_, inv, fun g => ?_⟩
  · rcases eq_or_ne g fd with rfl | other
    · exact alike
    · exact (others g other).1
  · rcases eq_or_ne g fd with rfl | other
    · exact small
    · exact (others g other).2.1
  · rcases eq_or_ne g fd with rfl | other
    · exact linked
    · exact (others g other).2.2

/-! ### The operations -/

theorem events_small (u : Update) {events : Mask} (small : events.toNat < 8) :
    (u.events events).toNat < 8 := by
  cases u with
  | enableReading | enableWriting =>
      rw [Update.events, BitVec.toNat_or]
      exact Nat.or_lt_two_pow (n := 3) small (by decide)
  | disableWriting =>
      rw [Update.events, BitVec.toNat_and]
      exact lt_of_le_of_lt Nat.and_le_left small
  | disableAll =>
      change Channel.kNoneEvent.toNat < 8
      decide

/-- A channel that has never been updated is unknown to both pollers. -/
theorem Agree.fresh (agree : Agree e p) (index : (p.channels fd).index < 0) :
    (e.channels fd).index = kNew ∧ e.poller.interest.lookup fd = none := by
  have no_slot : slot p fd = none := by
    by_contra some_slot
    obtain ⟨pfd, found⟩ := Option.ne_none_iff_exists'.mp some_slot
    obtain ⟨i, at_i, -⟩ := Option.bind_eq_some_iff.mp found
    have := (agree.inv.slotOf_index at_i).2
    omega
  cases agree.linked fd with
  | unregistered index unwatched _ _ => exact ⟨index, unwatched⟩
  | watched revents _ _ at_slot _ => cases no_slot.symm.trans at_slot
  | muted revents _ _ at_slot _ => cases no_slot.symm.trans at_slot

/-- A channel whose slot bears its fd is watched in both. -/
theorem Agree.bears_fd (agree : Agree e p)
    (bears : (p.poller.pollfds[(p.channels fd).index.toNat]?).map PollFd.fd = some (fd : Int)) :
    (e.channels fd).index = kAdded ∧
      e.poller.interest.lookup fd = some (p.channels fd).events ∧
      ∃ revents, slot p fd = some ⟨fd, (p.channels fd).events, revents⟩ := by
  obtain ⟨pfd, in_place, fd_eq⟩ := Option.map_eq_some_iff.mp bears
  have found : slot p fd = some pfd := by
    have mem := List.mem_of_getElem? in_place
    rw [← PollPoller.owner_of_fd fd_eq]
    exact agree.inv.indexed.mem_iff_content.mp mem
  cases agree.linked fd with
  | unregistered _ _ no_slot _ => cases found.symm.trans no_slot
  | watched revents index interest at_slot _ => exact ⟨index, interest, revents, at_slot⟩
  | muted revents _ _ at_slot _ =>
      obtain rfl := Option.some.inj (found.symm.trans at_slot)
      simp only [muted] at fd_eq
      omega

/-- The channels of `EPollPoller` after `events_` and `index_` of one of them have been set. -/
theorem setIndex_channels {events : Mask} {index : Int}
    (channels : e'.channels = ((e.setEvents fd events).setIndex fd index).channels) :
    e'.channels fd = { e.channels fd with events, index } ∧
      ∀ g ≠ fd, e'.channels g = e.channels g := by
  rw [channels]
  constructor
  · rw [State.setIndex, State.modify_self, State.setEvents, State.modify_self]
  · intro g other
    rw [State.setIndex, State.modify_of_ne _ other, State.setEvents, State.modify_of_ne _ other]

theorem Agree.alike_setEvents (agree : Agree e p) (fd : Fd) (events : Mask) (index : Int) :
    Channel.Alike { e.channels fd with events, index } ((p.setEvents fd events).channels fd) := by
  rw [State.setEvents, State.modify_self]
  exact ⟨rfl, (agree.alike fd).tied, (agree.alike fd).tieAlive, (agree.alike fd).isSet⟩

/-- The first update of a channel. -/
theorem Agree.update_new {events : Mask} (agree : Agree e p) (first : (p.channels fd).index < 0)
    (small : events.toNat < 8) (shown : events ≠ 0 ∨ (p.channels fd).Silent) :
    ∃ e' p', epoll.updateChannel fd (e.setEvents fd events) = some e' ∧
      poll.updateChannel fd (p.setEvents fd events) = some p' ∧ Agree e' p' := by
  obtain ⟨index, unwatched⟩ := agree.fresh first
  obtain ⟨inv, slots⟩ := setEvents_inv agree.inv fd events
  have at_e : (e.setEvents fd events).channels fd = { e.channels fd with events } :=
    e.setEvents_self fd _
  have at_p : (p.setEvents fd events).channels fd = { p.channels fd with events } :=
    p.setEvents_self fd _
  obtain ⟨e', ran, channels, interest⟩ := EPollPoller.updateChannel_add
    (s := e.setEvents fd events) (.inl ((congrArg Channel.index at_e).trans index)) unwatched
  obtain ⟨p', ran', inv', alike', slot'⟩ :=
    PollPoller.updateChannel_new false inv (lt_of_eq_of_lt (congrArg Channel.index at_p) first)
  obtain ⟨at_e', frame_e⟩ := setIndex_channels channels
  have at_p' : (p'.channels fd).events = events := by
    rw [(alike' fd).events, at_p]
  refine ⟨e', p', ran, ran', agree.change fd inv' ?_ ?_ ?_ ?_ ?_⟩
  · rw [at_e']
    exact (agree.alike_setEvents fd events _).trans (alike' fd).symm
  · rwa [at_p']
  · refine .watched 0 ?_ ?_ ?_ ?_
    · rw [at_e']
    · apply (congrFun interest fd).trans
      rw [Function.update_self, at_e, at_p']
    · rw [slot', Function.update_self, at_p, at_p']
    · rw [at_p']
      intro no_event
      apply (alike' fd).symm.silent
      rw [at_p]
      exact shown.resolve_left (not_not.mpr no_event)
  · intro g other
    exact ⟨frame_e g other, (congrFun interest g).trans (Function.update_of_ne other ..)⟩
  · intro g other
    have same_channel := alike' g
    rw [State.setEvents, p.modify_of_ne other] at same_channel
    exact ⟨same_channel, by rw [slot', Function.update_of_ne other, slots]⟩

/-- An update of a channel whose slot bears its fd. -/
theorem Agree.update_watched {events : Mask} (agree : Agree e p) (small : events.toNat < 8)
    (bears : (p.poller.pollfds[(p.channels fd).index.toNat]?).map PollFd.fd = some (fd : Int)) :
    ∃ e' p', epoll.updateChannel fd (e.setEvents fd events) = some e' ∧
      poll.updateChannel fd (p.setEvents fd events) = some p' ∧ Agree e' p' := by
  obtain ⟨index, watching, revents, at_slot⟩ := agree.bears_fd bears
  obtain ⟨inv, slots⟩ := setEvents_inv agree.inv fd events
  have at_e : (e.setEvents fd events).channels fd = { e.channels fd with events } :=
    e.setEvents_self fd _
  have at_p : (p.setEvents fd events).channels fd = { p.channels fd with events } :=
    p.setEvents_self fd _
  have index' : ((e.setEvents fd events).channels fd).index = kAdded :=
    (congrArg Channel.index at_e).trans index
  obtain ⟨p', ran', inv', channels', slot'⟩ :=
    PollPoller.updateChannel_slot false inv ((congrFun slots fd).trans at_slot)
  have at_p' : p'.channels fd = { p.channels fd with events } := by
    rw [channels', at_p]
  have small' : (p'.channels fd).events.toNat < 8 := by
    rwa [at_p']
  have poll_frame : ∀ g ≠ fd, (p'.channels g).Alike (p.channels g) ∧ slot p' g = slot p g := by
    intro g other
    rw [channels', State.setEvents, p.modify_of_ne other, slot', Function.update_of_ne other, slots]
    exact ⟨.refl _, rfl⟩
  rw [at_p] at slot'
  by_cases no_event : events = 0
  · -- The fd leaves the interest set, and the slot is muted.
    obtain ⟨e', ran, channels, interest⟩ := EPollPoller.updateChannel_del
      (s := e.setEvents fd events) index' watching ((congrArg Channel.events at_e).trans no_event)
    obtain ⟨at_e', frame_e⟩ := setIndex_channels channels
    refine ⟨e', p', ran, ran', agree.change fd inv' ?_ small' ?_ ?_ poll_frame⟩
    · rw [at_e', channels']
      exact agree.alike_setEvents fd events _
    · refine .muted 0 ?_ ?_ ?_ ?_
      · rw [at_e']
      · exact (congrFun interest fd).trans (Function.update_self ..)
      · have none_left : Channel.isNoneEvent { p.channels fd with events } := no_event
        rw [slot', Function.update_self, if_pos none_left, no_event]
      · rw [at_p']
        exact no_event
    · intro g other
      exact ⟨frame_e g other, (congrFun interest g).trans (Function.update_of_ne other ..)⟩
  · have some_left : ¬ Channel.isNoneEvent { p.channels fd with events } := no_event
    obtain ⟨e', ran, channels, interest⟩ := EPollPoller.updateChannel_mod
      (s := e.setEvents fd events) index' watching
      (mt (congrArg Channel.events at_e).symm.trans no_event)
    refine ⟨e', p', ran, ran', agree.change fd inv' ?_ small' ?_ ?_ poll_frame⟩
    · rw [channels, channels', at_e]
      exact agree.alike_setEvents fd events _
    · refine .watched 0 ?_ ?_ ?_ ?_
      · rw [channels, index']
      · apply (congrFun interest fd).trans
        rw [Function.update_self, at_e, at_p']
      · rw [slot', Function.update_self, if_neg some_left, at_p']
      · rw [at_p']
        exact fun none_left => absurd none_left no_event
    · intro g other
      refine ⟨?_, (congrFun interest g).trans (Function.update_of_ne other ..)⟩
      rw [channels, State.setEvents, e.modify_of_ne other]

theorem Agree.update (agree : Agree e p) (u : Update) (fd : Fd)
    (regular : Regular p (.update u fd)) :
    ∃ e' p', u.run epoll fd e = some e' ∧ u.run poll fd p = some p' ∧ Agree e' p' := by
  rw [Update.run_eq, Update.run_eq, Poller.change, Poller.change, (agree.alike fd).events]
  have small := events_small u (agree.small fd)
  rw [Regular] at regular
  split at regular
  · rename_i first
    exact agree.update_new first small regular
  · exact agree.update_watched small regular

theorem Agree.remove (agree : Agree e p) (fd : Fd) (regular : Regular p (.remove fd)) :
    ∃ e' p', epoll.remove false fd e = some e' ∧ poll.remove false fd p = some p' ∧
      Agree e' p' := by
  obtain ⟨registered, no_event⟩ := regular
  have added : (e.channels fd).index = kAdded ↔ e.poller.interest.lookup fd ≠ none := by
    cases agree.linked fd with
    | unregistered index unwatched _ _ =>
        rw [index, unwatched]
        decide
    | watched _ index watching _ _ =>
        rw [index, watching]
        simp
    | muted _ index unwatched _ _ =>
        rw [index, unwatched]
        decide
  obtain ⟨pfd, found⟩ : ∃ pfd, slot p fd = some pfd := by
    obtain ⟨i, at_i⟩ := Option.ne_none_iff_exists'.mp (mt PollPoller.slotOf_eq_none.mp registered)
    obtain ⟨pfd, found, -⟩ := agree.inv.indexed.content_isSome at_i
    exact ⟨pfd, found⟩
  obtain ⟨e', ran, channels, interest⟩ := EPollPoller.removeChannel_eq added
  obtain ⟨p', ran', inv', alike', slot'⟩ := PollPoller.removeChannel_slot agree.inv found
  have at_e' : e'.channels fd = { e.channels fd with index := kNew } := by
    rw [channels, State.setIndex, State.modify_self]
  refine ⟨e', p', ran, ran', agree.change fd inv' ?_ ?_ ?_ ?_ ?_⟩
  · refine Channel.Alike.trans ?_ (alike' fd).symm
    rw [at_e']
    exact ⟨(agree.alike fd).events, (agree.alike fd).tied, (agree.alike fd).tieAlive,
      (agree.alike fd).isSet⟩
  · rw [(alike' fd).events]
    exact agree.small fd
  · refine .unregistered ?_ ?_ ?_ ?_
    · rw [at_e']
    · exact (congrFun interest fd).trans (Function.update_self ..)
    · rw [slot', Function.update_self]
    · rw [(alike' fd).events]
      exact no_event
  · intro g other
    refine ⟨?_, (congrFun interest g).trans (Function.update_of_ne other ..)⟩
    rw [channels, State.setIndex, e.modify_of_ne other]
  · intro g other
    exact ⟨alike' g, by rw [slot', Function.update_of_ne other]⟩

/-! ### Polling -/

/-- `pfd->events > 0`, where only the bits of the three events occur -/
theorem toInt_pos {events : Mask} (small : events.toNat < 8) : events.toInt > 0 ↔ events ≠ 0 := by
  rw [BitVec.toInt_eq_toNat_of_lt (by omega), ne_eq, ← BitVec.toNat_inj]
  change _ ↔ ¬ events.toNat = 0
  omega

/-- A slot with events is that of a watched channel. -/
theorem Agree.slot_watched {pfd : PollFd} (agree : Agree e p) (mem : pfd ∈ p.poller.pollfds)
    (shown : pfd.events.toInt > 0) :
    ∃ fd : Fd, pfd.fd = fd ∧ e.poller.interest.lookup fd = some pfd.events := by
  have found := agree.inv.indexed.mem_iff_content.mp mem
  cases agree.linked (owner pfd) with
  | unregistered _ _ no_slot _ => cases no_slot.symm.trans found
  | watched _ _ watching at_slot _ =>
      have same := Option.some.inj (at_slot.symm.trans found)
      exact ⟨owner pfd, (congrArg PollFd.fd same).symm,
        watching.trans (congrArg (some ∘ PollFd.events) same)⟩
  | muted _ _ _ at_slot _ =>
      rw [← congrArg PollFd.events (Option.some.inj (at_slot.symm.trans found))] at shown
      have none_left : ¬ (0 : Mask).toInt > 0 := by decide
      exact absurd shown none_left

theorem Agree.unmuted (agree : Agree e p) : PollPoller.Unmuted p := by
  intro pfd mem shown
  obtain ⟨fd, fd_eq, -⟩ := agree.slot_watched mem shown
  omega

/-- The callbacks that a report of the kernel on `fd` leads to. -/
def reaction (kernel : Kernel) (e : State EPollPoller) (p : State PollPoller) (fd : Fd) :
    List (Fd × Callback) :=
  ((p.channels fd).react (EPollPoller.reportOf kernel e.poller fd)).map (fd, ·)

/-- A channel that invokes a callback is ready, and its slot has events. -/
theorem Agree.reaction_ne_nil {kernel : Kernel} (agree : Agree e p)
    (reacts : reaction kernel e p fd ≠ []) :
    fd ∈ EPollPoller.ready kernel e.poller ∧
      ∃ pfd ∈ p.poller.pollfds, pfd.events.toInt > 0 ∧ pfd.fd = fd := by
  have invoked : (p.channels fd).react (EPollPoller.reportOf kernel e.poller fd) ≠ [] :=
    fun nothing => reacts (by rw [reaction, nothing, List.map_nil])
  have reported : EPollPoller.reportOf kernel e.poller fd ≠ 0 := by
    intro nothing
    rw [nothing, Channel.react_zero] at invoked
    exact invoked rfl
  have unreported : e.poller.interest.lookup fd = none →
      EPollPoller.reportOf kernel e.poller fd = 0 := by
    intro unwatched
    rw [EPollPoller.reportOf, unwatched]
  cases agree.linked fd with
  | unregistered _ unwatched _ _ => exact absurd (unreported unwatched) reported
  | muted _ _ unwatched _ _ => exact absurd (unreported unwatched) reported
  | watched revents _ watching at_slot silent =>
      constructor
      · refine List.mem_filter.mpr ⟨?_, decide_eq_true reported⟩
        rw [← AList.mem_keys, ← AList.lookup_isSome, watching]
        rfl
      · refine ⟨⟨fd, (p.channels fd).events, revents⟩, ?_, (toInt_pos (agree.small fd)).mpr ?_, rfl⟩
        · apply agree.inv.indexed.mem_iff_content.mpr
          rw [PollPoller.owner_of_fd rfl]
          exact at_slot
        · intro no_event
          apply invoked
          rw [EPollPoller.reportOf, watching]
          dsimp only
          rw [no_event]
          exact (Channel.silent_iff _).mp (silent no_event) _

theorem epollWait_eq (kernel : Kernel) (e : State EPollPoller) :
    EPollPoller.epollWait kernel e.poller =
      ((kernel.order (EPollPoller.ready kernel e.poller)).take e.poller.eventsSize).map
        fun fd => (fd, EPollPoller.reportOf kernel e.poller fd) := rfl

theorem ready_nodup (kernel : Kernel) (e : State EPollPoller) :
    ((kernel.order (EPollPoller.ready kernel e.poller)).take e.poller.eventsSize).Nodup := by
  have nodup : (EPollPoller.ready kernel e.poller).Nodup :=
    e.poller.interest.keys_nodup.filter _
  exact (List.take_sublist _ _).nodup ((kernel.permutes _).nodup_iff.mpr nodup)

/-- The callbacks of a poll of `EPollPoller`. -/
theorem Agree.epoll_dispatch (agree : Agree e p) (kernel : Kernel) :
    Poller.dispatch (e.report (EPollPoller.epollWait kernel e.poller)).channels
        ((EPollPoller.epollWait kernel e.poller).map Prod.fst) =
      ((kernel.order (EPollPoller.ready kernel e.poller)).take e.poller.eventsSize).flatMap
        (reaction kernel e p) := by
  have fds : (EPollPoller.epollWait kernel e.poller).map Prod.fst =
      (kernel.order (EPollPoller.ready kernel e.poller)).take e.poller.eventsSize := by
    rw [epollWait_eq, List.map_map]
    exact List.map_id _
  have nodup := ready_nodup kernel e
  rw [← fds] at nodup
  rw [Poller.dispatch_report nodup, epollWait_eq, List.flatMap_map]
  refine List.flatMap_congr fun fd _ => ?_
  rw [(agree.alike fd).react]
  rfl

/-- The callbacks of a poll of `PollPoller`. -/
theorem Agree.poll_dispatch (agree : Agree e p) (kernel : Kernel) :
    ((PollPoller.reports (p.poller.pollfds.map (PollPoller.kernelPoll kernel))).flatMap fun r =>
        ((p.channels r.1).react r.2).map (r.1, ·)) =
      ((PollPoller.reports p.poller.pollfds).map Prod.fst).flatMap (reaction kernel e p) := by
  simp only [PollPoller.reports, List.filter_map, List.map_map, List.flatMap_map]
  refine List.flatMap_congr fun pfd mem => ?_
  obtain ⟨mem, shown⟩ := List.mem_filter.mp mem
  have shown : pfd.events.toInt > 0 := of_decide_eq_true shown
  obtain ⟨fd, fd_eq, watching⟩ := agree.slot_watched mem shown
  have reported : (PollPoller.kernelPoll kernel pfd).revents =
      EPollPoller.reportOf kernel e.poller fd := by
    have unmuted : ¬ pfd.fd < 0 := by omega
    rw [EPollPoller.reportOf, watching, PollPoller.kernelPoll, if_neg unmuted, fd_eq,
      Int.toNat_natCast]
  have same_fd : pfd.fd.toNat = fd := by
    rw [fd_eq, Int.toNat_natCast]
  simp only [Function.comp_apply, reported]
  rw [show (PollPoller.kernelPoll kernel pfd).fd = pfd.fd from rfl, same_fd]
  rfl

/-- Where the fds that are ready fit, both polls lead to the same callbacks. -/
theorem Agree.dispatch_perm {kernel : Kernel} (agree : Agree e p) (fits : Fits kernel e) :
    (((kernel.order (EPollPoller.ready kernel e.poller)).take e.poller.eventsSize).flatMap
        (reaction kernel e p)).Perm
      (((PollPoller.reports p.poller.pollfds).map Prod.fst).flatMap (reaction kernel e p)) := by
  refine Poller.flatMap_perm_of_mem (ready_nodup kernel e)
    (PollPoller.reports_nodup agree.inv agree.unmuted) fun fd reacts => ?_
  obtain ⟨ready, pfd, mem, shown, fd_eq⟩ := agree.reaction_ne_nil reacts
  have permutes := kernel.permutes (EPollPoller.ready kernel e.poller)
  refine iff_of_true ?_ ?_
  · rw [List.take_of_length_le (le_of_eq_of_le permutes.length_eq fits)]
    exact permutes.mem_iff.mpr ready
  · rw [PollPoller.reports, List.map_map]
    refine List.mem_map.mpr ⟨pfd, List.mem_filter.mpr ⟨mem, decide_eq_true shown⟩, ?_⟩
    simp only [Function.comp_apply, fd_eq, Int.toNat_natCast]

/-- A poll keeps the relation, and leads to the same callbacks if the ready fds fit. -/
theorem Agree.polled (agree : Agree e p) (kernel : Kernel) :
    ∃ e' a p' b, epoll.poll kernel e = some (e', a) ∧ poll.poll kernel p = some (p', b) ∧
      Agree e' p' ∧
      (Fits kernel e → (Poller.dispatch e'.channels a).Perm (Poller.dispatch p'.channels b)) := by
  obtain ⟨e', ran, channels, interest⟩ := EPollPoller.poll_eq kernel e
  obtain ⟨p', b, ran', inv', alike', slot', dispatched⟩ :=
    PollPoller.poll_eq agree.inv agree.unmuted kernel
  refine ⟨e', _, p', b, ran, ran', ⟨fun g => ?_, fun g => ?_, inv', fun g => ?_⟩, fun fits => ?_⟩
  · obtain ⟨revents, changed⟩ := State.report_channel (EPollPoller.epollWait kernel e.poller) e g
    refine Channel.Alike.trans ?_ (alike' g).symm
    rw [channels, changed]
    exact ⟨(agree.alike g).events, (agree.alike g).tied, (agree.alike g).tieAlive,
      (agree.alike g).isSet⟩
  · rw [(alike' g).events]
    exact agree.small g
  · obtain ⟨revents, changed⟩ := State.report_channel (EPollPoller.epollWait kernel e.poller) e g
    have same_index : (e'.channels g).index = (e.channels g).index := by
      rw [channels, changed]
    have same_events := (alike' g).events
    have slot_g : slot p' g = (slot p g).map (PollPoller.kernelPoll kernel) := congrFun slot' g
    cases agree.linked g with
    | unregistered index unwatched no_slot no_event =>
        refine .unregistered (same_index.trans index) ?_ ?_ (same_events.trans no_event)
        · rw [interest, unwatched]
        · rw [slot_g, no_slot, Option.map_none]
    | watched before index watching at_slot silent =>
        let pfd : PollFd := PollPoller.kernelPoll kernel ⟨g, (p.channels g).events, before⟩
        refine .watched pfd.revents (same_index.trans index) ?_ ?_ ?_
        · rw [interest, watching, same_events]
        · rw [slot_g, at_slot, same_events]
          rfl
        · exact fun no_event => (alike' g).symm.silent (silent (same_events.symm.trans no_event))
    | muted before index unwatched at_slot no_event =>
        let pfd : PollFd := PollPoller.kernelPoll kernel ⟨muted g, 0, before⟩
        refine .muted pfd.revents (same_index.trans index) ?_ ?_ (same_events.trans no_event)
        · rw [interest, unwatched]
        · rw [slot_g, at_slot]
          rfl
  · rw [channels, agree.epoll_dispatch, dispatched, agree.poll_dispatch]
    exact agree.dispatch_perm fits

/-! ### Runs -/

/-- The pollers' machines, with assertions off. -/
abbrev epollMachine := Poller.machine false epoll

abbrev pollMachine := Poller.machine false poll

theorem Agree.step (agree : Agree e p) (l : Label) (regular : Regular p l) :
    ∃ p' e', pollMachine.step p l = some p' ∧ epollMachine.step e l = some e' ∧ Agree e' p' := by
  cases l with
  | update u fd =>
      obtain ⟨e', p', ran, ran', agree'⟩ := agree.update u fd regular
      exact ⟨p', e', ran', ran, agree'⟩
  | remove fd =>
      obtain ⟨e', p', ran, ran', agree'⟩ := agree.remove fd regular
      exact ⟨p', e', ran', ran, agree'⟩
  | poll kernel =>
      obtain ⟨e', a, p', b, ran, ran', agree', -⟩ := agree.polled kernel
      exact ⟨p', e', by simp only [Poller.machine, Poller.step, ran']; rfl,
        by simp only [Poller.machine, Poller.step, ran]; rfl, agree'⟩

theorem Agree.init {channels : Fd → Channel} (fresh : ∀ fd, (channels fd).Fresh) :
    Agree ⟨channels, epoll.new⟩ ⟨channels, poll.new⟩ := by
  have no_slot : slotOf ⟨channels, poll.new⟩ = fun _ => none := rfl
  refine ⟨fun fd => .refl _, fun fd => ?_, ⟨?_, ?_, ?_⟩, fun fd => ?_⟩
  · rw [(fresh fd).events]
    decide
  · rw [no_slot]
    exact SlotArray.Indexed.nil
  · intro fd g entry
    cases entry
  · intro fd registered
    exact absurd rfl registered
  · exact .unregistered (fresh fd).index rfl rfl (fresh fd).events

theorem Agree.same (agree : Agree e p) :
    SameWatches e p ∧ ∀ kernel, Fits kernel e → SameCallbacks kernel e p := by
  constructor
  · intro fd events
    constructor
    · intro watching
      cases agree.linked fd with
      | unregistered _ unwatched _ _ => cases unwatched.symm.trans watching
      | muted _ _ unwatched _ _ => cases unwatched.symm.trans watching
      | watched revents _ interest at_slot _ =>
          refine ⟨⟨fd, events, revents⟩, agree.inv.indexed.mem_iff_content.mpr ?_, rfl, rfl⟩
          rw [PollPoller.owner_of_fd rfl, ← Option.some.inj (interest.symm.trans watching)]
          exact at_slot
    · rintro ⟨pfd, mem, fd_eq, rfl⟩
      have found := agree.inv.indexed.mem_iff_content.mp mem
      rw [PollPoller.owner_of_fd fd_eq] at found
      cases agree.linked fd with
      | unregistered _ _ no_slot _ => cases no_slot.symm.trans found
      | watched _ _ interest at_slot _ =>
          exact interest.trans (congrArg (some ∘ PollFd.events)
            (Option.some.inj (at_slot.symm.trans found)))
      | muted _ _ _ at_slot _ =>
          rw [← congrArg PollFd.fd (Option.some.inj (at_slot.symm.trans found))] at fd_eq
          simp only [muted] at fd_eq
          omega
  · intro kernel fits
    obtain ⟨e', a, p', b, ran, ran', -, same⟩ := agree.polled kernel
    exact ⟨_, _, by rw [Poller.callbacks, ran]; rfl, by rw [Poller.callbacks, ran']; rfl, same fits⟩

/-- **The pollers are equivalent on regular runs.** Both run, make the kernel watch the same
fds for the same events, and the next poll leads to the same callbacks if `events_` has
room for the fds that are ready. -/
theorem pollers_agree {channels : Fd → Channel} (fresh : ∀ fd, (channels fd).Fresh)
    {labels : List Label} (regular : pollMachine.Meets Regular ⟨channels, poll.new⟩ labels) :
    ∃ p e, pollMachine.run ⟨channels, poll.new⟩ labels = some p ∧
      epollMachine.run ⟨channels, epoll.new⟩ labels = some e ∧ SameWatches e p ∧
      ∀ kernel, Fits kernel e → SameCallbacks kernel e p := by
  obtain ⟨p, e, ran, ran', agree⟩ := Machine.run_refines (fun p e => Agree e p)
    (fun p e l agree regular => agree.step l regular) (Agree.init fresh) regular
  exact ⟨p, e, ran, ran', agree.same⟩

/-- Two channels come and go. -/
theorem pollers_agree_two :
    let labels : List Label := [.update .enableReading 3, .update .enableWriting 5,
      .update .disableWriting 5, .remove 5, .update .enableWriting 3]
    ∃ p e, pollMachine.run ⟨fun _ => .unused, poll.new⟩ labels = some p ∧
      epollMachine.run ⟨fun _ => .unused, epoll.new⟩ labels = some e ∧ SameWatches e p ∧
      ∀ kernel, Fits kernel e → SameCallbacks kernel e p :=
  pollers_agree (fun _ => Channel.unused_fresh) (by decide)

/-- A channel is enabled, disabled and enabled again: only `EPollPoller` watches it. -/
theorem muted_for_good : ¬ ∀ (channels : Fd → Channel) (labels : List Label),
    (∀ fd, (channels fd).Fresh) → pollMachine.Meets Allowed ⟨channels, poll.new⟩ labels →
    ∃ p e, pollMachine.run ⟨channels, poll.new⟩ labels = some p ∧
      epollMachine.run ⟨channels, epoll.new⟩ labels = some e ∧ SameWatches e p ∧
      ∀ kernel, SameCallbacks kernel e p := by
  intro claimed
  let labels : List Label :=
    [.update .enableReading 3, .update .disableAll 3, .update .enableReading 3]
  obtain ⟨_, _, ⟨⟩, ⟨⟩, same, -⟩ :=
    claimed (fun _ => .unused) labels (fun _ => Channel.unused_fresh) (by decide)
  obtain ⟨pfd, mem, fd_eq, -⟩ := (same 3 Channel.kReadEvent).mp rfl
  obtain rfl := List.mem_singleton.mp mem
  exact absurd fd_eq (by decide)

end Dbdky.Port.PollerEquivalence
