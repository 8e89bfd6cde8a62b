import Mathlib.Data.List.Perm.Subperm
import Dbdky.Port.PollPoller

/-!
What `pollfds_` is to represent, and when it does.

* **`represents_iff`.** That every registered channel has a slot of its own, and there are
  as many slots as channels, says that no slot is left over (`Inv`).
* **`step_represents_iff`.** An operation keeps the representation unless a channel is first
  updated without events, gets events back after it had none, or has been removed before.
-/

namespace Dbdky.Port.PollPoller

open Transition
open Poller (State Label Update)

def Registered (s : State PollPoller) (fd : Fd) : Prop :=
  s.poller.channels.lookup (fd : Int) = some fd

instance (s : State PollPoller) (fd : Fd) : Decidable (Registered s fd) :=
  inferInstanceAs (Decidable (_ = _))

/-- The slot has the channel's events, and is muted if there are none. -/
structure Shows (c : Channel) (fd : Fd) (pfd : PollFd) : Prop where
  events : pfd.events = c.events
  fd : pfd.fd = if c.isNoneEvent then muted fd else fd

/-- Every registered channel has a slot of its own, which shows it. -/
structure Represents (s : State PollPoller) : Prop where
  named : ∀ {key : Int} {g : Fd}, s.poller.channels.lookup key = some g → key = g
  length : s.poller.pollfds.length = s.poller.channels.keys.length
  slots : ∀ fd, Registered s fd → ∃ (i : Nat) (pfd : PollFd), (s.channels fd).index = i ∧
    s.poller.pollfds[i]? = some pfd ∧ Shows (s.channels fd) fd pfd
  unique : ∀ fd g, Registered s fd → Registered s g →
    (s.channels fd).index = (s.channels g).index → fd = g

/-- The keys of `channels_` are fds, and there are as many as slots. -/
structure Keyed (s : State PollPoller) : Prop where
  named : ∀ {key : Int} {g : Fd}, s.poller.channels.lookup key = some g → key = g
  length : s.poller.pollfds.length = s.poller.channels.keys.length

variable {s t : State PollPoller} {fd : Fd} {pfd : PollFd}

theorem Shows.owner {c : Channel} (shows : Shows c fd pfd) : owner pfd = fd := by
  by_cases no_event : c.isNoneEvent
  · exact owner_of_muted (shows.fd.trans (if_pos no_event))
  · exact owner_of_fd (shows.fd.trans (if_neg no_event))

/-- Only the events of the channel matter. -/
theorem shows_congr {c d : Channel} (same : c.events = d.events) :
    Shows c fd pfd ↔ Shows d fd pfd := by
  have none_iff : c.isNoneEvent ↔ d.isNoneEvent :=
    iff_of_eq (congrArg (· = Channel.kNoneEvent) same)
  constructor
  · rintro ⟨events, bears⟩
    exact ⟨events.trans same, by simpa only [none_iff] using bears⟩
  · rintro ⟨events, bears⟩
    exact ⟨events.trans same.symm, by simpa only [none_iff] using bears⟩

theorem ne_muted (fd : Fd) : (fd : Int) ≠ muted fd := by
  unfold muted
  omega

/-- A slot that is not muted shows a channel with events. -/
theorem shows_unmuted_iff {c : Channel} {revents : Mask} :
    Shows c fd ⟨fd, c.events, revents⟩ ↔ ¬ c.isNoneEvent := by
  constructor
  · rintro ⟨-, bears⟩ no_event
    exact ne_muted fd (bears.trans (if_pos no_event))
  · intro some_event
    exact ⟨rfl, (if_neg some_event).symm⟩

/-- A slot that is muted if there are no events, and otherwise left as it was. -/
theorem shows_updated_iff {c : Channel} {before : Int} {revents : Mask} :
    Shows c fd ⟨if c.isNoneEvent then muted fd else before, c.events, revents⟩ ↔
      (c.isNoneEvent ∨ before = fd) := by
  by_cases no_event : c.isNoneEvent
  · exact iff_of_true ⟨rfl, by simp only [if_pos no_event]⟩ (.inl no_event)
  · rw [or_iff_right no_event]
    constructor
    · rintro ⟨-, bears⟩
      simpa only [if_neg no_event] using bears
    · rintro rfl
      exact ⟨rfl, by simp only [if_neg no_event]⟩

theorem registered_iff (named : ∀ {key : Int} {g : Fd}, s.poller.channels.lookup key = some g →
    key = g) : Registered s fd ↔ s.poller.channels.lookup (fd : Int) ≠ none := by
  constructor
  · intro registered none
    cases registered.symm.trans none
  · intro entry
    obtain ⟨g, entry⟩ := Option.ne_none_iff_exists'.mp entry
    obtain rfl : fd = g := Int.natCast_inj.mp (named entry)
    exact entry

/-- As many slots as channels: each slot is the one of some channel. -/
theorem Represents.exists_index (represents : Represents s) {i : Nat}
    (bound : i < s.poller.pollfds.length) : ∃ fd, Registered s fd ∧ (s.channels fd).index = i := by
  let position (key : Int) : Nat := (s.channels key.toNat).index.toNat
  have key_registered : ∀ key ∈ s.poller.channels.keys, ∃ fd : Fd, key = fd ∧ Registered s fd := by
    intro key mem
    obtain ⟨g, entry⟩ := Option.isSome_iff_exists.mp
      (AList.lookup_isSome.mpr (AList.mem_keys.mpr mem))
    obtain rfl := represents.named entry
    exact ⟨g, rfl, entry⟩
  have nodup : (s.poller.channels.keys.map position).Nodup := by
    refine List.Nodup.map_on ?_ s.poller.channels.keys_nodup
    intro key mem key' mem' same
    obtain ⟨fd, rfl, registered⟩ := key_registered key mem
    obtain ⟨g, rfl, registered'⟩ := key_registered key' mem'
    obtain ⟨j, -, at_j, -⟩ := represents.slots fd registered
    obtain ⟨k, -, at_k, -⟩ := represents.slots g registered'
    simp only [position, Int.toNat_natCast, at_j, at_k] at same
    rw [represents.unique fd g registered registered' (by rw [at_j, at_k, same])]
  have inside : s.poller.channels.keys.map position ⊆ List.range s.poller.pollfds.length := by
    intro j taken
    obtain ⟨key, mem, rfl⟩ := List.mem_map.mp taken
    obtain ⟨fd, rfl, registered⟩ := key_registered key mem
    obtain ⟨k, pfd, at_k, in_place, -⟩ := represents.slots fd registered
    simp only [position, Int.toNat_natCast, at_k]
    exact List.mem_range.mpr (List.getElem?_eq_some_iff.mp in_place).1
  have all : (s.poller.channels.keys.map position).Perm (List.range s.poller.pollfds.length) := by
    refine (List.subperm_of_subset nodup inside).perm_of_length_le ?_
    rw [List.length_range, List.length_map, represents.length]
  obtain ⟨key, mem, rfl⟩ := List.mem_map.mp (all.mem_iff.mpr (List.mem_range.mpr bound))
  obtain ⟨fd, rfl, registered⟩ := key_registered key mem
  obtain ⟨k, -, at_k, -⟩ := represents.slots fd registered
  refine ⟨fd, registered, ?_⟩
  simp only [position, Int.toNat_natCast, at_k]

theorem Represents.inv (represents : Represents s) : Inv s := by
  refine ⟨?_, ?_, ?_⟩
  · intro fd i
    rw [List.getElem?_map, Option.map_eq_some_iff]
    constructor
    · intro found
      rw [slotOf] at found
      split at found
      · cases found
      · rename_i entry
        obtain ⟨j, pfd, index, in_place, shows⟩ :=
          represents.slots fd ((registered_iff represents.named).mpr entry)
        rw [index] at found
        cases found
        exact ⟨pfd, in_place, shows.owner⟩
    · rintro ⟨pfd, in_place, owned⟩
      obtain ⟨g, registered, index⟩ :=
        represents.exists_index (List.getElem?_eq_some_iff.mp in_place).1
      obtain ⟨j, pfd', index', in_place', shows⟩ := represents.slots g registered
      obtain rfl : i = j := Int.natCast_inj.mp (index.symm.trans index')
      obtain rfl : pfd = pfd' := Option.some.inj (in_place.symm.trans in_place')
      obtain rfl : g = fd := shows.owner.symm.trans owned
      rw [slotOf, if_neg ((registered_iff represents.named).mp registered), index,
        Int.toNat_natCast]
  · intro fd g entry
    exact (Int.natCast_inj.mp (represents.named entry)).symm
  · intro fd entry
    obtain ⟨i, -, index, -⟩ := represents.slots fd ((registered_iff represents.named).mpr entry)
    rw [index]
    exact Int.natCast_nonneg i

/-- A registered channel's slot, found through its index. -/
theorem Represents.shows_slot (represents : Represents s) (found : slot s fd = some pfd) :
    Registered s fd ∧ Shows (s.channels fd) fd pfd := by
  obtain ⟨i, at_i, in_place⟩ := Option.bind_eq_some_iff.mp found
  obtain ⟨registered, index⟩ := represents.inv.slotOf_index at_i
  obtain ⟨j, pfd', index', in_place', shows⟩ := represents.slots fd registered
  obtain rfl : i = j := Int.natCast_inj.mp (index.symm.trans index')
  obtain rfl : pfd = pfd' := Option.some.inj (in_place.symm.trans in_place')
  exact ⟨registered, shows⟩

/-- The representation, seen through the indices. -/
theorem represents_iff : Represents s ↔
    Inv s ∧ Keyed s ∧ ∀ fd pfd, slot s fd = some pfd → Shows (s.channels fd) fd pfd := by
  constructor
  · intro represents
    exact ⟨represents.inv, ⟨represents.named, represents.length⟩,
      fun fd pfd found => (represents.shows_slot found).2⟩
  · rintro ⟨inv, keyed, shows⟩
    have slot_of : ∀ fd, Registered s fd → ∃ i pfd, slotOf s fd = some i ∧
        (s.channels fd).index = i ∧ s.poller.pollfds[i]? = some pfd ∧ slot s fd = some pfd := by
      intro fd registered
      obtain ⟨i, at_i⟩ := Option.ne_none_iff_exists'.mp
        (mt slotOf_eq_none.mp ((registered_iff keyed.named).mp registered))
      obtain ⟨pfd, found, in_place⟩ := inv.indexed.content_isSome at_i
      exact ⟨i, pfd, at_i, (inv.slotOf_index at_i).2, in_place, found⟩
    refine ⟨keyed.named, keyed.length, ?_, ?_⟩
    · intro fd registered
      obtain ⟨i, pfd, -, index, in_place, found⟩ := slot_of fd registered
      exact ⟨i, pfd, index, in_place, shows fd pfd found⟩
    · intro fd g registered registered' same
      obtain ⟨i, -, at_i, index, -⟩ := slot_of fd registered
      obtain ⟨j, -, at_j, index', -⟩ := slot_of g registered'
      obtain rfl : i = j := Int.natCast_inj.mp (index.symm.trans (same.trans index'))
      exact Option.some.inj (((inv.indexed fd i).mp at_i).symm.trans ((inv.indexed g i).mp at_j))

/-! ### One operation -/

theorem Represents.keyed (represents : Represents s) : Keyed s :=
  ⟨represents.named, represents.length⟩

/-- Where only the slot of one channel changes, that one has to be looked at. -/
theorem represents_of_frame {new : Option PollFd} (represents : Represents s) (inv : Inv t)
    (keyed : Keyed t) (events : ∀ g ≠ fd, (t.channels g).events = (s.channels g).events)
    (slots : slot t = Function.update (slot s) fd new) :
    Represents t ↔ ∀ pfd ∈ new, Shows (t.channels fd) fd pfd := by
  rw [represents_iff, and_iff_right inv, and_iff_right keyed, slots]
  constructor
  · intro shows pfd here
    refine shows fd pfd ?_
    rw [Function.update_self]
    exact here
  · intro here g pfd found
    rcases eq_or_ne g fd with rfl | other
    · rw [Function.update_self] at found
      exact here pfd found
    · rw [Function.update_of_ne other] at found
      obtain ⟨-, shown⟩ := represents.shows_slot found
      exact (shows_congr (events g other)).mpr shown

theorem Represents.exists_slot (represents : Represents s) (registered : Registered s fd) :
    ∃ pfd, slot s fd = some pfd := by
  obtain ⟨i, at_i⟩ := Option.ne_none_iff_exists'.mp
    (mt slotOf_eq_none.mp ((registered_iff represents.named).mp registered))
  obtain ⟨pfd, found, -⟩ := represents.inv.indexed.content_isSome at_i
  exact ⟨pfd, found⟩

theorem keyed_setEvents (keyed : Keyed s) (fd : Fd) (events : Mask) :
    Keyed (s.setEvents fd events) := ⟨keyed.named, keyed.length⟩

theorem pushed_keyed (keyed : Keyed s) (unregistered : s.poller.channels.lookup (fd : Int) = none) :
    Keyed (pushed fd s) := by
  constructor
  · intro key g entry
    rcases eq_or_ne key fd with rfl | other
    · exact congrArg Nat.cast (Option.some.inj ((AList.lookup_insert _).symm.trans entry))
    · exact keyed.named ((AList.lookup_insert_ne other).symm.trans entry)
  · have absent : (fd : Int) ∉ s.poller.channels.keys := by
      rw [← AList.mem_keys, ← AList.lookup_isSome, unregistered]
      exact Bool.false_ne_true
    rw [pushed, List.length_append, AList.keys_insert, List.erase_of_not_mem absent,
      List.length_cons, keyed.length]
    rfl

/-- The first update, which does not mute the slot. -/
theorem updateChannel_new_iff {events : Mask} (represents : Represents s)
    (first : (s.channels fd).index < 0) :
    (∃ t, updateChannel true fd (s.setEvents fd events) = some t ∧ Represents t) ↔ events ≠ 0 := by
  let u := s.setEvents fd events
  obtain ⟨inv, same⟩ := setEvents_inv represents.inv fd events
  have at_fd : u.channels fd = { s.channels fd with events } := s.setEvents_self fd events
  have index : (u.channels fd).index < 0 := lt_of_eq_of_lt (congrArg Channel.index at_fd) first
  have unregistered : u.poller.channels.lookup (fd : Int) = none := by
    by_contra registered
    exact absurd (inv.valid registered) (Int.not_le.mpr index)
  obtain ⟨t, ran, inv', alike, slots⟩ := updateChannel_new true inv index
  have keyed : Keyed t := by
    obtain rfl : pushed fd u = t :=
      Option.some.inj ((updateChannel_eq_pushed true index unregistered).symm.trans ran)
    exact pushed_keyed (keyed_setEvents represents.keyed fd events) unregistered
  have others : ∀ g ≠ fd, (t.channels g).events = (s.channels g).events := by
    intro g other
    rw [(alike g).events, State.setEvents, s.modify_of_ne other]
  rw [same] at slots
  have after_iff : Represents t ↔ ¬ (u.channels fd).isNoneEvent := by
    rw [represents_of_frame represents inv' keyed others slots]
    simp only [Option.mem_some_iff, forall_eq', shows_congr (alike fd).events]
    exact shows_unmuted_iff
  have events_iff : ¬ (u.channels fd).isNoneEvent ↔ events ≠ 0 := by
    rw [at_fd]
    exact Iff.rfl
  rw [← events_iff, ← after_iff]
  exact exists_ran_iff ran

theorem updateChannel_keyed {debug : Bool} (keyed : Keyed s) (known : ¬ (s.channels fd).index < 0)
    (ran : updateChannel debug fd s = some t) : Keyed t := by
  simp only [updateChannel, known, if_false, Option.bind_eq_bind] at ran
  obtain ⟨_, -, ran⟩ := Option.bind_eq_some_iff.mp ran
  obtain ⟨_, -, ran⟩ := Option.bind_eq_some_iff.mp ran
  obtain ⟨_, -, ran⟩ := Option.bind_eq_some_iff.mp ran
  split at ran
  · cases ran
  · obtain ⟨_, -, same⟩ := Option.bind_eq_some_iff.mp ran
    cases same
    exact ⟨keyed.named, List.length_set.trans keyed.length⟩

/-- An update of a registered channel, which does not unmute the slot. -/
theorem updateChannel_registered_iff {events : Mask} (represents : Represents s)
    (registered : Registered s fd) :
    (∃ t, updateChannel true fd (s.setEvents fd events) = some t ∧ Represents t) ↔
      (events = 0 ∨ ¬ (s.channels fd).isNoneEvent) := by
  let u := s.setEvents fd events
  obtain ⟨inv, same⟩ := setEvents_inv represents.inv fd events
  have at_fd : u.channels fd = { s.channels fd with events } := s.setEvents_self fd events
  obtain ⟨pfd, found⟩ := represents.exists_slot registered
  have shown := (represents.shows_slot found).2
  have known : ¬ (u.channels fd).index < 0 :=
    Int.not_lt.mpr (inv.valid ((registered_iff represents.named).mp registered))
  obtain ⟨t, ran, inv', channels, slots⟩ :=
    updateChannel_slot true inv ((congrFun same fd).trans found)
  have keyed := updateChannel_keyed (keyed_setEvents represents.keyed fd events) known ran
  have others : ∀ g ≠ fd, (t.channels g).events = (s.channels g).events := by
    intro g other
    rw [channels, State.setEvents, s.modify_of_ne other]
  rw [same] at slots
  have bears : pfd.fd = fd ↔ ¬ (s.channels fd).isNoneEvent := by
    rw [shown.fd]
    split
    · rename_i no_event
      exact iff_of_false (ne_muted fd).symm (not_not.mpr no_event)
    · rename_i some_event
      exact iff_of_true rfl some_event
  have none_iff : (u.channels fd).isNoneEvent ↔ events = 0 := by
    rw [at_fd]
    exact Iff.rfl
  have after_iff : Represents t ↔ (events = 0 ∨ ¬ (s.channels fd).isNoneEvent) := by
    rw [represents_of_frame represents inv' keyed others slots, ← none_iff, ← bears]
    simp only [Option.mem_some_iff, forall_eq', channels]
    exact shows_updated_iff
  rw [← after_iff]
  exact exists_ran_iff ran

/-- An update of a channel that has been removed. -/
theorem updateChannel_removed (known : ¬ (s.channels fd).index < 0)
    (removed : s.poller.channels.lookup (fd : Int) = none) : updateChannel true fd s = none := by
  refine Option.eq_none_iff_forall_ne_some.mpr fun t ran => ?_
  simp only [updateChannel, known, if_false, Option.bind_eq_bind] at ran
  obtain ⟨_, passed, -⟩ := Option.bind_eq_some_iff.mp ran
  exact of_assertIf passed removed

/-- The assertions of `removeChannel` hold of a registered channel without events. -/
theorem removeChannel_debug (represents : Represents s) (registered : Registered s fd)
    (no_event : (s.channels fd).isNoneEvent) :
    removeChannel true fd s = removeChannel false fd s := by
  obtain ⟨i, pfd, index, in_place, shows⟩ := represents.slots fd registered
  have entry : s.poller.channels.lookup (fd : Int) = some fd := registered
  have some_entry := entry.trans_ne (Option.some_ne_none fd)
  have not_new : ¬ ((i : Int) < 0) := Int.not_lt.mpr (Int.natCast_nonneg i)
  have bound := (List.getElem?_eq_some_iff.mp in_place).1
  have is_muted : pfd.fd = muted fd ∧ pfd.events = (s.channels fd).events :=
    ⟨shows.fd.trans (if_pos no_event), shows.events⟩
  simp only [removeChannel, assertIf_of _ some_entry, assertIf_of _ entry, assertIf_of _ no_event,
    index, not_new, if_false, Int.toNat_natCast, assertIf_of _ bound, in_place,
    assertIf_of _ is_muted]

theorem dropped_keyed {i : Nat} {back : PollFd} (keyed : Keyed s) (registered : Registered s fd)
    (at_end : s.poller.pollfds.getLast? = some back) : Keyed (dropped fd i back s) := by
  constructor
  · intro key g entry
    rcases eq_or_ne key fd with rfl | other
    · cases (AList.lookup_erase _ _).symm.trans entry
    · exact keyed.named ((AList.lookup_erase_ne other).symm.trans entry)
  · have present : (fd : Int) ∈ s.poller.channels.keys := by
      rw [← AList.mem_keys, ← AList.lookup_isSome, registered]
      rfl
    simp only [dropped, SlotArray.swapRemove, at_end, AList.keys_erase,
      List.length_erase_of_mem present, List.length_dropLast, List.length_set, keyed.length]

/-- A removal leaves the other channels their slots, also the one that is moved. -/
theorem removeChannel_represents (represents : Represents s) (registered : Registered s fd)
    (no_event : (s.channels fd).isNoneEvent) :
    ∃ t, removeChannel true fd s = some t ∧ Represents t := by
  obtain ⟨pfd, found⟩ := represents.exists_slot registered
  obtain ⟨i, at_i, in_place⟩ := Option.bind_eq_some_iff.mp found
  obtain ⟨back, at_end⟩ := SlotArray.exists_last in_place
  have eq_dropped := removeChannel_eq_dropped represents.inv at_i in_place at_end
  obtain ⟨t, ran, inv', alike, slots⟩ := removeChannel_slot represents.inv found
  obtain rfl : dropped fd i back s = t := Option.some.inj (eq_dropped.symm.trans ran)
  refine ⟨_, (removeChannel_debug represents registered no_event).trans ran, ?_⟩
  refine (represents_of_frame represents inv' (dropped_keyed represents.keyed registered at_end)
    (fun g _ => (alike g).events) slots).mpr ?_
  intro pfd none
  cases none

/-! ### Runs -/

/-- Operations on channels; only a registered channel without events is removed. -/
def Legal (s : State PollPoller) : Label → Prop
  | .update _ _ => True
  | .remove fd => Registered s fd ∧ (s.channels fd).isNoneEvent
  | .poll _ => False

instance (s : State PollPoller) : ∀ l, Decidable (Legal s l)
  | .update _ _ => isTrue trivial
  | .remove _ => inferInstanceAs (Decidable (_ ∧ _))
  | .poll _ => isFalse not_false

/-- The first update of a channel enables an event. After that it is updated only while it is
registered, and gets no events once it has none. -/
def Proper (s : State PollPoller) : Label → Prop
  | .update u fd =>
      if (s.channels fd).index < 0 then u.events (s.channels fd).events ≠ 0
      else Registered s fd ∧
        (u.events (s.channels fd).events = 0 ∨ ¬ (s.channels fd).isNoneEvent)
  | _ => True

instance (s : State PollPoller) : ∀ l, Decidable (Proper s l)
  | .update u fd =>
      inferInstanceAs (Decidable (if (s.channels fd).index < 0 then
        u.events (s.channels fd).events ≠ 0 else _ ∧ (_ ∨ ¬ _)))
  | .remove _ | .poll _ => isTrue trivial

/-- `PollPoller`, with assertions on. -/
abbrev debugMachine := Poller.machine true (poller true)

theorem update_represents_iff (represents : Represents s) (u : Update) (fd : Fd) :
    (∃ t, u.run (poller true) fd s = some t ∧ Represents t) ↔ Proper s (.update u fd) := by
  rw [Update.run_eq, Proper]
  change (∃ t, updateChannel true fd (s.setEvents fd (u.events (s.channels fd).events)) = some t ∧
    Represents t) ↔ _
  generalize u.events (s.channels fd).events = events
  split
  · rename_i first
    exact updateChannel_new_iff represents first
  · rename_i known
    by_cases registered : Registered s fd
    · rw [and_iff_right registered]
      exact updateChannel_registered_iff represents registered
    · have removed : s.poller.channels.lookup (fd : Int) = none :=
        not_not.mp (mt (registered_iff represents.named).mpr registered)
      have index : ¬ ((s.setEvents fd events).channels fd).index < 0 := by
        rw [s.setEvents_self]
        exact known
      refine iff_of_false ?_ fun proper => registered proper.1
      rintro ⟨t, ran, -⟩
      cases (updateChannel_removed index removed).symm.trans ran

theorem step_represents_iff (s : State PollPoller) (l : Label) (represents : Represents s)
    (legal : Legal s l) :
    (∃ t, debugMachine.step s l = some t ∧ Represents t) ↔ Proper s l := by
  cases l with
  | update u fd => exact update_represents_iff represents u fd
  | remove fd =>
      obtain ⟨registered, no_event⟩ := legal
      obtain ⟨t, ran, after⟩ := removeChannel_represents represents registered no_event
      refine iff_of_true ⟨t, ?_, after⟩ trivial
      exact (congrArg (Option.bind · _) (assertIf_of true no_event)).trans ran
  | poll kernel => cases legal

theorem init_represents (init : debugMachine.init s) : Represents s := by
  obtain ⟨-, new⟩ := init
  have no_entry : ∀ key, s.poller.channels.lookup key = none := by
    intro key
    rw [new]
    rfl
  constructor
  · intro key g entry
    cases (no_entry key).symm.trans entry
  · rw [new]
    rfl
  · intro fd registered
    cases (no_entry fd).symm.trans registered
  · intro fd g registered
    cases (no_entry fd).symm.trans registered

/-- **`pollfds_` represents the channels** in every state of a run, and no assertion fails, if
and only if each operation is proper. -/
theorem keeps_represents_iff {ls : List Label} (init : debugMachine.init s)
    (lawful : debugMachine.Meets Legal s ls) :
    debugMachine.Keeps Represents s ls ↔ debugMachine.Meets Proper s ls :=
  Machine.keeps_iff_meets step_represents_iff (init_represents init) lawful

theorem unused_init : debugMachine.init ⟨fun _ => .unused, new⟩ :=
  ⟨fun _ => Channel.unused_fresh, rfl⟩

/-- Of three channels the first is muted and removed, so that the last one moves. -/
theorem keeps_represents_iff_three :
    let ls : List Label := [.update .enableReading 3, .update .enableWriting 5,
      .update .enableReading 7, .update .disableAll 7, .update .disableAll 3, .remove 3,
      .update .disableWriting 5, .remove 7]
    debugMachine.Keeps Represents ⟨fun _ => .unused, new⟩ ls ↔
      debugMachine.Meets Proper ⟨fun _ => .unused, new⟩ ls :=
  keeps_represents_iff unused_init (by decide)

/-- A channel that is enabled again stays muted. -/
theorem reenabled_stays_muted :
    ∃ s ls, debugMachine.init s ∧ debugMachine.Meets Legal s ls ∧
      (∃ t, debugMachine.run s ls = some t ∧
        t.poller.pollfds = [⟨muted 3, Channel.kReadEvent, 0⟩]) ∧
      ¬ debugMachine.Keeps Represents s ls := by
  refine ⟨⟨fun _ => .unused, new⟩,
    [.update .enableReading 3, .update .disableAll 3, .update .enableReading 3],
    unused_init, by decide, ⟨_, rfl, rfl⟩, ?_⟩
  rw [Machine.keeps_iff_meets step_represents_iff (init_represents unused_init) (by decide)]
  decide

end Dbdky.Port.PollPoller
