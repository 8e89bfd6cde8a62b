import Mathlib.Data.List.AList
import Dbdky.Port.Poller
import Dbdky.Slots.SlotArray

/-!
`PollPoller` (`src/port/PollPoller.{h,cpp}`).

A channel without events keeps its slot in `pollfds_` and is muted there by a negative fd;
`-fd - 1` gives the fd back. Nothing unmutes it again.

* **`Inv`.** `pollfds_` and the indices of the registered channels agree.
* **`slot`.** What a registered channel has in `pollfds_`. An operation on a channel
  changes the slot of that channel only: `updateChannel_new`, `updateChannel_slot` and,
  with assertions off, `removeChannel_slot`.
* **`poll_eq`.** A poll changes `revents` and `revents_` only, and the callbacks it leads
  to are those of the slots with events.
-/

namespace Dbdky.Port

/-- `struct pollfd` -/
structure PollFd where
  fd : Int
  events : Mask
  revents : Mask
deriving DecidableEq, Repr

structure PollPoller where
  pollfds : List PollFd
  /-- `channels_` -/
  channels : AList fun _ : Int => Fd

namespace PollPoller

open Poller (State)

def new : PollPoller := ⟨[], ∅⟩

/-- The fd of a muted slot, and back. -/
def muted (fd : Int) : Int := -fd - 1

def updateChannel (debug : Bool) (fd : Fd) (s : State PollPoller) : Option (State PollPoller) := do
  let channel := s.channels fd
  if channel.index < 0 then
    assertIf debug (s.poller.channels.lookup (fd : Int) = none)
    let pfd : PollFd := ⟨fd, channel.events, 0⟩
    let pollfds := s.poller.pollfds ++ [pfd]
    let idx : Int := pollfds.length - 1
    some { s.setIndex fd idx with poller := ⟨pollfds, s.poller.channels.insert (fd : Int) fd⟩ }
  else
    assertIf debug (s.poller.channels.lookup (fd : Int) ≠ none)
    assertIf debug (s.poller.channels.lookup (fd : Int) = some fd)
    let idx := channel.index.toNat
    assertIf debug (idx < s.poller.pollfds.length)
    match s.poller.pollfds[idx]? with
    | none => none
    | some pfd =>
        assertIf debug (pfd.fd = fd ∨ pfd.fd = muted fd)
        let pfd := { pfd with events := channel.events, revents := 0 }
        let pfd := if channel.isNoneEvent then { pfd with fd := muted fd } else pfd
        some { s with poller := { s.poller with pollfds := s.poller.pollfds.set idx pfd } }

def removeChannel (debug : Bool) (fd : Fd) (s : State PollPoller) : Option (State PollPoller) := do
  let channel := s.channels fd
  assertIf debug (s.poller.channels.lookup (fd : Int) ≠ none)
  assertIf debug (s.poller.channels.lookup (fd : Int) = some fd)
  assertIf debug channel.isNoneEvent
  if channel.index < 0 then none else
  let idx := channel.index.toNat
  assertIf debug (idx < s.poller.pollfds.length)
  match s.poller.pollfds[idx]? with
  | none => none
  | some pfd =>
      assertIf debug (pfd.fd = muted fd ∧ pfd.events = channel.events)
      let channels := s.poller.channels.erase (fd : Int)
      assertIf debug (s.poller.channels.lookup (fd : Int) ≠ none)
      if idx = s.poller.pollfds.length - 1 then
        some { s with poller := ⟨s.poller.pollfds.dropLast, channels⟩ }
      else
        match s.poller.pollfds.getLast? with
        | none => none
        | some back =>
            let channelAtEnd := if back.fd < 0 then muted back.fd else back.fd
            match channels.lookup channelAtEnd with
            | none => none
            | some moved =>
                some { s.setIndex moved idx with
                  poller := ⟨(s.poller.pollfds.set idx back).dropLast, channels⟩ }

/-- What `::poll` does to a slot: it fills in `revents`; a negative fd is ignored. -/
def kernelPoll (kernel : Kernel) (pfd : PollFd) : PollFd :=
  { pfd with
    revents := if pfd.fd < 0 then 0 else pfd.events.report (kernel.conditions pfd.fd.toNat) }

def fillActiveChannels (debug : Bool) :
    List PollFd → State PollPoller → Option (State PollPoller × List Fd)
  | [], s => some (s, [])
  | pfd :: pollfds, s =>
      if pfd.events.toInt > 0 then
        match s.poller.channels.lookup pfd.fd with
        | none => none
        | some channel => do
            assertIf debug ((channel : Int) = pfd.fd)
            let (s, activeChannels) ←
              fillActiveChannels debug pollfds (s.setRevents channel pfd.revents)
            some (s, channel :: activeChannels)
      else fillActiveChannels debug pollfds s

def poll (debug : Bool) (kernel : Kernel) (s : State PollPoller) :
    Option (State PollPoller × List Fd) :=
  let pollfds := s.poller.pollfds.map (kernelPoll kernel)
  let s := { s with poller := { s.poller with pollfds } }
  let numEvents := pollfds.countP fun pfd => pfd.revents ≠ 0
  if numEvents > 0 then fillActiveChannels debug pollfds s else some (s, [])

/-- The channel a slot belongs to. -/
def owner (pfd : PollFd) : Fd := if pfd.fd < 0 then (muted pfd.fd).toNat else pfd.fd.toNat

/-- `PollPoller` behind the interface. -/
def poller (debug : Bool) : Poller PollPoller where
  new := new
  poll := poll debug
  updateChannel := updateChannel debug
  removeChannel := removeChannel debug
  watches p fd events := ∃ pfd ∈ p.pollfds, pfd.fd = fd ∧ pfd.events = events
  knows p fd := p.pollfds.any fun pfd => owner pfd = fd

/-! ### The slots of the channels -/

theorem cast_ne {fd g : Fd} (other : g ≠ fd) : (g : Int) ≠ fd := mt Int.natCast_inj.mp other

theorem owner_cast (pfd : PollFd) :
    (if pfd.fd < 0 then muted pfd.fd else pfd.fd) = (owner pfd : Int) := by
  unfold owner muted
  split <;> omega

theorem owner_of_fd {pfd : PollFd} {fd : Nat} (fd_eq : pfd.fd = fd) : owner pfd = fd := by
  rw [owner, fd_eq, if_neg (by omega), Int.toNat_natCast]

theorem owner_of_muted {pfd : PollFd} {fd : Nat} (fd_eq : pfd.fd = muted fd) : owner pfd = fd := by
  have negative : muted fd < 0 := by
    unfold muted
    omega
  have back : muted (muted fd) = fd := by
    unfold muted
    omega
  rw [owner, fd_eq, if_pos negative, back, Int.toNat_natCast]

/-- A slot bears the fd of its owner, or is muted. -/
theorem fd_of_owner {pfd : PollFd} {fd : Nat} (owned : owner pfd = fd) :
    pfd.fd = fd ∨ pfd.fd = muted fd := by
  have back := owner_cast pfd
  rw [owned, muted] at back
  unfold muted
  split at back <;> omega

/-- Where a registered channel has its slot. -/
def slotOf (s : State PollPoller) (fd : Fd) : Option Nat :=
  if s.poller.channels.lookup (fd : Int) = none then none else some (s.channels fd).index.toNat

/-- What a registered channel has in `pollfds_`. -/
def slot (s : State PollPoller) : Fd → Option PollFd :=
  SlotArray.content s.poller.pollfds (slotOf s)

structure Inv (s : State PollPoller) : Prop where
  /-- A registered channel's index is that of its slot, and no slot has another owner. -/
  indexed : SlotArray.Indexed (s.poller.pollfds.map owner) (slotOf s)
  named : ∀ {fd g : Fd}, s.poller.channels.lookup (fd : Int) = some g → g = fd
  valid : ∀ {fd : Fd}, s.poller.channels.lookup (fd : Int) ≠ none → 0 ≤ (s.channels fd).index

section Operations

variable {fd : Fd} {s : State PollPoller} {pfd : PollFd}

theorem slotOf_eq_none : slotOf s fd = none ↔ s.poller.channels.lookup (fd : Int) = none := by
  rw [slotOf]
  split <;> simp_all

theorem Inv.slotOf_index (inv : Inv s) {i : Nat} (found : slotOf s fd = some i) :
    s.poller.channels.lookup (fd : Int) = some fd ∧ (s.channels fd).index = i := by
  rw [slotOf] at found
  split at found
  · cases found
  · rename_i registered
    obtain ⟨g, entry⟩ := Option.ne_none_iff_exists'.mp registered
    obtain rfl := inv.named entry
    have := inv.valid registered
    have := Option.some.inj found
    exact ⟨entry, by omega⟩

/-- Changing the events of a channel touches nothing the pollers keep. -/
theorem setEvents_inv (inv : Inv s) (fd : Fd) (events : Mask) :
    Inv (s.setEvents fd events) ∧ slot (s.setEvents fd events) = slot s := by
  have index : ∀ g, ((s.setEvents fd events).channels g).index = (s.channels g).index := by
    intro g
    rcases eq_or_ne g fd with rfl | other
    · rw [State.setEvents, State.modify_self]
    · rw [State.setEvents, s.modify_of_ne other]
  have slots : slotOf (s.setEvents fd events) = slotOf s := by
    funext g
    rw [slotOf, slotOf, index]
    rfl
  refine ⟨⟨?_, inv.named, fun registered => ?_⟩, ?_⟩
  · rw [slots]
    exact inv.indexed
  · rw [index]
    exact inv.valid registered
  · rw [slot, slots]
    rfl

/-- The state after the first update of a channel. -/
def pushed (fd : Fd) (s : State PollPoller) : State PollPoller :=
  { s.setIndex fd s.poller.pollfds.length with
    poller := ⟨s.poller.pollfds ++ [⟨fd, (s.channels fd).events, 0⟩],
      s.poller.channels.insert (fd : Int) fd⟩ }

theorem pushed_entry_self : (pushed fd s).poller.channels.lookup (fd : Int) = some fd :=
  AList.lookup_insert _

theorem pushed_entry_of_ne {g : Fd} (other : g ≠ fd) :
    (pushed fd s).poller.channels.lookup (g : Int) = s.poller.channels.lookup (g : Int) :=
  AList.lookup_insert_ne (cast_ne other)

theorem pushed_channel_self :
    (pushed fd s).channels fd = { s.channels fd with index := s.poller.pollfds.length } :=
  Function.update_self ..

theorem pushed_channel_of_ne {g : Fd} (other : g ≠ fd) :
    (pushed fd s).channels g = s.channels g :=
  Function.update_of_ne other ..

theorem updateChannel_eq_pushed (debug : Bool) (index : (s.channels fd).index < 0)
    (no_entry : s.poller.channels.lookup (fd : Int) = none) :
    updateChannel debug fd s = some (pushed fd s) := by
  have position : ∀ pfd : PollFd, ((s.poller.pollfds ++ [pfd]).length : Int) - 1 =
      s.poller.pollfds.length := by
    intro pfd
    rw [List.length_append, List.length_singleton]
    omega
  simp only [updateChannel, if_pos index, assertIf_of debug no_entry, Option.bind_eq_bind,
    Option.bind_some, position]
  rfl

/-- A channel that is updated for the first time gets a slot at the end. -/
theorem updateChannel_new (debug : Bool) (inv : Inv s) (index : (s.channels fd).index < 0) :
    ∃ t, updateChannel debug fd s = some t ∧ Inv t ∧
      (∀ g, (t.channels g).Alike (s.channels g)) ∧
      slot t = Function.update (slot s) fd (some ⟨fd, (s.channels fd).events, 0⟩) := by
  have unregistered : s.poller.channels.lookup (fd : Int) = none := by
    by_contra registered
    have := inv.valid registered
    omega
  have updated := updateChannel_eq_pushed debug index unregistered
  have slots : slotOf (pushed fd s) =
      Function.update (slotOf s) fd (some s.poller.pollfds.length) := by
    funext g
    by_cases same : g = fd
    · subst same
      rw [Function.update_self, slotOf, pushed_entry_self, pushed_channel_self]
      rfl
    · rw [Function.update_of_ne same, slotOf, slotOf, pushed_entry_of_ne same,
        pushed_channel_of_ne same]
  refine ⟨_, updated, ⟨?_, ?_, ?_⟩, ?_, ?_⟩
  · have indexed := inv.indexed.push (slotOf_eq_none.mpr unregistered)
    rw [List.length_map] at indexed
    rw [slots, pushed, List.map_append, List.map_singleton, owner_of_fd rfl]
    exact indexed
  · intro g h entry
    by_cases same : g = fd
    · subst same
      exact (Option.some.inj (pushed_entry_self.symm.trans entry)).symm
    · exact inv.named ((pushed_entry_of_ne same).symm.trans entry)
  · intro g registered
    by_cases same : g = fd
    · subst same
      rw [pushed_channel_self]
      exact Int.natCast_nonneg _
    · rw [pushed_channel_of_ne same]
      exact inv.valid ((pushed_entry_of_ne same).symm.trans_ne registered)
  · intro g
    by_cases same : g = fd
    · subst same
      rw [pushed_channel_self]
      exact ⟨rfl, rfl, rfl, rfl⟩
    · rw [pushed_channel_of_ne same]
      exact .refl _
  · rw [slot, slots]
    exact SlotArray.content_push inv.indexed

/-- A registered channel's slot gets the events and is muted if there are none. -/
theorem updateChannel_slot (debug : Bool) (inv : Inv s) (found : slot s fd = some pfd) :
    ∃ t, updateChannel debug fd s = some t ∧ Inv t ∧ t.channels = s.channels ∧
      slot t = Function.update (slot s) fd (some {
        fd := if (s.channels fd).isNoneEvent then muted fd else pfd.fd
        events := (s.channels fd).events
        revents := 0 }) := by
  obtain ⟨i, at_i, in_place⟩ := Option.bind_eq_some_iff.mp found
  obtain ⟨entry, index⟩ := inv.slotOf_index at_i
  let pfd' : PollFd := {
    fd := if (s.channels fd).isNoneEvent then muted fd else pfd.fd
    events := (s.channels fd).events
    revents := 0 }
  have owned : owner pfd' = fd := by
    by_cases no_event : (s.channels fd).isNoneEvent
    · exact owner_of_muted (if_pos no_event)
    · have same_fd : pfd'.fd = pfd.fd := if_neg no_event
      rw [owner, same_fd]
      exact inv.indexed.owner_content found
  let t : State PollPoller :=
    { s with poller := { s.poller with pollfds := s.poller.pollfds.set i pfd' } }
  have updated : updateChannel debug fd s = some t := by
    have not_new : ¬ ((i : Int) < 0) := by omega
    have registered : s.poller.channels.lookup (fd : Int) ≠ none :=
      entry.trans_ne (Option.some_ne_none fd)
    have bound := (List.getElem?_eq_some_iff.mp in_place).1
    have bears := fd_of_owner (inv.indexed.owner_content found)
    simp only [updateChannel, index, not_new, if_false, assertIf_of debug registered,
      assertIf_of debug entry, assertIf_of debug bound, assertIf_of debug bears,
      Option.bind_eq_bind, Option.bind_some, Int.toNat_natCast, in_place]
    by_cases no_event : (s.channels fd).isNoneEvent
    · simp only [no_event, if_true, t, pfd']
    · simp only [no_event, if_false, t, pfd']
  have owners : t.poller.pollfds.map owner = s.poller.pollfds.map owner := by
    refine List.ext_getElem? fun j => ?_
    simp only [t, List.getElem?_map, List.getElem?_set]
    split
    · rename_i same
      subst same
      have bound := (List.getElem?_eq_some_iff.mp in_place).1
      rw [if_pos bound, in_place, Option.map_some, Option.map_some, owned]
      rw [inv.indexed.owner_content found]
    · rfl
  refine ⟨t, updated, ⟨?_, inv.named, inv.valid⟩, rfl, ?_⟩
  · rw [owners]
    exact inv.indexed
  · exact SlotArray.content_set inv.indexed at_i

/-- The state after the removal of the channel in slot `i`: the last slot moves there. -/
def dropped (fd : Fd) (i : Nat) (back : PollFd) (s : State PollPoller) : State PollPoller :=
  { s.setIndex (owner back) i with
    poller := ⟨SlotArray.swapRemove s.poller.pollfds i, s.poller.channels.erase (fd : Int)⟩ }

variable {i : Nat} {back : PollFd}

theorem dropped_entry_self : (dropped fd i back s).poller.channels.lookup (fd : Int) = none :=
  AList.lookup_erase _ _

theorem dropped_entry_of_ne {g : Fd} (other : g ≠ fd) :
    (dropped fd i back s).poller.channels.lookup (g : Int) = s.poller.channels.lookup (g : Int) :=
  AList.lookup_erase_ne (cast_ne other)

theorem dropped_channel_back :
    (dropped fd i back s).channels (owner back) = { s.channels (owner back) with index := i } :=
  Function.update_self ..

theorem dropped_channel_of_ne {g : Fd} (other : g ≠ owner back) :
    (dropped fd i back s).channels g = s.channels g :=
  Function.update_of_ne other ..

theorem Inv.slotOf_back (inv : Inv s) (at_end : s.poller.pollfds.getLast? = some back) :
    slotOf s (owner back) = some (s.poller.pollfds.length - 1) := by
  rw [List.getLast?_eq_getElem?] at at_end
  rw [inv.indexed, List.getElem?_map, at_end]
  rfl

/-- Both branches of `removeChannel` drop the slot and tell the owner of the last one. -/
theorem removeChannel_eq_dropped (inv : Inv s) (at_i : slotOf s fd = some i)
    (in_place : s.poller.pollfds[i]? = some pfd)
    (at_end : s.poller.pollfds.getLast? = some back) :
    removeChannel false fd s = some (dropped fd i back s) := by
  obtain ⟨-, index⟩ := inv.slotOf_index at_i
  have not_new : ¬ ((i : Int) < 0) := by omega
  simp only [removeChannel, index, not_new, if_false, assertIf_false, Option.bind_eq_bind,
    Option.bind_some, Int.toNat_natCast, in_place, at_end]
  by_cases final : i = s.poller.pollfds.length - 1
  · have itself : owner back = fd := by
      have found : slot s fd = some pfd := Option.bind_eq_some_iff.mpr ⟨i, at_i, in_place⟩
      rw [← inv.indexed.owner_content found]
      rw [List.getLast?_eq_getElem?, ← final, in_place] at at_end
      rw [Option.some.inj at_end]
    have same : s.channels = (dropped fd i back s).channels := by
      funext g
      by_cases moved : g = owner back
      · rw [moved, dropped_channel_back, itself, ← index]
      · rw [dropped_channel_of_ne moved]
    rw [if_pos final, same, ← SlotArray.swapRemove_last, ← final]
    rfl
  · have end_index := inv.slotOf_back at_end
    have other : owner back ≠ fd := by
      intro itself
      rw [itself, at_i] at end_index
      exact final (Option.some.inj end_index)
    have entry : (s.poller.channels.erase (fd : Int)).lookup (owner back : Int) =
        some (owner back) :=
      (AList.lookup_erase_ne (cast_ne other)).trans (inv.slotOf_index end_index).1
    rw [if_neg final, owner_cast, entry]
    simp only [dropped, SlotArray.swapRemove, at_end]

theorem slotOf_dropped (inv : Inv s) (at_end : s.poller.pollfds.getLast? = some back) :
    slotOf (dropped fd i back s) =
      Function.update (Function.update (slotOf s) (owner back) (some i)) fd none := by
  funext g
  by_cases removed : g = fd
  · subst removed
    rw [Function.update_self, slotOf_eq_none]
    exact dropped_entry_self
  · rw [Function.update_of_ne removed, slotOf, dropped_entry_of_ne removed]
    by_cases moved : g = owner back
    · subst moved
      rw [Function.update_self, (inv.slotOf_index (inv.slotOf_back at_end)).1,
        dropped_channel_back]
      simp
    · rw [Function.update_of_ne moved, dropped_channel_of_ne moved, slotOf]

theorem Inv.dropped (inv : Inv s) (at_i : slotOf s fd = some i)
    (at_end : s.poller.pollfds.getLast? = some back) : Inv (dropped fd i back s) := by
  refine ⟨?_, ?_, ?_⟩
  · rw [slotOf_dropped inv at_end, PollPoller.dropped, SlotArray.map_swapRemove]
    apply inv.indexed.swapRemove at_i
    rw [List.getLast?_map, at_end]
    rfl
  · intro g h entry
    by_cases removed : g = fd
    · subst removed
      cases dropped_entry_self.symm.trans entry
    · exact inv.named ((dropped_entry_of_ne removed).symm.trans entry)
  · intro g registered
    by_cases moved : g = owner back
    · rw [moved, dropped_channel_back]
      exact Int.natCast_nonneg i
    · rw [dropped_channel_of_ne moved]
      by_cases removed : g = fd
      · subst removed
        exact absurd dropped_entry_self registered
      · exact inv.valid ((dropped_entry_of_ne removed).symm.trans_ne registered)

/-- The slot of a removed channel is given up, and the moved channel keeps its own. -/
theorem removeChannel_slot (inv : Inv s) (found : slot s fd = some pfd) :
    ∃ t, removeChannel false fd s = some t ∧ Inv t ∧
      (∀ g, (t.channels g).Alike (s.channels g)) ∧
      slot t = Function.update (slot s) fd none := by
  obtain ⟨i, at_i, in_place⟩ := Option.bind_eq_some_iff.mp found
  obtain ⟨back, at_end⟩ := SlotArray.exists_last in_place
  refine ⟨_, removeChannel_eq_dropped inv at_i in_place at_end, inv.dropped at_i at_end, ?_, ?_⟩
  · intro g
    by_cases moved : g = owner back
    · rw [moved, dropped_channel_back]
      exact ⟨rfl, rfl, rfl, rfl⟩
    · rw [dropped_channel_of_ne moved]
      exact .refl _
  · rw [slot, slotOf_dropped inv at_end]
    exact SlotArray.content_swapRemove inv.indexed at_i at_end

/-! ### Polling -/

/-- The slots with events, and what is reported of them. -/
def reports (pollfds : List PollFd) : List (Fd × Mask) :=
  (pollfds.filter (·.events.toInt > 0)).map fun pfd => (pfd.fd.toNat, pfd.revents)

/-- Slots with events are not muted. -/
def Unmuted (s : State PollPoller) : Prop :=
  ∀ pfd ∈ s.poller.pollfds, pfd.events.toInt > 0 → 0 ≤ pfd.fd

theorem Inv.known (inv : Inv s) (unmuted : Unmuted s) (mem : pfd ∈ s.poller.pollfds)
    (watched : pfd.events.toInt > 0) :
    pfd.fd.toNat = owner pfd ∧ s.poller.channels.lookup pfd.fd = some pfd.fd.toNat := by
  have nonneg := unmuted pfd mem watched
  have owned : pfd.fd.toNat = owner pfd := by
    rw [owner, if_neg (by omega)]
  obtain ⟨i, at_i, -⟩ := Option.bind_eq_some_iff.mp (inv.indexed.mem_iff_content.mp mem)
  have entry := (inv.slotOf_index at_i).1
  rw [← owned, Int.toNat_of_nonneg nonneg] at entry
  exact ⟨owned, entry⟩

theorem fillActiveChannels_eq (debug : Bool) {pollfds : List PollFd}
    (unmuted : ∀ pfd ∈ pollfds, pfd.events.toInt > 0 → 0 ≤ pfd.fd)
    (known : ∀ pfd ∈ pollfds, pfd.events.toInt > 0 →
      s.poller.channels.lookup pfd.fd = some pfd.fd.toNat) :
    fillActiveChannels debug pollfds s =
      some (s.report (reports pollfds), (reports pollfds).map Prod.fst) := by
  induction pollfds generalizing s with
  | nil => rfl
  | cons pfd pollfds ih =>
      have unmuted' := fun p mem => unmuted p (List.mem_cons_of_mem _ mem)
      have known' := fun p mem => known p (List.mem_cons_of_mem _ mem)
      by_cases watched : pfd.events.toInt > 0
      · have entry := known pfd (List.mem_cons_self ..) watched
        have bears : (pfd.fd.toNat : Int) = pfd.fd :=
          Int.toNat_of_nonneg (unmuted pfd (List.mem_cons_self ..) watched)
        simp only [fillActiveChannels, watched, if_true, entry, assertIf_of debug bears,
          Option.bind_eq_bind, Option.bind_some]
        rw [ih (s := s.setRevents pfd.fd.toNat pfd.revents) unmuted' known']
        simp only [Option.bind_some, reports, List.filter_cons, watched, decide_true, if_true]
        rfl
      · simp only [fillActiveChannels, watched, if_false, ih unmuted' known', reports,
          List.filter_cons, decide_false, Bool.false_eq_true]

theorem reports_nodup (inv : Inv s) (unmuted : Unmuted s) :
    ((reports s.poller.pollfds).map Prod.fst).Nodup := by
  have owners : (reports s.poller.pollfds).map Prod.fst =
      (s.poller.pollfds.filter (·.events.toInt > 0)).map owner := by
    rw [reports, List.map_map]
    refine List.map_congr_left fun pfd mem => ?_
    obtain ⟨mem, watched⟩ := List.mem_filter.mp mem
    exact (inv.known unmuted mem (of_decide_eq_true watched)).1
  rw [owners]
  exact (List.filter_sublist.map owner).nodup inv.indexed.nodup

theorem slotOf_report (rs : List (Fd × Mask)) (s : State PollPoller) :
    slotOf (s.report rs) = slotOf s := by
  funext g
  obtain ⟨revents, changed⟩ := State.report_channel rs s g
  rw [slotOf, slotOf, State.report_poller, changed]

theorem Inv.report (inv : Inv s) (rs : List (Fd × Mask)) : Inv (s.report rs) := by
  refine ⟨?_, ?_, ?_⟩
  · rw [slotOf_report, State.report_poller]
    exact inv.indexed
  · rw [State.report_poller]
    exact inv.named
  · intro g registered
    rw [State.report_poller] at registered
    obtain ⟨revents, changed⟩ := State.report_channel rs s g
    rw [changed]
    exact inv.valid registered

/-- A poll fills in the slots and changes nothing else but `revents_`; the callbacks are
those of the slots with events. -/
theorem poll_eq (inv : Inv s) (unmuted : Unmuted s) (kernel : Kernel) :
    ∃ t active, poll false kernel s = some (t, active) ∧ Inv t ∧
      (∀ g, (t.channels g).Alike (s.channels g)) ∧
      slot t = (fun g => (slot s g).map (kernelPoll kernel)) ∧
      Poller.dispatch t.channels active =
        (reports (s.poller.pollfds.map (kernelPoll kernel))).flatMap fun r =>
          ((s.channels r.1).react r.2).map (r.1, ·) := by
  let polled : State PollPoller :=
    { s with poller := { s.poller with pollfds := s.poller.pollfds.map (kernelPoll kernel) } }
  have filled : slot polled = fun g => (slot s g).map (kernelPoll kernel) := by
    funext g
    simp only [slot, SlotArray.content, polled, List.getElem?_map, Option.map_bind]
    rfl
  have inv' : Inv polled := by
    refine ⟨?_, inv.named, inv.valid⟩
    have owners : polled.poller.pollfds.map owner = s.poller.pollfds.map owner := List.map_map
    rw [owners]
    exact inv.indexed
  have unmuted' : Unmuted polled := by
    intro pfd mem
    obtain ⟨before, mem', rfl⟩ := List.mem_map.mp mem
    exact unmuted before mem'
  rw [poll]
  dsimp only
  split
  · have known : ∀ pfd ∈ polled.poller.pollfds, pfd.events.toInt > 0 →
        polled.poller.channels.lookup pfd.fd = some pfd.fd.toNat :=
      fun _ mem watched => (inv'.known unmuted' mem watched).2
    refine ⟨_, _, fillActiveChannels_eq false unmuted' known, inv'.report _, ?_, ?_, ?_⟩
    · intro g
      obtain ⟨revents, changed⟩ := State.report_channel (reports polled.poller.pollfds) polled g
      rw [changed]
      exact ⟨rfl, rfl, rfl, rfl⟩
    · rw [slot, slotOf_report, State.report_poller]
      exact filled
    · exact Poller.dispatch_report (reports_nodup inv' unmuted') polled
  · rename_i nothing
    refine ⟨_, _, rfl, inv', fun g => .refl _, filled, ?_⟩
    have no_revents : ∀ pfd ∈ polled.poller.pollfds, pfd.revents = 0 := by
      intro pfd mem
      by_contra reported
      exact nothing (List.countP_pos_iff.mpr ⟨pfd, mem, by simpa using reported⟩)
    symm
    rw [Poller.dispatch, List.flatMap_nil, List.flatMap_eq_nil_iff]
    intro r mem
    obtain ⟨pfd, watched, rfl⟩ := List.mem_map.mp mem
    rw [no_revents pfd (List.mem_filter.mp watched).1, Channel.react_zero, List.map_nil]

end Operations

/-- A new channel is enabled without trouble, with or without assertions. -/
theorem registers (debug : Bool) : (poller debug).Registers fun p =>
    ∀ fd : Fd, p.channels.lookup (fd : Int) ≠ none → ∃ pfd ∈ p.pollfds, owner pfd = fd where
  new _ entry := absurd rfl entry
  unknown _ := rfl
  enableReading {s fd} inv fresh unknown := by
    have no_slot : ¬ ∃ pfd ∈ s.poller.pollfds, owner pfd = fd := by
      simpa [poller] using unknown
    have no_entry : s.poller.channels.lookup (fd : Int) = none := by
      by_contra entry
      exact no_slot (inv fd entry)
    let u : State PollPoller := s.setEvents fd ((s.channels fd).events ||| Channel.kReadEvent)
    have index : (u.channels fd).index < 0 :=
      lt_of_eq_of_lt ((congrArg Channel.index (s.setEvents_self fd _)).trans fresh.index)
        (by decide)
    have enabled : (poller debug).enableReading fd s = some (pushed fd u) :=
      updateChannel_eq_pushed debug index no_entry
    refine ⟨_, enabled, fun g entry => ?_, fun g => ?_, fun g other => ?_⟩
    · rcases eq_or_ne g fd with rfl | other
      · exact ⟨_, List.mem_append_right _ (List.mem_singleton_self _), owner_of_fd rfl⟩
      · obtain ⟨pfd, mem, owned⟩ := inv g ((pushed_entry_of_ne other).symm.trans_ne entry)
        exact ⟨pfd, List.mem_append_left _ mem, owned⟩
    · have owned : owner ⟨fd, (u.channels fd).events, 0⟩ = fd := owner_of_fd rfl
      simp only [poller, pushed, List.any_append, List.any_cons, List.any_nil, Bool.or_false,
        Bool.or_eq_true, owned, decide_eq_true_eq]
      rw [eq_comm (a := fd)]
      rfl
    · exact (pushed_channel_of_ne other).trans (s.modify_of_ne other _)

end PollPoller

end Dbdky.Port
