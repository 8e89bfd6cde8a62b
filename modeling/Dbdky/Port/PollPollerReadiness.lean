import Dbdky.Port.PollPollerSlots

/-!
Which channels `PollPoller` reports.

`fillActiveChannels` tests `events` where the kernel's answer is in `revents`, so it reports
every channel that has events enabled as soon as one channel is ready.

* **`reports_ready_iff`.** The ready channels are reported, and no others, if and only if none
  is ready, or those that are ready are those that have events.
-/

namespace Dbdky.Port

open Poller (State)

/-- The assertion of `EventLoop::removeChannel` -/
def EventLoop.mayRemove (eventHandling : Bool) (currentActiveChannel : Option Fd)
    (activeChannels : List Fd) (channel : Fd) : Prop :=
  eventHandling = true → currentActiveChannel = some channel ∨ channel ∉ activeChannels

namespace PollPoller

/-- `numEvents`, from what `::poll` has written to the slots -/
def numEvents (s : State PollPoller) : Nat := s.poller.pollfds.countP fun pfd => pfd.revents ≠ 0

/-- `poll`, from where `::poll` has returned on -/
def afterPoll (debug : Bool) (s : State PollPoller) : Option (State PollPoller × List Fd) :=
  if numEvents s > 0 then fillActiveChannels debug s.poller.pollfds s else some (s, [])

theorem poll_eq_afterPoll (debug : Bool) (kernel : Kernel) (s : State PollPoller) :
    poll debug kernel s = afterPoll debug { s with
      poller := { s.poller with pollfds := s.poller.pollfds.map (kernelPoll kernel) } } := rfl

/-- The active channels are those that are ready, each once and with its `revents_`, and a
handler may remove any other channel. -/
structure ReportsReady (s t : State PollPoller) (active : List Fd) : Prop where
  nodup : active.Nodup
  ready : ∀ fd, fd ∈ active ↔ ∃ pfd, slot s fd = some pfd ∧ pfd.revents ≠ 0
  revents : ∀ fd pfd, slot s fd = some pfd → pfd.revents ≠ 0 →
    (t.channels fd).revents = pfd.revents
  length : active.length = numEvents s
  removable : ∀ fd pfd, slot s fd = some pfd → pfd.revents = 0 → ∀ current ∈ active,
    EventLoop.mayRemove true (some current) active fd

variable {debug : Bool} {s t : State PollPoller} {fd : Fd} {pfd : PollFd} {active : List Fd}

/-- What is reported of a slot with events. -/
theorem Represents.shows_mem (represents : Represents s) (mem : pfd ∈ s.poller.pollfds) :
    Shows (s.channels (owner pfd)) (owner pfd) pfd :=
  (represents.shows_slot (represents.inv.indexed.mem_iff_content.mp mem)).2

theorem Represents.unmuted (represents : Represents s) : Unmuted s := by
  intro pfd mem watched
  have shows := represents.shows_mem mem
  have some_event : ¬ (s.channels (owner pfd)).isNoneEvent := by
    intro no_event
    rw [shows.events, no_event] at watched
    exact absurd watched (by decide)
  rw [shows.fd, if_neg some_event]
  exact Int.natCast_nonneg _

theorem Represents.fillActiveChannels_eq (represents : Represents s) (debug : Bool) :
    fillActiveChannels debug s.poller.pollfds s =
      some (s.report (reports s.poller.pollfds), (reports s.poller.pollfds).map Prod.fst) :=
  PollPoller.fillActiveChannels_eq debug represents.unmuted
    fun _ mem watched => (represents.inv.known represents.unmuted mem watched).2

theorem Represents.mem_reports (represents : Represents s) (found : slot s fd = some pfd)
    (watched : pfd.events.toInt > 0) : (fd, pfd.revents) ∈ reports s.poller.pollfds := by
  have owned := represents.inv.indexed.owner_content found
  have mem : pfd ∈ s.poller.pollfds := represents.inv.indexed.mem_iff_content.mpr (owned ▸ found)
  refine List.mem_map.mpr ⟨pfd, List.mem_filter.mpr ⟨mem, decide_eq_true watched⟩, ?_⟩
  rw [(represents.inv.known represents.unmuted mem watched).1, owned]

/-- The channels with events are reported. -/
theorem Represents.mem_active_iff (represents : Represents s) :
    fd ∈ (reports s.poller.pollfds).map Prod.fst ↔
      ∃ pfd, slot s fd = some pfd ∧ pfd.events.toInt > 0 := by
  constructor
  · intro active
    obtain ⟨⟨_, revents⟩, reported, rfl⟩ := List.mem_map.mp active
    obtain ⟨pfd, shown, ⟨⟩⟩ := List.mem_map.mp reported
    obtain ⟨mem, watched⟩ := List.mem_filter.mp shown
    have watched : pfd.events.toInt > 0 := of_decide_eq_true watched
    refine ⟨pfd, ?_, watched⟩
    rw [(represents.inv.known represents.unmuted mem watched).1]
    exact represents.inv.indexed.mem_iff_content.mp mem
  · rintro ⟨pfd, found, watched⟩
    exact List.mem_map.mpr ⟨_, represents.mem_reports found watched, rfl⟩

/-- Every slot is the one of a registered channel. -/
theorem Represents.slot_owner (represents : Represents s) (mem : pfd ∈ s.poller.pollfds) :
    slot s (owner pfd) = some pfd :=
  represents.inv.indexed.mem_iff_content.mp mem

theorem Represents.mem_of_slot (represents : Represents s) (found : slot s fd = some pfd) :
    pfd ∈ s.poller.pollfds :=
  represents.inv.indexed.mem_iff_content.mpr (represents.inv.indexed.owner_content found ▸ found)

/-- The slots with events are those the kernel has reported something of. -/
def EventsTell (s : State PollPoller) : Prop :=
  ∀ pfd ∈ s.poller.pollfds, pfd.revents ≠ 0 ↔ pfd.events.toInt > 0

theorem length_reports (tell : EventsTell s) :
    ((reports s.poller.pollfds).map Prod.fst).length = numEvents s := by
  rw [List.length_map, reports, List.length_map, ← List.countP_eq_length_filter]
  refine List.countP_congr fun pfd mem => ?_
  simp only [decide_eq_true_eq, tell pfd mem]

theorem reportsReady_of_tell (represents : Represents s) (tell : EventsTell s) :
    ReportsReady s (s.report (reports s.poller.pollfds))
      ((reports s.poller.pollfds).map Prod.fst) := by
  have nodup := reports_nodup represents.inv represents.unmuted
  have ready : ∀ fd, fd ∈ (reports s.poller.pollfds).map Prod.fst ↔
      ∃ pfd, slot s fd = some pfd ∧ pfd.revents ≠ 0 := by
    intro fd
    rw [represents.mem_active_iff]
    refine exists_congr fun pfd => and_congr_right fun found => ?_
    exact (tell pfd (represents.mem_of_slot found)).symm
  refine ⟨nodup, ready, ?_, length_reports tell, ?_⟩
  · intro fd pfd found reported
    have watched := (tell pfd (represents.mem_of_slot found)).mp reported
    exact State.report_of_mem nodup (represents.mem_reports found watched)
  · intro fd pfd found quiet current _ _
    refine .inr fun active => ?_
    obtain ⟨pfd', found', reported⟩ := (ready fd).mp active
    obtain rfl := Option.some.inj (found.symm.trans found')
    exact reported quiet

/-- Nothing is reported where nothing is ready. -/
theorem reportsReady_of_quiet (represents : Represents s)
    (quiet : ∀ pfd ∈ s.poller.pollfds, pfd.revents = 0) : ReportsReady s s [] := by
  have none_ready : ∀ fd pfd, slot s fd = some pfd → pfd.revents = 0 :=
    fun fd pfd found => quiet pfd (represents.mem_of_slot found)
  constructor
  · exact List.nodup_nil
  · intro fd
    refine iff_of_false List.not_mem_nil ?_
    rintro ⟨pfd, found, reported⟩
    exact reported (none_ready fd pfd found)
  · intro fd pfd found reported
    exact absurd (none_ready fd pfd found) reported
  · refine (List.countP_eq_zero.mpr fun pfd mem => ?_).symm
    simp only [quiet pfd mem, ne_eq, not_true, decide_false, Bool.false_eq_true, not_false_iff]
  · intro fd pfd _ _ current none
    cases none

theorem numEvents_eq_zero : numEvents s = 0 ↔ ∀ pfd ∈ s.poller.pollfds, pfd.revents = 0 := by
  rw [numEvents, List.countP_eq_zero]
  simp only [ne_eq, decide_eq_true_eq, not_not]

/-- What the scan reports is right only if the events tell. -/
theorem tell_of_reportsReady (represents : Represents s)
    (reported : ReportsReady s t ((reports s.poller.pollfds).map Prod.fst)) : EventsTell s := by
  intro pfd mem
  have found := represents.slot_owner mem
  have same : (∃ pfd', slot s (owner pfd) = some pfd' ∧ pfd'.revents ≠ 0) ↔
      ∃ pfd', slot s (owner pfd) = some pfd' ∧ pfd'.events.toInt > 0 :=
    (reported.ready _).symm.trans represents.mem_active_iff
  simpa only [found, Option.some.injEq, exists_eq_left'] using same

/-- **The ready channels are reported**, and no others, if and only if there are none or they
are those that have events. -/
theorem reports_ready_iff (represents : Represents s) :
    (∃ t active, afterPoll debug s = some (t, active) ∧ ReportsReady s t active) ↔
      (∀ pfd ∈ s.poller.pollfds, pfd.revents = 0) ∨
        ∀ pfd ∈ s.poller.pollfds, pfd.revents ≠ 0 ↔ pfd.events.toInt > 0 := by
  rw [afterPoll, ← numEvents_eq_zero]
  split
  · rename_i some_ready
    rw [or_iff_right (Nat.ne_of_gt some_ready), represents.fillActiveChannels_eq]
    constructor
    · rintro ⟨t, active, ⟨⟩, reported⟩
      exact tell_of_reportsReady represents reported
    · intro tell
      exact ⟨_, _, rfl, reportsReady_of_tell represents tell⟩
  · rename_i none_ready
    have none_ready : numEvents s = 0 := Nat.eq_zero_of_not_pos none_ready
    refine iff_of_true ⟨s, [], rfl, ?_⟩ (.inl none_ready)
    exact reportsReady_of_quiet represents (numEvents_eq_zero.mp none_ready)

/-- One channel watched for reading and one for writing, after `::poll`. -/
def readerAndWriter (revents revents' : Mask) : State PollPoller where
  channels fd :=
    if fd = 3 then { Channel.unused with events := Channel.kReadEvent, index := 0 }
    else if fd = 5 then { Channel.unused with events := Channel.kWriteEvent, index := 1 }
    else .unused
  poller :=
    ⟨[⟨3, Channel.kReadEvent, revents⟩, ⟨5, Channel.kWriteEvent, revents'⟩],
      ((∅ : AList fun _ : Int => Fd).insert 3 3).insert 5 5⟩

theorem readerAndWriter_lookup {revents revents' : Mask} {key : Int} {g : Fd}
    (entry : (readerAndWriter revents revents').poller.channels.lookup key = some g) :
    key = 3 ∧ g = 3 ∨ key = 5 ∧ g = 5 := by
  simp only [readerAndWriter] at entry
  rcases eq_or_ne key 5 with rfl | not_writer
  · rw [AList.lookup_insert] at entry
    exact .inr ⟨rfl, (Option.some.inj entry).symm⟩
  · rw [AList.lookup_insert_ne not_writer] at entry
    rcases eq_or_ne key 3 with rfl | not_reader
    · rw [AList.lookup_insert] at entry
      exact .inl ⟨rfl, (Option.some.inj entry).symm⟩
    · rw [AList.lookup_insert_ne not_reader] at entry
      cases entry

theorem readerAndWriter_represents (revents revents' : Mask) :
    Represents (readerAndWriter revents revents') := by
  constructor
  · intro key g entry
    rcases readerAndWriter_lookup entry with ⟨rfl, rfl⟩ | ⟨rfl, rfl⟩ <;> rfl
  · rfl
  · intro fd registered
    rcases readerAndWriter_lookup registered with ⟨-, rfl⟩ | ⟨-, rfl⟩
    · exact ⟨0, _, rfl, rfl, rfl, rfl⟩
    · exact ⟨1, _, rfl, rfl, rfl, rfl⟩
  · intro fd g registered registered' same
    rcases readerAndWriter_lookup registered with ⟨-, rfl⟩ | ⟨-, rfl⟩ <;>
      rcases readerAndWriter_lookup registered' with ⟨-, rfl⟩ | ⟨-, rfl⟩ <;>
      first | rfl | cases same

theorem reports_ready_iff_both :
    (∃ t active, afterPoll true (readerAndWriter POLLIN POLLOUT) = some (t, active) ∧
      ReportsReady (readerAndWriter POLLIN POLLOUT) t active) ↔
      (∀ pfd ∈ (readerAndWriter POLLIN POLLOUT).poller.pollfds, pfd.revents = 0) ∨
        ∀ pfd ∈ (readerAndWriter POLLIN POLLOUT).poller.pollfds,
          pfd.revents ≠ 0 ↔ pfd.events.toInt > 0 :=
  reports_ready_iff (readerAndWriter_represents _ _)

/-- Only the reader is ready, and the writer is reported with it: a handler of the reader may
not remove it. -/
theorem idle_writer_reported :
    ∃ s, Represents s ∧ numEvents s = 1 ∧ ∃ t, afterPoll true s = some (t, [3, 5]) ∧
      ¬ EventLoop.mayRemove true (some 3) [3, 5] 5 ∧
      ¬ ∃ t active, afterPoll true s = some (t, active) ∧ ReportsReady s t active := by
  refine ⟨readerAndWriter POLLIN 0, readerAndWriter_represents _ _, rfl, _, rfl, ?_, ?_⟩
  · intro allowed
    rcases allowed rfl with same | absent
    · cases same
    · exact absurd (List.mem_cons_of_mem 3 (List.mem_singleton_self 5)) absent
  · rintro ⟨t, active, ⟨⟩, reported⟩
    cases reported.length

end PollPoller

end Dbdky.Port
