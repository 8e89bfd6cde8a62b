import Dbdky.Port.TimerLifecycle

/-!
`timers_` and `activeTimers_`, which should hold the same timers under two keys.

`insert` enters a timer into `timers_` only, and `activeTimers_` stays empty.

* **`insert_new`.** What `insert` enters into `timers_` is new, in every run.
* **`sets_correspond_iff`.** The sets correspond throughout a run, and every erase finds its
  element, exactly if the run inserts no timer at all.
-/

namespace Dbdky.Port.TimerQueue

open Transition

/-- Outside of `reset`, the sets hold the same timers. -/
def Corresponds (s : State) : Prop :=
  (∀ now expired, s.phase ≠ .resetting now expired) →
    (∀ addr timer, s.heap addr = some timer →
      (toLex (addr, timer.sequence) ∈ s.activeTimers ↔ entry timer addr ∈ s.timers)) ∧
    s.activeTimers.toList.length = s.timers.toList.length

/-- Every round of the loop in `getExpired` erases one element. -/
def ErasesEach (heap : Addr → Option Timer) (activeTimers : OrderedSet ActiveTimer) :
    List Entry → Prop
  | [] => True
  | e :: expired => ∀ timer, heap e.timer = some timer →
      toLex (e.timer, timer.sequence) ∈ activeTimers ∧
        ErasesEach heap (activeTimers.erase (toLex (e.timer, timer.sequence))) expired

/-- What is inserted is new, and what is erased is there. -/
def Exact : Guard State Label
  | s, .addTimerInLoop addr => mayOperate s.phase = true → addr ∈ s.toAdd →
      ∀ timer, s.heap addr = some timer → entry timer addr ∉ s.timers
  | s, .cancelInLoop timerId => mayOperate s.phase = true → timerId.active ∈ s.activeTimers →
      ∀ timer, s.heap timerId.timer = some timer → entry timer timerId.timer ∈ s.timers
  | s, .handleRead => s.phase = .idle →
      ErasesEach s.heap s.activeTimers (s.timers.below (toLex (s.clock, uint32Max)))
  | s, .resetNext => ∀ now e expired, s.phase = .resetting now (e :: expired) →
      ∀ timer, s.heap e.timer = some timer → timer.repeats = true →
        toLex (e.timer, timer.sequence) ∉ s.cancelingTimers →
        entry (timer.restart now) e.timer ∉ s.timers
  | _, _ => True

def NoInsertion : Guard State Label := fun _ l => ∀ addr, l ≠ .addTimerInLoop addr

/-! ### What `insert` enters is new -/

section Sets

variable {s t : State} {l : Label}

/-- A timer that waits has no entry. -/
theorem Owns.not_mem_of_waits (owns : Owns s.heap s.toAdd (stored s)) {addr : Addr}
    (waits : addr ∈ s.toAdd) {e : Entry} (mem : e ∈ stored s) : e.timer ≠ addr := by
  rintro rfl
  have apart := (List.nodup_append.mp owns.nodup).2.2
  exact apart _ waits _ (List.mem_map_of_mem mem) rfl

/-- A timer that is re-armed has no other entry. -/
theorem Owns.not_mem_of_next (owns : Owns s.heap s.toAdd (stored s)) {now : Int} {e : Entry}
    {expired : List Entry} (phase : s.phase = .resetting now (e :: expired)) {f : Entry}
    (mem : f ∈ s.timers) : f.timer ≠ e.timer := by
  intro same
  apply (owns.next phase).unique
  have mem : f ∈ s.timers.toList ++ expired := List.mem_append_left _ mem
  exact List.mem_append_right _ (same ▸ List.mem_map_of_mem mem)

/-- **`insert` enters a new element into `timers_`**, for a waiting timer as for one that is
re-armed: its assertion holds. -/
theorem insert_new (reach : machine.Reachable s) :
    (∀ addr, Exact s (.addTimerInLoop addr)) ∧ Exact s .resetNext := by
  have owns := (reachable_inv reach).owns
  constructor
  · intro addr _ waits timer _ mem
    exact owns.not_mem_of_waits waits (List.mem_append_left _ mem) rfl
  · intro now e expired phase timer _ _ _ mem
    exact owns.not_mem_of_next phase mem rfl

/-! ### No timer at all -/

structure Vacant (s : State) : Prop where
  timers : s.timers.toList = []
  inactive : Inactive s
  batch : remaining s.phase = []

theorem Inactive.corresponds_iff (inactive : Inactive s)
    (outside : ∀ now expired, s.phase ≠ .resetting now expired) :
    Corresponds s ↔ s.timers.toList = [] := by
  have none_active : s.activeTimers.toList = [] := List.eq_nil_iff_forall_not_mem.mpr inactive
  constructor
  · intro corresponds
    have same := (corresponds outside).2
    rw [none_active] at same
    exact List.eq_nil_of_length_eq_zero same.symm
  · intro empty _
    refine ⟨fun addr timer _ => iff_of_false (inactive _) ?_, ?_⟩
    · intro mem
      rw [← OrderedSet.mem_toList, empty] at mem
      cases mem
    · rw [none_active, empty]
      rfl

theorem Vacant.corresponds (vacant : Vacant s) : Corresponds s :=
  fun outside => (vacant.inactive.corresponds_iff outside).mpr vacant.timers outside

theorem Vacant.exact (vacant : Vacant s) (l : Label) : Exact s l := by
  have no_entry : ∀ e, e ∉ s.timers := List.eq_nil_iff_forall_not_mem.mp vacant.timers
  cases l with
  | addTimerInLoop addr => exact fun _ _ _ _ => no_entry _
  | cancelInLoop timerId => exact fun _ active => absurd active (vacant.inactive _)
  | handleRead =>
      intro _
      rw [OrderedSet.below, vacant.timers]
      trivial
  | resetNext => exact fun _ _ _ _ _ _ _ _ => no_entry _
  | _ => trivial

theorem step_vacant (vacant : Vacant s) (no_insertion : NoInsertion s l)
    (step : machine.step s l = some t) : Vacant t := by
  obtain ⟨timers, inactive, batch⟩ := vacant
  have inactive' := step_inactive inactive step
  cases step_cases step with
  | addEarliest | addLater => exact absurd rfl (no_insertion _)
  | cancelActive _ active _ _ => exact absurd active (inactive _)
  | handleRead phase _ _ =>
      have split := OrderedSet.below_append_notBelow s.timers (toLex (s.clock, uint32Max))
      rw [timers] at split
      obtain ⟨none_below, none_left⟩ := List.append_eq_nil_iff.mp split
      exact ⟨none_left, inactive', none_below⟩
  | run phase _ | restart phase _ _ _ _ | delete phase _ _ =>
      rw [phase] at batch
      simp [remaining] at batch
  | reset phase =>
      rw [phase] at batch
      exact ⟨timers, inactive', (List.append_eq_nil_iff.mp batch).1⟩
  | rearmNothing _ _ | rearm _ _ _ _ => exact ⟨timers, inactive', rfl⟩
  | _ => exact ⟨timers, inactive', batch⟩

/-- An insertion ends the correspondence. -/
theorem not_corresponds_of_insertion {addr : Addr} (inactive : Inactive s)
    (step : machine.step s (.addTimerInLoop addr) = some t) : ¬ Corresponds t := by
  have inactive' := step_inactive inactive step
  intro corresponds
  cases step_cases step with
  | addEarliest allowed _ _ _ _ | addLater allowed _ _ _ _ =>
      have outside : ∀ now expired, s.phase ≠ .resetting now expired := by
        intro now expired phase
        rw [phase] at allowed
        cases allowed
      have empty := (inactive'.corresponds_iff outside).mp corresponds
      exact List.eq_nil_iff_forall_not_mem.mp empty _ (OrderedSet.mem_insert.mpr (.inl rfl))

end Sets

/-- **The sets correspond exactly if the run inserts no timer.** -/
theorem sets_correspond_iff {s t : State} (initial : machine.init s) {ls : List Label}
    (run : machine.run s ls = some t) :
    (machine.Keeps Corresponds s ls ∧ ∀ l, machine.Meets Exact s (ls ++ [l])) ↔
      ∀ addr, .addTimerInLoop addr ∉ ls := by
  have start : Vacant s := by
    obtain ⟨clock, -, rfl⟩ := initial
    exact ⟨rfl, OrderedSet.not_mem_empty, rfl⟩
  have keep : ∀ s l t, Vacant s → NoInsertion s l → machine.step s l = some t → Vacant t :=
    fun _ _ _ => step_vacant
  have no_insertion_iff : machine.Meets NoInsertion s ls ↔ ∀ addr, .addTimerInLoop addr ∉ ls := by
    refine (Machine.meets_label_iff run).trans
      ⟨fun absent addr mem => ?_, fun absent l mem addr => ?_⟩
    · exact absent _ mem addr rfl
    · rintro rfl
      exact absent addr mem
  have keeps_iff : machine.Keeps Corresponds s ls ↔ machine.Meets NoInsertion s ls := by
    refine Machine.keeps_iff_meets_of_invariant (fun _ => Vacant.corresponds) keep ?_ start run
    rintro s l t vacant step corresponds addr rfl
    exact not_corresponds_of_insertion vacant.inactive step corresponds
  rw [keeps_iff, ← no_insertion_iff]
  refine and_iff_left_of_imp fun meets l => ?_
  rw [Machine.meets_append_iff]
  refine ⟨Machine.meets_of_invariant (fun _ l vacant => vacant.exact l) keep start meets, ?_⟩
  intro u run
  -- the step that is tried last may be any, and need not be enabled
  have vacant := (Machine.leadsWhere_of_run ls meets run).invariant start keep
  exact ⟨vacant.exact l, fun _ _ => trivial⟩

/-- Without a timer, `handleRead` and a cancel do no harm. -/
theorem sets_correspond_iff_idle :
    let ls : List Label := [.tick 5, .cancelInLoop ⟨16, 1⟩, .handleRead, .reset, .rearm]
    machine.Keeps Corresponds (.new 1) ls ∧ ∀ l, machine.Meets Exact (.new 1) (ls ++ [l]) := by
  intro ls
  obtain ⟨t, run⟩ : ∃ t, machine.run (.new 1) ls = some t := ⟨_, rfl⟩
  exact (sets_correspond_iff ⟨1, by decide, rfl⟩ run).mpr fun addr => by simp [ls]

/-- One timer is added. -/
theorem sets_differ : ∃ s ls t, machine.init s ∧ machine.run s ls = some t ∧
    ¬ machine.Keeps Corresponds s ls := by
  refine ⟨.new 1, [.newTimer 16 5 ⟨false, 0, nofun⟩, .addTimerInLoop 16], _,
    ⟨1, by decide, rfl⟩, rfl, ?_⟩
  rintro ⟨-, allocated, step, -, added, step', corresponds⟩
  cases step
  cases step'
  have same := (corresponds fun _ _ => nofun).2
  exact absurd same (by decide)

end Dbdky.Port.TimerQueue
