import Mathlib.Data.List.Perm.Basic
import Dbdky.Port.TimerQueue

/-!
Who holds a timer.

* **Ownership (`Owns`).** Every live timer stands at exactly one place: it waits for its
  `addTimerInLoop`, or it has one entry in `timers_` or in the part of the batch that is
  not re-armed yet. The rules say what allocating, filing, re-arming and freeing a timer do
  to the places, and every step of the queue is one of these.
* **Sequence numbers (`Numbered`)** tell a timer from a later one at the same address.
-/

namespace Dbdky.Port.TimerQueue

open Transition

/-! ### Ownership -/

/-- The entries of the batch that are not re-armed or deleted yet. -/
def remaining : Phase → List Entry
  | .idle => []
  | .calling _ called uncalled => called ++ uncalled
  | .resetting _ expired => expired

/-- All entries that refer to a timer. -/
def stored (s : State) : List Entry := s.timers.toList ++ remaining s.phase

/-- The live timers are those that wait in `toAdd` and those with an entry, each once, and
an entry shows the expiration its timer has. -/
structure Owns (heap : Addr → Option Timer) (toAdd : List Addr) (stored : List Entry) : Prop where
  nodup : (toAdd ++ stored.map Entry.timer).Nodup
  live : ∀ a, a ∈ toAdd ++ stored.map Entry.timer ↔ ∃ timer, heap a = some timer
  entries : ∀ e ∈ stored, ∃ timer, heap e.timer = some timer ∧ entry timer e.timer = e

section Owns

variable {heap : Addr → Option Timer} {toAdd toAdd' : List Addr} {stored stored' : List Entry}
  {a : Addr} {e : Entry} {timer : Timer}

theorem Owns.perm (owns : Owns heap toAdd stored) (sameAdd : toAdd.Perm toAdd')
    (same : stored.Perm stored') : Owns heap toAdd' stored' := by
  have places := sameAdd.append (same.map Entry.timer)
  exact ⟨places.nodup_iff.mp owns.nodup, fun b => places.mem_iff.symm.trans (owns.live b),
    fun e mem => owns.entries e (same.mem_iff.mpr mem)⟩

/-- A new timer waits for its `addTimerInLoop`. -/
theorem Owns.allocate (owns : Owns heap toAdd stored) (free : heap a = none) :
    Owns (Function.update heap a (some timer)) (a :: toAdd) stored := by
  have unused : a ∉ toAdd ++ stored.map Entry.timer := by simp [owns.live, free]
  refine ⟨?_, fun b => ?_, fun e mem => ?_⟩
  · rw [List.cons_append, List.nodup_cons]
    exact ⟨unused, owns.nodup⟩
  · rw [List.cons_append, List.mem_cons, owns.live]
    by_cases same : b = a
    · subst same
      simp
    · simp [same]
  · have other : e.timer ≠ a := by
      rintro rfl
      exact unused (List.mem_append_right _ (List.mem_map_of_mem mem))
    rw [Function.update_of_ne other]
    exact owns.entries e mem

/-- A waiting timer gets an entry. -/
theorem Owns.file (owns : Owns heap (a :: toAdd) stored) (held : heap a = some timer) :
    Owns heap toAdd (entry timer a :: stored) := by
  have places : (toAdd ++ (entry timer a :: stored).map Entry.timer).Perm
      (a :: toAdd ++ stored.map Entry.timer) := List.perm_middle
  refine ⟨places.nodup_iff.mpr owns.nodup, fun b => places.mem_iff.trans (owns.live b),
    fun e mem => ?_⟩
  rcases List.mem_cons.mp mem with rfl | mem
  · exact ⟨timer, held, rfl⟩
  · exact owns.entries e mem

/-- The timer of an entry stands at no other place. -/
theorem Owns.unique (owns : Owns heap toAdd (e :: stored)) :
    e.timer ∉ toAdd ++ stored.map Entry.timer := by
  have nodup := List.perm_middle.nodup_iff.mp owns.nodup
  exact (List.nodup_cons.mp nodup).1

theorem Owns.rest (owns : Owns heap toAdd (e :: stored)) :
    (toAdd ++ stored.map Entry.timer).Nodup := by
  have nodup := List.perm_middle.nodup_iff.mp owns.nodup
  exact (List.nodup_cons.mp nodup).2

theorem Owns.live_rest (owns : Owns heap toAdd (e :: stored)) {b : Addr} :
    b ∈ toAdd ++ stored.map Entry.timer ↔ b ≠ e.timer ∧ ∃ timer, heap b = some timer := by
  have all : b ∈ toAdd ++ (e :: stored).map Entry.timer ↔
      b = e.timer ∨ b ∈ toAdd ++ stored.map Entry.timer :=
    List.perm_middle.mem_iff.trans List.mem_cons
  rw [← owns.live, all]
  constructor
  · intro mem
    refine ⟨?_, .inr mem⟩
    rintro rfl
    exact owns.unique mem
  · rintro ⟨other, mem⟩
    exact mem.resolve_left other

theorem Owns.entries_rest (owns : Owns heap toAdd (e :: stored)) {object : Option Timer}
    {f : Entry} (mem : f ∈ stored) :
    ∃ timer, Function.update heap e.timer object f.timer = some timer ∧
      entry timer f.timer = f := by
  have other : f.timer ≠ e.timer := by
    intro same
    exact owns.unique (List.mem_append_right _ (same ▸ List.mem_map_of_mem mem))
  rw [Function.update_of_ne other]
  exact owns.entries f (List.mem_cons_of_mem _ mem)

/-- A timer is deleted, and its entry dropped. -/
theorem Owns.free (owns : Owns heap toAdd (e :: stored)) :
    Owns (Function.update heap e.timer none) toAdd stored := by
  refine ⟨owns.rest, fun b => ?_, fun f mem => owns.entries_rest mem⟩
  rw [owns.live_rest]
  by_cases same : b = e.timer
  · subst same
    simp
  · simp [same]

/-- A timer gets a new expiration, and a new entry with it. -/
theorem Owns.restart (owns : Owns heap toAdd (e :: stored)) :
    Owns (Function.update heap e.timer (some timer)) toAdd (entry timer e.timer :: stored) := by
  have places : (toAdd ++ (entry timer e.timer :: stored).map Entry.timer).Perm
      (e.timer :: (toAdd ++ stored.map Entry.timer)) := List.perm_middle
  refine ⟨?_, fun b => ?_, fun f mem => ?_⟩
  · rw [places.nodup_iff, List.nodup_cons]
    exact ⟨owns.unique, owns.rest⟩
  · rw [places.mem_iff, List.mem_cons, owns.live_rest]
    by_cases same : b = e.timer
    · subst same
      simp
    · simp [same]
  · rcases List.mem_cons.mp mem with rfl | mem
    · exact ⟨timer, by simp, rfl⟩
    · exact owns.entries_rest mem

end Owns

/-- `insert` never enters a timer into `activeTimers_`, so the set stays empty. -/
def Inactive (s : State) : Prop := ∀ x, x ∉ s.activeTimers

theorem eraseActive_subset {heap : Addr → Option Timer} {activeTimers left : OrderedSet ActiveTimer}
    {expired : List Entry} (erased : eraseActive heap activeTimers expired = .ok left)
    {x : ActiveTimer} (mem : x ∈ left) : x ∈ activeTimers := by
  induction expired generalizing activeTimers with
  | nil =>
      cases erased
      exact mem
  | cons e expired ih =>
      obtain ⟨object, -, erased⟩ := bind_eq_ok_iff.mp erased
      exact (OrderedSet.mem_erase.mp (ih erased)).2

theorem step_inactive {s t : State} {l : Label} (inactive : Inactive s)
    (step : machine.step s l = some t) : Inactive t := by
  cases step_cases step with
  | cancelActive _ active _ _ => exact absurd active (inactive _)
  | handleRead _ _ erased => exact fun x mem => inactive x (eraseActive_subset erased mem)
  | _ => exact inactive

/-- The entry `reset` is about to look at. -/
theorem Owns.next {s : State} {now : Int} {e : Entry} {expired : List Entry}
    (owns : Owns s.heap s.toAdd (stored s)) (phase : s.phase = .resetting now (e :: expired)) :
    Owns s.heap s.toAdd (e :: (s.timers.toList ++ expired)) := by
  simp only [stored, phase, remaining] at owns
  exact owns.perm (.refl _) List.perm_middle

/-- No timer is twice in a batch. -/
theorem Owns.batch_nodup {s : State} (owns : Owns s.heap s.toAdd (stored s)) :
    ((remaining s.phase).map Entry.timer).Nodup := by
  have nodup := owns.nodup
  rw [stored, List.map_append, ← List.append_assoc] at nodup
  exact nodup.of_append_right

theorem step_owns {s t : State} {l : Label} (owns : Owns s.heap s.toAdd (stored s))
    (inactive : Inactive s) (step : machine.step s l = some t) :
    Owns t.heap t.toAdd (stored t) := by
  -- a timer that is taken out of `toAdd` and filed in `timers_`
  have file : ∀ {addr : Addr} {object : Timer}, addr ∈ s.toAdd → s.heap addr = some object →
      entry object addr ∉ s.timers → Owns s.heap (s.toAdd.erase addr)
        ((s.timers.insert (entry object addr)).toList ++ remaining s.phase) := by
    intro addr object waits held new
    have split := (owns.perm (List.perm_cons_erase waits) (.refl _)).file held
    exact split.perm (.refl _) ((OrderedSet.perm_insert new).symm.append_right _)
  cases step_cases step with
  | tick | cancelInBatch | cancelNothing | expire => exact owns
  | newTimer _ _ free =>
      exact owns.allocate free |>.perm (List.perm_append_singleton _ _).symm (.refl _)
  | addEarliest _ waits held new _ | addLater _ waits held new _ => exact file waits held new
  | cancelActive _ active _ _ => exact absurd active (inactive _)
  | handleRead phase _ _ =>
      apply owns.perm (.refl _)
      simp only [stored, phase, remaining, List.append_nil, List.nil_append]
      rw [← OrderedSet.below_append_notBelow s.timers (toLex (s.clock, uint32Max))]
      exact List.perm_append_comm
  | run phase _ | reset phase =>
      simp only [stored, phase, remaining] at owns ⊢
      simpa using owns
  | restart phase held _ _ new =>
      exact (owns.next phase).restart.perm (.refl _)
        ((OrderedSet.perm_insert new).symm.append_right _)
  | delete phase _ _ => exact (owns.next phase).free
  | rearmNothing phase _ | rearm phase _ _ _ =>
      simp only [stored, phase, remaining] at owns
      exact owns

/-! ### Sequence numbers -/

theorem update_some_eq_some_iff {heap : Addr → Option Timer} {a b : Addr} {timer other : Timer} :
    Function.update heap a (some timer) b = some other ↔
      b = a ∧ timer = other ∨ b ≠ a ∧ heap b = some other := by
  by_cases same : b = a
  · subst same
    simp
  · simp [same]

theorem update_none_eq_some_iff {heap : Addr → Option Timer} {a b : Addr} {other : Timer} :
    Function.update heap a none b = some other ↔ b ≠ a ∧ heap b = some other := by
  by_cases same : b = a
  · subst same
    simp
  · simp [same]

/-- Every timer that has been created is either deleted, once, or live at one address. -/
structure Numbered (numCreated : Nat) (heap : Addr → Option Timer) (deleted : List TimerId) :
    Prop where
  bound : ∀ a timer, heap a = some timer → 0 < timer.sequence ∧ timer.sequence ≤ numCreated
  distinct : ∀ a b timer other, heap a = some timer → heap b = some other →
    timer.sequence = other.sequence → a = b
  dead : ∀ id ∈ deleted, id.sequence ≤ numCreated ∧
    ∀ a timer, heap a = some timer → timer.sequence ≠ id.sequence
  once : (deleted.map TimerId.sequence).Nodup
  created : ∀ n, 0 < n → n ≤ numCreated →
    (∃ id ∈ deleted, id.sequence = n) ∨ ∃ a timer, heap a = some timer ∧ timer.sequence = n

section Numbered

variable {numCreated : Nat} {heap : Addr → Option Timer} {deleted : List TimerId}
  {a : Addr} {timer timer' : Timer}

/-- A new timer takes the next number. -/
theorem Numbered.allocate (numbered : Numbered numCreated heap deleted) (free : heap a = none)
    (number : timer.sequence = numCreated + 1) :
    Numbered (numCreated + 1) (Function.update heap a (some timer)) deleted := by
  have older : ∀ {b other}, heap b = some other → other.sequence ≠ timer.sequence := by
    intro b other held
    have := numbered.bound b other held
    omega
  constructor
  · intro b other held
    rcases update_some_eq_some_iff.mp held with ⟨-, rfl⟩ | ⟨-, held⟩
    · omega
    · have := numbered.bound b other held
      omega
  · intro b c first second heldB heldC same
    rcases update_some_eq_some_iff.mp heldB with ⟨rfl, rfl⟩ | ⟨-, oldB⟩ <;>
      rcases update_some_eq_some_iff.mp heldC with ⟨rfl, rfl⟩ | ⟨-, oldC⟩
    · rfl
    · exact absurd same.symm (older oldC)
    · exact absurd same (older oldB)
    · exact numbered.distinct b c first second oldB oldC same
  · intro id mem
    obtain ⟨bound, gone⟩ := numbered.dead id mem
    refine ⟨by omega, fun b other held => ?_⟩
    rcases update_some_eq_some_iff.mp held with ⟨-, rfl⟩ | ⟨-, held⟩
    · omega
    · exact gone b other held
  · exact numbered.once
  · intro n positive le
    rcases Nat.lt_or_eq_of_le le with less | rfl
    · apply (numbered.created n positive (by omega)).imp_right
      rintro ⟨b, other, held, same⟩
      refine ⟨b, other, update_some_eq_some_iff.mpr (.inr ⟨?_, held⟩), same⟩
      rintro rfl
      simp [free] at held
    · exact .inr ⟨a, timer, update_some_eq_some_iff.mpr (.inl ⟨rfl, rfl⟩), number⟩

/-- A timer keeps its number for life. -/
theorem Numbered.restart (numbered : Numbered numCreated heap deleted) (held : heap a = some timer)
    (number : timer'.sequence = timer.sequence) :
    Numbered numCreated (Function.update heap a (some timer')) deleted := by
  -- the timers of the new heap, with the old ones they stand for
  have old : ∀ {b other}, Function.update heap a (some timer') b = some other →
      ∃ before, heap b = some before ∧ before.sequence = other.sequence := by
    intro b other held'
    rcases update_some_eq_some_iff.mp held' with ⟨rfl, rfl⟩ | ⟨-, held'⟩
    · exact ⟨timer, held, number.symm⟩
    · exact ⟨other, held', rfl⟩
  constructor
  · intro b other held'
    obtain ⟨before, held', same⟩ := old held'
    rw [← same]
    exact numbered.bound b before held'
  · intro b c first second heldB heldC same
    obtain ⟨before, heldB, sameB⟩ := old heldB
    obtain ⟨before', heldC, sameC⟩ := old heldC
    exact numbered.distinct b c before before' heldB heldC (by omega)
  · intro id mem
    obtain ⟨bound, gone⟩ := numbered.dead id mem
    refine ⟨bound, fun b other held' => ?_⟩
    obtain ⟨before, held', same⟩ := old held'
    rw [← same]
    exact gone b before held'
  · exact numbered.once
  · intro n positive le
    apply (numbered.created n positive le).imp_right
    rintro ⟨b, other, held', rfl⟩
    by_cases same : b = a
    · subst same
      obtain rfl : timer = other := Option.some.inj (held.symm.trans held')
      exact ⟨b, timer', by simp, number⟩
    · exact ⟨b, other, update_some_eq_some_iff.mpr (.inr ⟨same, held'⟩), rfl⟩

/-- The number of a deleted timer is not live any more. -/
theorem Numbered.free (numbered : Numbered numCreated heap deleted) (held : heap a = some timer) :
    Numbered numCreated (Function.update heap a none) (deleted ++ [⟨a, timer.sequence⟩]) := by
  have alive : timer.sequence ∉ deleted.map TimerId.sequence := by
    intro mem
    obtain ⟨id, mem, same⟩ := List.mem_map.mp mem
    exact (numbered.dead id mem).2 a timer held same.symm
  constructor
  · exact fun b other held' => numbered.bound b other (update_none_eq_some_iff.mp held').2
  · intro b c first second heldB heldC
    exact numbered.distinct b c first second (update_none_eq_some_iff.mp heldB).2
      (update_none_eq_some_iff.mp heldC).2
  · intro id mem
    rcases List.mem_append.mp mem with mem | mem
    · obtain ⟨bound, gone⟩ := numbered.dead id mem
      exact ⟨bound, fun b other held' => gone b other (update_none_eq_some_iff.mp held').2⟩
    · obtain rfl := List.mem_singleton.mp mem
      refine ⟨(numbered.bound a timer held).2, fun b other held' same => ?_⟩
      obtain ⟨elsewhere, held'⟩ := update_none_eq_some_iff.mp held'
      exact elsewhere (numbered.distinct b a other timer held' held same)
  · rw [List.map_append, List.nodup_append]
    refine ⟨numbered.once, by simp, fun n mem m single => ?_⟩
    obtain rfl : m = timer.sequence := by simpa using single
    rintro rfl
    exact alive mem
  · intro n positive le
    rcases numbered.created n positive le with ⟨id, mem, rfl⟩ | ⟨b, other, held', rfl⟩
    · exact .inl ⟨id, List.mem_append_left _ mem, rfl⟩
    · by_cases same : b = a
      · subst same
        obtain rfl : timer = other := Option.some.inj (held.symm.trans held')
        exact .inl ⟨_, List.mem_append_right _ (List.mem_singleton_self _), rfl⟩
      · exact .inr ⟨b, other, update_none_eq_some_iff.mpr ⟨same, held'⟩, rfl⟩

end Numbered

@[simp] theorem restart_sequence (timer : Timer) (now : Int) :
    (timer.restart now).sequence = timer.sequence := by
  unfold Timer.restart
  split <;> rfl

theorem step_numbered {s t : State} {l : Label} (numbered : Numbered s.numCreated s.heap s.deleted)
    (inactive : Inactive s) (step : machine.step s l = some t) :
    Numbered t.numCreated t.heap t.deleted := by
  cases step_cases step with
  | newTimer _ _ free => exact numbered.allocate free rfl
  | cancelActive _ active _ _ => exact absurd active (inactive _)
  | restart _ held _ _ _ => exact numbered.restart held (restart_sequence _ _)
  | delete _ held _ => exact numbered.free held
  | _ => exact numbered

end Dbdky.Port.TimerQueue
