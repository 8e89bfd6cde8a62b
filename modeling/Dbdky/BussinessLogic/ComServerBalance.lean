import Mathlib.Data.Int.CardIntervalMod
import Dbdky.BussinessLogic.ComServerChannels

/-!
Which loops the entities of a `ComServer` go to (`EventLoopThreadPool::getNextLoop`).

* **`entities_balanced`.** The entities that are created before the threads of the pool start go
  to the base loop, and all later ones to the loops of the pool in turn: no loop of the pool has
  more than one more than another.
-/

namespace Dbdky.ComServer

open Transition Port

variable {σ : Type} {P : Poller σ} {s t : State σ}

/-- The number of loops in the pool. -/
def State.poolSize (s : State σ) : Nat := s.loops.length - 1

/-- The loops of the entities, in the order in which they were created. -/
def State.homes (s : State σ) : List Nat := s.entities.map ComEntity.loop

/-- `m` turns of a pool of `size` loops, after `k` entities of the base loop. -/
def rota (size k m : Nat) : List Nat :=
  List.replicate k 0 ++ (List.range m).map fun i => i % size + 1

/-! ### What a step does to the rota -/

/-- What bears on the rota is the same. -/
structure SameTurn (s t : State σ) : Prop where
  loops : t.loops.length = s.loops.length
  started : t.started = s.started
  entities : t.entities = s.entities
  next : t.next = s.next

/-- An entity has been created on the loop whose turn it was. -/
structure Created (s t : State σ) : Prop where
  loops : t.loops.length = s.loops.length
  started : t.started = s.started
  entities : ∃ fd, t.entities = s.entities ++ [⟨(getNextLoop s).1, fd⟩]
  next : t.next = (getNextLoop s).2

theorem SameTurn.trans {u : State σ} (first : SameTurn s t) (second : SameTurn t u) :
    SameTurn s u :=
  ⟨second.loops.trans first.loops, second.started.trans first.started,
    second.entities.trans first.entities, second.next.trans first.next⟩

theorem SameTurn.setLoop (s : State σ) (l : Nat) (loop : Loop σ) : SameTurn s (s.setLoop l loop) :=
  ⟨List.length_set, rfl, rfl, rfl⟩

theorem SameTurn.poolSize (same : SameTurn s t) : t.poolSize = s.poolSize :=
  congrArg (· - 1) same.loops

theorem Touched.sameTurn (touched : Touched s t) : SameTurn s t := by
  rcases touched with rfl | ⟨l, loop, loop', -, rfl, -⟩
  · exact ⟨rfl, rfl, rfl, rfl⟩
  · exact .setLoop s l loop'

/-- A step starts the pool, creates an entity, or leaves the rota as it is. -/
inductive TurnStep (P : Poller σ) (s t : State σ) : Prop where
  | start (numThreads : Nat) (unstarted : s.started = false) (is_start : t = start P numThreads s)
  | created (created : Created s t)
  | same (same : SameTurn s t)

theorem step_turn {label : Label} (step : (machine P).step s label = some t) :
    TurnStep P s t := by
  have step : ComServer.step P s label = some t := step
  cases label with
  | start numThreads =>
      obtain ⟨-, ⟨⟩⟩ := Option.ite_none_right_eq_some.mp step
      cases started : s.started with
      | false => exact .start numThreads started rfl
      | true =>
          have again : start P numThreads s = s := if_pos started
          rw [again]
          exact .same ⟨rfl, rfl, rfl, rfl⟩
  | create entityName fd =>
      obtain ⟨-, step⟩ := Option.ite_none_right_eq_some.mp step
      rw [createComEntityAndInsert] at step
      split at step
      · cases step
        exact .same ⟨rfl, rfl, rfl, rfl⟩
      · have same := (runInLoop_touched step).sameTurn
        exact .created ⟨same.loops, same.started, ⟨fd, same.entities⟩, same.next⟩
  | handleEvent l fd =>
      obtain ⟨loop, -, step⟩ := Option.bind_eq_some_iff.mp step
      obtain ⟨com, -, step⟩ := Option.bind_eq_some_iff.mp step
      obtain ⟨-, ⟨⟩⟩ := Option.ite_none_right_eq_some.mp step
      exact .same (.setLoop s l _)
  | handled l | functorsDone l =>
      obtain ⟨loop, -, step⟩ := Option.bind_eq_some_iff.mp step
      split at step <;> cases step
      exact .same (.setLoop s l _)
  | callFunctor l =>
      obtain ⟨loop, -, step⟩ := Option.bind_eq_some_iff.mp step
      split at step
      · exact .same (.trans (.setLoop s l _) (call_touched step).sameTurn)
      · cases step
  | doPendingFunctors l =>
      obtain ⟨loop, -, step⟩ := Option.bind_eq_some_iff.mp step
      obtain ⟨-, ⟨⟩⟩ := Option.ite_none_right_eq_some.mp step
      exact .same (.setLoop s l _)
  | destroy =>
      obtain ⟨-, ⟨⟩⟩ := Option.ite_none_right_eq_some.mp step
      exact .same ⟨rfl, rfl, rfl, rfl⟩
  | destroyNext =>
      obtain ⟨-, step⟩ := Option.ite_none_right_eq_some.mp step
      rw [destroyNext] at step
      split at step
      · cases step
        exact .same ⟨rfl, rfl, rfl, rfl⟩
      · obtain ⟨entity, -, step⟩ := Option.bind_eq_some_iff.mp step
        have same := (runInLoop_touched step).sameTurn
        exact .same ⟨same.loops, same.started, same.entities, same.next⟩
  | exit l =>
      obtain ⟨loop, -, step⟩ := Option.bind_eq_some_iff.mp step
      obtain ⟨-, ⟨⟩⟩ := Option.ite_none_right_eq_some.mp step
      exact .same (.setLoop s l _)

theorem Created.homes (created : Created s t) : t.homes = s.homes ++ [(getNextLoop s).1] := by
  obtain ⟨fd, entities⟩ := created.entities
  rw [State.homes, entities, List.map_append]
  rfl

theorem Created.length (created : Created s t) : t.entities.length = s.entities.length + 1 := by
  obtain ⟨fd, entities⟩ := created.entities
  rw [entities, List.length_append, List.length_singleton]

/-- Entities are never forgotten. -/
theorem length_entities_le (leads : (machine P).Leads s t) :
    s.entities.length ≤ t.entities.length := by
  refine leads.invariant (I := fun u => s.entities.length ≤ u.entities.length) (Nat.le_refl _) ?_
  intro u label v kept step
  cases step_turn step with
  | start numThreads _ is_start =>
      subst is_start
      unfold start
      split <;> exact kept
  | created created => exact created.length ▸ Nat.le_succ_of_le kept
  | same same => exact same.entities ▸ kept

/-! ### Without threads -/

/-- The pool has no threads, so that its loops have had no turn. -/
structure Alone (s : State σ) : Prop where
  size : s.poolSize = 0
  homes : s.homes = List.replicate s.entities.length 0
  next : s.next = 0

theorem Alone.of_same (alone : Alone s) (same : SameTurn s t) : Alone t := by
  refine ⟨same.poolSize.trans alone.size, ?_, same.next.trans alone.next⟩
  rw [State.homes, same.entities]
  exact alone.homes

/-- Without threads the base loop is the next one. -/
theorem Alone.of_created (alone : Alone s) (created : Created s t) : Alone t := by
  have base : getNextLoop s = (0, s.next) := if_pos alone.size
  refine ⟨(congrArg (· - 1) created.loops).trans alone.size, ?_, ?_⟩
  · rw [created.homes, created.length, base, alone.homes, List.replicate_succ']
  · rw [created.next, base]
    exact alone.next

theorem reachable_alone (reach : (machine P).Reachable s) :
    0 < s.loops.length ∧ (s.started = false → Alone s) := by
  refine reach.invariant (I := fun s => 0 < s.loops.length ∧ (s.started = false → Alone s)) ?_ ?_
  · rintro s rfl
    exact ⟨Nat.one_pos, fun _ => ⟨rfl, rfl, rfl⟩⟩
  · intro s label t ⟨base, alone⟩ step
    cases step_turn step with
    | start numThreads unstarted is_start =>
        subst is_start
        rw [start, if_neg (Bool.not_eq_true _ ▸ unstarted)]
        refine ⟨?_, fun idle => Bool.noConfusion idle⟩
        exact Nat.lt_of_lt_of_le base (List.length_append ▸ Nat.le_add_right _ _)
    | created created =>
        exact ⟨created.loops ▸ base, fun idle =>
          (alone (created.started ▸ idle)).of_created created⟩
    | same same =>
        exact ⟨same.loops ▸ base, fun idle => (alone (same.started ▸ idle)).of_same same⟩

/-! ### With threads -/

/-- Where a pool of `size` loops is in its rota, which began after `k` entities. -/
structure Turn (size k : Nat) (s : State σ) : Prop where
  started : s.started = true
  pool : s.poolSize = size
  homes : ∃ m, s.homes = rota size k m ∧ s.entities.length = k + m ∧ s.next = m % size

theorem Turn.of_same {size k : Nat} (turn : Turn size k s) (same : SameTurn s t) :
    Turn size k t := by
  obtain ⟨started, pool, m, homes, length, next⟩ := turn
  refine ⟨same.started.trans started, same.poolSize.trans pool, m, ?_, ?_, same.next.trans next⟩
  · rw [State.homes, same.entities]
    exact homes
  · rw [same.entities]
    exact length

/-- The next entity takes the next turn. -/
theorem Turn.of_created {size k : Nat} (some_loops : 0 < size) (turn : Turn size k s)
    (created : Created s t) : Turn size k t := by
  obtain ⟨started, pool, m, homes, length, next⟩ := turn
  have nonempty : s.poolSize ≠ 0 := pool ▸ Nat.ne_of_gt some_loops
  have turns : getNextLoop s =
      (s.next + 1, if s.next + 1 ≥ s.poolSize then 0 else s.next + 1) := if_neg nonempty
  refine ⟨created.started.trans started, (congrArg (· - 1) created.loops).trans pool, m + 1, ?_, ?_,
    ?_⟩
  · rw [created.homes, turns, homes, next, rota, rota, List.range_succ, List.map_append,
      ← List.append_assoc]
    rfl
  · rw [created.length, length, Nat.add_assoc]
  · have below := Nat.mod_lt m some_loops
    rw [created.next, turns, next, pool, ← Nat.mod_add_mod]
    dsimp only
    split
    · rename_i last
      have full : m % size + 1 = size := Nat.le_antisymm below last
      rw [full, Nat.mod_self]
    · rename_i more
      exact (Nat.mod_eq_of_lt (Nat.not_le.mp more)).symm

/-- The threads of the pool start when none of its loops has had a turn. -/
theorem Alone.start (numThreads : Nat) (alone : Alone s) (base : 0 < s.loops.length)
    (unstarted : s.started = false) :
    (0 < numThreads → Turn numThreads s.entities.length (start P numThreads s)) ∧
      (numThreads = 0 → Alone (ComServer.start P numThreads s) ∧
        (ComServer.start P numThreads s).started = true) := by
  have size := alone.size
  rw [State.poolSize] at size
  rw [ComServer.start, if_neg (Bool.not_eq_true _ ▸ unstarted)]
  constructor
  · intro some_threads
    refine ⟨rfl, ?_, 0, ?_, rfl, ?_⟩
    · rw [State.poolSize, List.length_append, List.length_replicate]
      omega
    · rw [rota, List.range_zero, List.map_nil, List.append_nil]
      exact alone.homes
    · rw [Nat.zero_mod]
      exact alone.next
  · rintro rfl
    exact ⟨⟨(congrArg (· - 1) (congrArg List.length (List.append_nil _))).trans alone.size,
      alone.homes, alone.next⟩, rfl⟩

theorem step_of_started {size k : Nat} {label : Label} (some_loops : 0 < size)
    (turn : Turn size k s) (step : (machine P).step s label = some t) : Turn size k t := by
  cases step_turn step with
  | start numThreads unstarted _ => cases unstarted.symm.trans turn.started
  | created created => exact turn.of_created some_loops created
  | same same => exact turn.of_same same

theorem step_of_alone {label : Label} (alone : Alone s ∧ s.started = true)
    (step : (machine P).step s label = some t) : Alone t ∧ t.started = true := by
  cases step_turn step with
  | start numThreads unstarted _ => cases unstarted.symm.trans alone.2
  | created created => exact ⟨alone.1.of_created created, created.started.trans alone.2⟩
  | same same => exact ⟨alone.1.of_same same, same.started.trans alone.2⟩

/-! ### The load of the loops -/

theorem count_rota {size r : Nat} (inside : r < size) (k m : Nat) :
    (rota size k m).count (r + 1) = m / size + if r < m % size then 1 else 0 := by
  have turns : (List.map (fun i => i % size + 1) (List.range m)).count (r + 1) =
      Nat.count (· ≡ r [MOD size]) m := by
    induction m with
    | zero => rfl
    | succ m ih =>
        rw [List.range_succ, List.map_append, List.count_append, ih, Nat.count_succ]
        simp [Nat.ModEq, Nat.mod_eq_of_lt inside, List.count_singleton]
  rw [rota, List.count_append, List.count_replicate, turns,
    Nat.count_modEq_card _ (Nat.zero_lt_of_lt inside), Nat.mod_eq_of_lt inside]
  simp

/-- The loads of two loops of the pool. -/
theorem count_homes_le {size k : Nat} (turn : Turn size k s) {l l' : Nat} (pool : 0 < l)
    (bound : l ≤ size) (pool' : 0 < l') (bound' : l' ≤ size) :
    s.homes.count l ≤ s.homes.count l' + 1 := by
  obtain ⟨-, -, m, homes, -, -⟩ := turn
  obtain ⟨r, rfl⟩ := Nat.exists_eq_add_of_lt pool
  obtain ⟨r', rfl⟩ := Nat.exists_eq_add_of_lt pool'
  rw [Nat.zero_add] at bound bound' ⊢
  rw [Nat.zero_add, homes, count_rota bound, count_rota bound']
  split <;> split <;> omega

/-- **Balance.** Let the pool start with `numThreads` threads in `s`. Until then every entity has
gone to the base loop; from then on the loops of the pool take turns, whatever else happens, and a
pool without threads leaves all entities to the base loop. -/
theorem entities_balanced (numThreads : Nat) {s' : State σ}
    (before : (machine P).Reachable s) (unstarted : s.started = false)
    (start : (machine P).step s (.start numThreads) = some s')
    (after : (machine P).Leads s' t) :
    s.homes = List.replicate s.entities.length 0 ∧
      t.poolSize = numThreads ∧
      s.entities.length ≤ t.entities.length ∧
      (numThreads = 0 → t.homes = List.replicate t.entities.length 0) ∧
      (0 < numThreads → t.homes =
        rota numThreads s.entities.length (t.entities.length - s.entities.length)) ∧
      ∀ l l', 0 < l → l ≤ numThreads → 0 < l' → l' ≤ numThreads →
        t.homes.count l ≤ t.homes.count l' + 1 := by
  obtain ⟨base, alone⟩ := reachable_alone before
  have alone := alone unstarted
  have kept : s.entities.length ≤ t.entities.length :=
    length_entities_le (.head (l := Label.start numThreads) start after)
  obtain ⟨-, ⟨⟩⟩ := Option.ite_none_right_eq_some.mp start
  obtain ⟨turns, idle⟩ := Alone.start (P := P) numThreads alone base unstarted
  refine ⟨alone.homes, ?_⟩
  rcases Nat.eq_zero_or_pos numThreads with rfl | some_threads
  · obtain ⟨still, -⟩ := after.invariant (I := fun u => Alone u ∧ u.started = true) (idle rfl)
      fun _ _ _ alone step => step_of_alone alone step
    exact ⟨still.size, kept, fun _ => still.homes, fun none => absurd none (Nat.lt_irrefl 0),
      fun l _ pool bound => absurd pool (Nat.not_lt.mpr bound)⟩
  · have turn := after.invariant (turns some_threads)
      fun _ _ _ turn step => step_of_started some_threads turn step
    obtain ⟨m, homes, length, -⟩ := turn.homes
    have later : t.entities.length - s.entities.length = m := by omega
    refine ⟨turn.pool, kept, fun none => absurd none (Nat.ne_of_gt some_threads), fun _ => ?_,
      fun l l' => count_homes_le turn⟩
    rw [later]
    exact homes

/-- One entity before two threads are started, and three after that. -/
theorem entities_balanced_four : ∃ t : State Port.EPollPoller,
    t.homes = [0, 1, 2, 1] ∧ t.homes = rota 2 1 3 ∧ t.homes.count 1 ≤ t.homes.count 2 + 1 := by
  have reach {s : State Port.EPollPoller}
      (run : (machine (Port.EPollPoller.poller false)).run _ [.create "ttyS0" 5] = some s) :=
    Machine.reachable_of_run _ rfl run
  have balanced {t : State Port.EPollPoller} (run : (machine (Port.EPollPoller.poller false)).run _
      [.create "ttyS1" 6, .create "ttyS2" 7, .create "ttyS1" 8, .create "ttyS3" 9] = some t) :=
    entities_balanced 2 (reach rfl) rfl rfl (Machine.leads_of_run _ run)
  obtain ⟨-, -, -, -, homes, counts⟩ := balanced rfl
  exact ⟨_, rfl, homes (by decide), counts 1 2 (by decide) (by decide) (by decide) (by decide)⟩

end Dbdky.ComServer
