import Dbdky.Utils.Mutex
import Dbdky.Utils.ThreadPoolTasks

/-!
`ThreadPool` together with its `mutex_` (`src/utils/ThreadPool.cpp`, `src/utils/Mutex.h`).

Each step of the pool is carried out with what it does to `mutex_`: a section that is entered
through a `MutexLockGuard` or by returning from a `wait`, and left through the guard or by
waiting.

* **`exists_reachable`.** The mutex never stops the pool: every run of the pool is one of both.
* **`run_asserts`.** The `assertLocked()` of `isFull()` passes when `run` evaluates it for the
  first time, and fails once `run` has waited for room and there is some.
* **`taken_fifo`.** Tasks are taken in the order in which they have been put into the queue, and
  each is begun after it has been taken.
-/

namespace Dbdky

open Transition Sync

namespace ThreadPool

/-- A thread, by what it does. -/
inductive Agent where
  /-- in the `id`-th call of `run` -/
  | caller (id : Nat)
  /-- in `take` -/
  | worker (i : Nat)
  /-- in `stop` -/
  | stopper
deriving DecidableEq, Repr

/-- A pool and its `mutex_`. -/
structure Locked where
  pool : State
  mutex : MutexLock.State Agent

namespace Locked

/-- What the locked section ends with: it waits, or the guard is destroyed. -/
def close (agent : Agent) (waits : Bool) : List (MutexLock.Label Agent) :=
  if waits then [.wait agent] else MutexLock.leave agent

/-- What a step does to `mutex_`. -/
def locks (s : Locked) : Label → List (MutexLock.Label Agent)
  | .run _ =>
      if s.pool.workers = [] then []
      else
        let caller : Agent := .caller s.pool.submitted
        MutexLock.enter caller ++ close caller s.pool.isFull
  | .resume i =>
      match s.pool.callers[i]? with
      | some ⟨task, _⟩ => .awake (.caller task.id) :: close (.caller task.id) s.pool.isFull
      | none => []
  | .take i _ =>
      let waits := s.pool.queue.isEmpty && s.pool.running
      if s.mutex.place (.worker i) = .waiting then .awake (.worker i) :: close (.worker i) waits
      else MutexLock.enter (.worker i) ++ close (.worker i) waits
  | .stop => MutexLock.enter .stopper ++ MutexLock.leave .stopper
  | .testRunning _ | .call _ | .finish _ | .wakeCaller _ | .wakeWorker _ => []

def step (s : Locked) (l : Label) : Option Locked :=
  (ThreadPool.step s.pool l).bind fun pool =>
    (MutexLock.machine.run s.mutex (s.locks l)).map fun mutex => { pool, mutex }

/-- A pool that has been started, its mutex included. -/
def machine : Machine Locked Label where
  init s := ThreadPool.machine.init s.pool ∧ s.mutex = MutexLock.initial
  step := step

/-! ### Sections -/

/-- The mutex after a section of `agent`, which has `entered` it or has waited before. -/
def after (mutex : MutexLock.State Agent) (agent : Agent) (entered waits : Bool) :
    MutexLock.State Agent where
  owner := none
  holder := if waits then (if entered then some agent else mutex.holder) else none
  place := Function.update mutex.place agent (if waits then .waiting else .outside)

section Section

variable {mutex : MutexLock.State Agent} {agent : Agent}

theorem run_enter_close (free : mutex.owner = none) (here : mutex.place agent = .outside)
    (waits : Bool) :
    MutexLock.machine.run mutex (MutexLock.enter agent ++ close agent waits) =
      some (after mutex agent true waits) := by
  cases waits with
  | true => exact MutexLock.run_enter_wait free here
  | false =>
      refine (MutexLock.run_enter_leave free here).trans (congrArg some ?_)
      have same : Function.update mutex.place agent .outside = mutex.place :=
        Function.update_eq_self_iff.mpr here.symm
      simp [after, same]

theorem run_awake_close (free : mutex.owner = none) (here : mutex.place agent = .waiting)
    (waits : Bool) :
    MutexLock.machine.run mutex (.awake agent :: close agent waits) =
      some (after mutex agent false waits) := by
  cases waits with
  | true =>
      refine (MutexLock.run_awake_wait free here).trans (congrArg some ?_)
      have same : Function.update mutex.place agent .waiting = mutex.place :=
        Function.update_eq_self_iff.mpr here.symm
      simp [after, same, ← free]
  | false => exact MutexLock.run_awake_leave free here

end Section

/-! ### The invariant -/

/-- The call of `run` waits for room. -/
def Waits (pool : State) (id : Nat) : Prop := id ∈ pool.callers.map fun caller => caller.who.id

/-- Between two sections nobody has the mutex, and `holder_` names a call of `run` only while
there is no room. -/
structure Inv (s : Locked) : Prop where
  shape : Shape s.pool
  free : s.mutex.owner = none
  caller : ∀ id, s.mutex.place (.caller id) = .waiting ∧ Waits s.pool id ∨
    s.mutex.place (.caller id) = .outside ∧ ¬ Waits s.pool id
  worker : ∀ i, s.mutex.place (.worker i) = .waiting ∨ s.mutex.place (.worker i) = .outside
  stopper : s.mutex.place .stopper = .outside
  holder : ∀ id, s.mutex.holder = some (.caller id) → s.pool.isFull = true

/-- A step without a section. -/
theorem Inv.idle {s : Locked} (inv : Inv s) {pool : State} (shape : Shape pool)
    (callers : ∀ id, Waits pool id ↔ Waits s.pool id)
    (full : s.pool.isFull = true → pool.isFull = true) : Inv ⟨pool, s.mutex⟩ where
  shape := shape
  free := inv.free
  caller id := by
    rw [callers id]
    exact inv.caller id
  worker := inv.worker
  stopper := inv.stopper
  holder id named := full (inv.holder id named)

theorem after_holder {mutex : MutexLock.State Agent} {agent : Agent} {entered waits : Bool}
    {id : Nat} (named : (after mutex agent entered waits).holder = some (.caller id)) :
    waits = true ∧ (agent = .caller id ∨ mutex.holder = some (.caller id)) := by
  cases waits with
  | false => cases named
  | true =>
      cases entered with
      | true => exact ⟨rfl, .inl (Option.some.inj named)⟩
      | false => exact ⟨rfl, .inr named⟩

/-- A section of a call of `run`. -/
theorem Inv.runs {s : Locked} (inv : Inv s) {pool : State} {id : Nat} {entered waits : Bool}
    (shape : Shape pool)
    (callers : ∀ other, Waits pool other ↔ if other = id then waits = true else Waits s.pool other)
    (full : waits = true → pool.isFull = true) :
    Inv ⟨pool, after s.mutex (.caller id) entered waits⟩ where
  shape := shape
  free := rfl
  caller other := by
    dsimp only [after]
    rw [callers other]
    by_cases self : other = id
    · subst self
      rw [Function.update_self, if_pos rfl]
      cases waits <;> simp
    · rw [Function.update_of_ne fun same => self (Agent.caller.inj same), if_neg self]
      exact inv.caller other
  worker i := by
    dsimp only [after]
    have other : Agent.worker i ≠ .caller id := nofun
    rw [Function.update_of_ne other]
    exact inv.worker i
  stopper := by
    dsimp only [after]
    have other : Agent.stopper ≠ .caller id := nofun
    rw [Function.update_of_ne other]
    exact inv.stopper
  holder other named := full (after_holder named).1

/-- A section of `take` or `stop`. -/
theorem Inv.serves {s : Locked} (inv : Inv s) {pool : State} {agent : Agent}
    {entered waits : Bool} (shape : Shape pool)
    (callers : ∀ id, Waits pool id ↔ Waits s.pool id)
    (other : ∀ id, agent ≠ .caller id) (stopper : agent = .stopper → waits = false)
    (full : waits = true → s.pool.isFull = true → pool.isFull = true) :
    Inv ⟨pool, after s.mutex agent entered waits⟩ where
  shape := shape
  free := rfl
  caller id := by
    dsimp only [after]
    rw [callers id, Function.update_of_ne (other id).symm]
    exact inv.caller id
  worker i := by
    dsimp only [after]
    by_cases self : Agent.worker i = agent
    · rw [self, Function.update_self]
      cases waits <;> simp
    · rw [Function.update_of_ne self]
      exact inv.worker i
  stopper := by
    dsimp only [after]
    by_cases self : Agent.stopper = agent
    · rw [self, Function.update_self, stopper self.symm]
      rfl
    · rw [Function.update_of_ne self]
      exact inv.stopper
  holder id named := by
    obtain ⟨waits, here | named⟩ := after_holder named
    · exact absurd here (other id)
    · exact full waits (inv.holder id named)

/-! ### Steps -/

theorem waits_of_callers {pool pool' : State}
    (same : pool'.callers.map Waiter.who = pool.callers.map Waiter.who) (id : Nat) :
    Waits pool' id ↔ Waits pool id := by
  have split (pool : State) : pool.callers.map (fun caller => caller.who.id) =
      (pool.callers.map Waiter.who).map Task.id := (List.map_map ..).symm
  rw [Waits, Waits, split, split, same]

theorem isFull_of_queue {pool pool' : State} (max : pool'.maxQueueSize = pool.maxQueueSize)
    (queue : pool'.queue = pool.queue) : pool'.isFull = pool.isFull := by
  rw [State.isFull, State.isFull, max, queue]

/-- The next call of `run` has not been made. -/
theorem not_waits_submitted {pool : State} (shape : Shape pool) : ¬ Waits pool pool.submitted := by
  intro waits
  obtain ⟨caller, mem, same⟩ := List.mem_map.mp waits
  have given := shape.callers_numbered.2 caller.who (List.mem_map_of_mem mem)
  exact Nat.ne_of_lt given same

theorem Inv.place_submitted {s : Locked} (inv : Inv s) :
    s.mutex.place (.caller s.pool.submitted) = .outside :=
  ((inv.caller _).resolve_left fun waits => not_waits_submitted inv.shape waits.2).1

theorem waits_of_here {pool : State} {i : Nat} {task : Task} {waiting : Bool}
    (here : pool.callers[i]? = some ⟨task, waiting⟩) : Waits pool task.id :=
  List.mem_map.mpr ⟨_, List.mem_of_getElem? here, rfl⟩

theorem Inv.place_waits {s : Locked} (inv : Inv s) {i : Nat} {task : Task} {waiting : Bool}
    (here : s.pool.callers[i]? = some ⟨task, waiting⟩) :
    s.mutex.place (.caller task.id) = .waiting :=
  ((inv.caller _).resolve_right fun absent => absent.2 (waits_of_here here)).1

/-- Once its call has left, nobody waits under its number. -/
theorem waits_eraseIdx {pool : State} (shape : Shape pool) {i : Nat} {task : Task}
    {waiting : Bool} (here : pool.callers[i]? = some ⟨task, waiting⟩) (id : Nat) :
    id ∈ (pool.callers.eraseIdx i).map (fun caller => caller.who.id) ↔
      if id = task.id then false = true else Waits pool id := by
  have same := (perm_eraseIdx here).map Task.id
  have left := same.nodup_iff.mpr shape.callers_numbered.1
  rw [List.map_cons, List.map_map] at same left
  replace left := (List.nodup_cons.mp left).1
  rw [List.map_map] at same
  have mem := same.mem_iff (a := id)
  rw [List.mem_cons] at mem
  by_cases self : id = task.id
  · subst self
    rw [if_pos rfl]
    exact iff_of_false left Bool.false_ne_true
  · rw [if_neg self]
    exact ⟨fun there => mem.mp (.inr there), fun there => (mem.mpr there).resolve_left self⟩

/-- `take` is entered, or `notEmpty_.wait()` returns in it. -/
theorem exists_run_take {s : Locked} (inv : Inv s) (i : Nat) (woken : List Task) (waits : Bool)
    (closes : (s.pool.queue.isEmpty && s.pool.running) = waits) :
    ∃ entered, MutexLock.machine.run s.mutex (s.locks (.take i woken)) =
      some (after s.mutex (.worker i) entered waits) := by
  subst closes
  dsimp only [locks]
  split
  · rename_i there
    exact ⟨false, run_awake_close inv.free there _⟩
  · rename_i elsewhere
    exact ⟨true, run_enter_close inv.free ((inv.worker i).resolve_left elsewhere) _⟩

/-- **What the pool can do it can do with its mutex.** -/
theorem exists_step {s : Locked} {l : Label} {pool : State} (inv : Inv s)
    (moved : ThreadPool.step s.pool l = some pool) :
    ∃ t, step s l = some t ∧ t.pool = pool ∧ Inv t := by
  have found {mutex : MutexLock.State Agent}
      (locked : MutexLock.machine.run s.mutex (s.locks l) = some mutex)
      (keeps : Inv ⟨pool, mutex⟩) : ∃ t, step s l = some t ∧ t.pool = pool ∧ Inv t :=
    ⟨⟨pool, mutex⟩, by rw [step, moved, Option.bind_some, locked]; rfl, rfl, keeps⟩
  have moves := ThreadPool.step_cases moved
  have shape := step_shape inv.shape moves
  cases moves with
  | runDirect none =>
      refine found (by rw [locks, if_pos none]; rfl) (inv.idle shape ?_ ?_)
      · exact waits_of_callers (by rw [State.call_callers])
      · rw [isFull_of_queue State.call_maxQueueSize State.call_queue]
        exact id
  | @runWait callable some full =>
      have locks : s.locks (.run callable) = _ := if_neg some
      refine found (locks ▸ run_enter_close inv.free inv.place_submitted _) ?_
      rw [full]
      refine inv.runs shape (fun other => ?_) fun _ => full
      rw [Waits, List.map_append, List.mem_append, ← Waits, List.map_singleton, List.mem_singleton]
      by_cases self : other = s.pool.submitted <;> simp [self]
  | @runPush callable some room =>
      have locks : s.locks (.run callable) = _ := if_neg some
      refine found (locks ▸ run_enter_close inv.free inv.place_submitted _) ?_
      rw [room]
      refine inv.runs shape (fun other => ?_) fun waits => absurd waits Bool.false_ne_true
      by_cases self : other = s.pool.submitted
      · subst self
        rw [if_pos rfl]
        exact iff_of_false (not_waits_submitted inv.shape) Bool.false_ne_true
      · rw [if_neg self]
        exact Iff.rfl
  | @resumeWait i task here full =>
      refine found (by rw [locks, here]; exact run_awake_close inv.free (inv.place_waits here) _) ?_
      rw [full]
      refine inv.runs shape (fun other => ?_) fun _ => full
      have same : ∀ id, Waits { s.pool with callers := s.pool.callers.set i ⟨task, true⟩ } id ↔
          Waits s.pool id := waits_of_callers (map_who_set here true)
      by_cases self : other = task.id
      · subst self
        rw [if_pos rfl]
        exact iff_of_true ((same _).mpr (waits_of_here here)) rfl
      · rw [if_neg self]
        exact same other
  | resumePush here room =>
      refine found (by rw [locks, here]; exact run_awake_close inv.free (inv.place_waits here) _) ?_
      rw [room]
      refine inv.runs shape (waits_eraseIdx inv.shape here) fun waits => ?_
      exact absurd waits Bool.false_ne_true
  | @takeWait i here empty running =>
      obtain ⟨entered, locked⟩ := exists_run_take inv i [] true (by simp [empty, running])
      exact found locked (inv.serves shape (fun _ => Iff.rfl) (fun _ same => Agent.noConfusion same)
        (fun same => Agent.noConfusion same) fun _ => id)
  | @takeNone i here empty stopped =>
      obtain ⟨entered, locked⟩ := exists_run_take inv i [] false (by simp [stopped])
      exact found locked
        (inv.serves shape (fun _ => Iff.rfl) (fun _ same => Agent.noConfusion same) (fun _ => rfl)
          fun waits => absurd waits Bool.false_ne_true)
  | @takeTask i woken task queue here front notify =>
      obtain ⟨entered, locked⟩ := exists_run_take inv i woken false (by simp [front])
      refine found locked (inv.serves shape ?_ (fun _ same => Agent.noConfusion same)
        (fun _ => rfl) fun waits => absurd waits Bool.false_ne_true)
      exact waits_of_callers map_who_wake
  | @call i task here =>
      refine found rfl (inv.idle shape ?_ ?_)
      · exact waits_of_callers (by rw [State.setWorker, State.call_callers])
      · have same : (s.pool.call task).isFull = s.pool.isFull :=
          isFull_of_queue State.call_maxQueueSize State.call_queue
        exact fun full => same.trans full
  | wakeCaller here =>
      refine found rfl (inv.idle shape ?_ id)
      exact waits_of_callers (map_who_set here _)
  | goOn | exit | finish | wakeWorker => exact found rfl (inv.idle shape (fun _ => Iff.rfl) id)
  | stop =>
      refine found (run_enter_close inv.free inv.stopper false) ?_
      exact inv.serves shape (fun _ => Iff.rfl) (fun _ same => Agent.noConfusion same)
        (fun _ => rfl) fun waits => absurd waits Bool.false_ne_true

/-- A step of both is one of each. -/
theorem step_cases {s t : Locked} {l : Label} (h : step s l = some t) :
    ThreadPool.step s.pool l = some t.pool ∧
      MutexLock.machine.run s.mutex (s.locks l) = some t.mutex := by
  obtain ⟨pool, moved, h⟩ := Option.bind_eq_some_iff.mp h
  obtain ⟨mutex, locked, rfl⟩ := Option.map_eq_some_iff.mp h
  exact ⟨moved, locked⟩

theorem step_inv {s t : Locked} {l : Label} (inv : Inv s) (moved : step s l = some t) : Inv t := by
  obtain ⟨t', moved', -, inv'⟩ := exists_step inv (step_cases moved).1
  obtain rfl : t = t' := Option.some.inj (moved.symm.trans moved')
  exact inv'

theorem initial_inv {s : Locked} (initial : machine.init s) : Inv s := by
  obtain ⟨pool, mutex⟩ := s
  obtain ⟨⟨maxQueueSize, numThreads, rfl⟩, rfl⟩ := initial
  exact {
    shape := started_shape maxQueueSize numThreads
    free := rfl
    caller _ := .inr ⟨rfl, List.not_mem_nil⟩
    worker _ := .inr rfl
    stopper := rfl
    holder _ := nofun }

theorem reachable_inv {s : Locked} (reach : machine.Reachable s) : Inv s :=
  reach.invariant (fun _ => initial_inv) fun _ _ _ inv step => step_inv inv step

/-- The mutex never stops the pool. -/
theorem exists_reachable {pool : State} (reach : ThreadPool.machine.Reachable pool) :
    ∃ s, machine.Reachable s ∧ s.pool = pool := by
  refine reach.invariant (I := fun pool => ∃ s, machine.Reachable s ∧ s.pool = pool) ?_ ?_
  · intro pool initial
    exact ⟨⟨pool, MutexLock.initial⟩, .of_init ⟨initial, rfl⟩, rfl⟩
  · rintro _ l pool' ⟨s, reach, rfl⟩ moved
    obtain ⟨t, moved', same, -⟩ := exists_step (reachable_inv reach) moved
    exact ⟨t, reach.tail moved', same⟩

/-- The mutex adds nothing to what the pool does. -/
theorem pool_run {s t : Locked} {labels : List Label} (run : machine.run s labels = some t) :
    ThreadPool.machine.run s.pool labels = some t.pool := by
  induction labels generalizing s with
  | nil =>
      cases run
      rfl
  | cons l labels ih =>
      obtain ⟨u, step, run⟩ := Option.bind_eq_some_iff.mp run
      exact Option.bind_eq_some_iff.mpr ⟨u.pool, (step_cases step).1, ih run⟩

/-- **`assertLocked()` in `run`.** It passes when `isFull()` is evaluated for the first time. It
fails, though the thread has `mutex_`, when a call that waited for room evaluates it and there is
room: with assertions on such a call aborts the program and never returns. -/
theorem run_asserts {s : Locked} (reach : machine.Reachable s) :
    (∃ mutex, MutexLock.machine.run s.mutex (MutexLock.enter (.caller s.pool.submitted)) =
        some mutex ∧
      MutexLock.isLockedByThisThread mutex (.caller s.pool.submitted) = true) ∧
    ∀ (i : Nat) (task : Task), s.pool.callers[i]? = some ⟨task, false⟩ → s.pool.isFull = false →
      ∃ mutex, MutexLock.machine.run s.mutex [.awake (.caller task.id)] = some mutex ∧
        mutex.owner = some (.caller task.id) ∧
        MutexLock.isLockedByThisThread mutex (.caller task.id) = false := by
  have inv := reachable_inv reach
  constructor
  · exact ⟨_, MutexLock.run_enter inv.free inv.place_submitted, decide_eq_true rfl⟩
  · intro i task here room
    refine ⟨_, MutexLock.run_awake inv.free (inv.place_waits here), rfl, decide_eq_false ?_⟩
    intro named
    have full := inv.holder task.id named
    rw [room] at full
    cases full

/-- **FIFO.** In a pool with threads, tasks are taken in the order in which they have been put
into the queue, none twice and none left out; a task that has been taken is in the hands of its
thread until it is begun, and no call of `run` is forgotten. -/
theorem taken_fifo {s t : Locked} (labels : List Label) (initial : machine.init s)
    (run : machine.run s labels = some t) (threads : s.pool.workers ≠ []) :
    t.pool.taken ++ t.pool.queue = t.pool.pushed ∧
      (t.pool.executed ++ (held t.pool).filter Task.callable).Perm
        (t.pool.taken.filter Task.callable) ∧
      (t.pool.pushed ++ t.pool.callers.map Waiter.who).Perm (submissions 0 labels) := by
  have pool := pool_run run
  have reach := Machine.reachable_of_run labels initial.1 pool
  have later : t.pool.workers ≠ [] :=
    (Machine.leads_of_run labels pool).invariant threads fun _ _ _ threads step =>
      (workers_ne_nil_iff (ThreadPool.step_cases step)).mpr threads
  have accounted := reachable_accounted reach later
  refine ⟨accounted.order, accounted.begun, ?_⟩
  have submitted := run_submits pool threads
  obtain ⟨⟨maxQueueSize, numThreads, here⟩, -⟩ := initial
  rwa [here] at submitted

/-! ### A call that has waited -/

/-- One thread, room for one task. -/
def oneTask : Locked := ⟨.started 1 1, MutexLock.initial⟩

/-- The second call of `run` waits, and is notified when the first task is taken. -/
def notification : List Label := [.run true, .run true, .testRunning 0, .take 0 [⟨1, true⟩]]

def notified : Locked := (machine.run oneTask notification).get rfl

theorem notified_reachable : machine.Reachable notified :=
  Machine.reachable_of_run notification ⟨⟨1, 1, rfl⟩, rfl⟩ (Option.some_get rfl).symm

theorem run_asserts_notified :
    notified.pool.callers[0]? = some ⟨⟨1, true⟩, false⟩ ∧ notified.pool.isFull = false ∧
      ∃ mutex, MutexLock.machine.run notified.mutex [.awake (.caller 1)] = some mutex ∧
        mutex.owner = some (.caller 1) ∧
        MutexLock.isLockedByThisThread mutex (.caller 1) = false :=
  ⟨rfl, rfl, (run_asserts notified_reachable).2 0 ⟨1, true⟩ rfl rfl⟩

theorem taken_fifo_notified :
    notified.pool.taken = [⟨0, true⟩] ∧ notified.pool.executed = [] ∧
      notified.pool.taken ++ notified.pool.queue = notified.pool.pushed ∧
      (notified.pool.executed ++ (held notified.pool).filter Task.callable).Perm
        (notified.pool.taken.filter Task.callable) ∧
      (notified.pool.pushed ++ notified.pool.callers.map Waiter.who).Perm
        [⟨0, true⟩, ⟨1, true⟩] :=
  ⟨rfl, rfl, taken_fifo notification ⟨⟨1, 1, rfl⟩, rfl⟩ (Option.some_get _).symm nofun⟩

end Locked

end ThreadPool

end Dbdky
