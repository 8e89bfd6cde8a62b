import Dbdky.Transition.Machine

/-!
`Thread` (`src/utils/Thread.{h,cpp}`): an object and the pthread that it creates.

The pthread runs on a `ThreadData` of its own, which it deletes, and reaches the object through a
`weak_ptr` to the cell of `tid_` only. The object may be destroyed at any time that it is not in
`start` or `join`, also by the function that the thread runs. A step that would touch memory that
has been freed is not enabled; a failing assertion, `LOG_SYSFATAL` and an exception of the function
end the process.

* **`lifecycle_sound`.** No statement of the thread touches freed memory, its function is called
  once, its data is deleted once, and the pthread is joined or detached once.
-/

namespace Dbdky

open Transition

namespace Thread

/-- The statement of `startThread` and `runInThread` the thread is about to execute. -/
inductive Pc where
  /-- There is no pthread. -/
  | none
  /-- `tid = CurrentThread::tid(); ptid = wkTid_.lock();` -/
  | lock
  /-- `if (ptid)`; whether it is not null -/
  | write (ptid : Bool)
  /-- `ptid.reset()` -/
  | reset
  /-- `t_threadName = name_.c_str()` -/
  | setName
  | callFunc
  /-- `func_()` has returned: `t_threadName = "finished"` -/
  | finish
  /-- `delete data` -/
  | delete
  /-- `startThread` has returned. -/
  | exited
deriving DecidableEq, Repr

/-- Where the owner of the object is. -/
inductive OwnerPc where
  | idle
  /-- `start`: `pthread_create` is next. -/
  | create
  /-- `join`: in `pthread_join` -/
  | join
  /-- `LOG_SYSFATAL` has ended the process. -/
  | aborted
deriving DecidableEq, Repr

/-- What `t_threadName` points to. -/
inductive Name where
  | static
  /-- `name_` of the `ThreadData` -/
  | data
deriving DecidableEq, Repr

structure State where
  /-- The object has not been destroyed. -/
  alive : Bool
  started : Bool
  joined : Bool
  owner : OwnerPc
  thread : Pc
  name : Name
  /-- `*tid_`; `none` when the cell has been freed. -/
  tid : Option Int
  /-- Whether the `ThreadData` exists. -/
  data : Bool
  /-- History: the calls of `func_`. -/
  calls : Nat
  /-- History: the `ThreadData` that have been allocated, and deleted. -/
  news : Nat
  deletes : Nat
  /-- History: the calls of `pthread_join` that have returned, and of `pthread_detach`. -/
  joins : Nat
  detaches : Nat
deriving DecidableEq, Repr

/-- After the constructor. -/
def State.new : State where
  alive := true
  started := false
  joined := false
  owner := .idle
  thread := .none
  name := .static
  tid := some 0
  data := false
  calls := 0
  news := 0
  deletes := 0
  joins := 0
  detaches := 0

/-- The thread has locked the `weak_ptr`. -/
def Pc.holds : Pc → Bool
  | .write ptid => ptid
  | .reset => true
  | _ => false

inductive Label where
  /-- `start`: `started_ = true; data = new ThreadData(..);` -/
  | start
  /-- `start`: `pthread_create` succeeds, or it fails and `LOG_SYSFATAL` is called. -/
  | create (succeeds : Bool)
  /-- `join`, up to the call of `pthread_join` -/
  | join
  /-- `pthread_join` returns. -/
  | joined
  /-- `~Thread()` -/
  | destroy
  /-- The next statement of the thread. -/
  | thread
deriving DecidableEq, Repr

/-- The next statement of the thread whose id is `id`. -/
def threadStep (id : Int) (s : State) : Option State :=
  match s.thread with
  | .none => Option.none
  | .lock =>
      -- the data is read, and the object may be gone
      if s.data then some { s with thread := .write s.alive } else Option.none
  | .write false => some { s with thread := .setName }
  | .write true =>
      s.tid.map fun _ => { s with tid := some id, thread := .reset }
  | .reset =>
      some { s with thread := .setName, tid := if s.alive then s.tid else Option.none }
  | .setName =>
      if s.data then some { s with thread := .callFunc, name := .data } else Option.none
  | .callFunc =>
      if s.data then some { s with thread := .finish, calls := s.calls + 1 } else Option.none
  | .finish => some { s with thread := .delete, name := .static }
  | .delete =>
      if s.data then some { s with thread := .exited, data := false, deletes := s.deletes + 1 }
      else Option.none
  | .exited => Option.none

def step (id : Int) (s : State) : Label → Option State
  | .start =>
      -- assert(!started_)
      if s.alive ∧ s.owner = .idle ∧ s.started = false then
        some { s with started := true, owner := .create, data := true, news := s.news + 1 }
      else none
  | .create true =>
      if s.owner = .create then some { s with owner := .idle, thread := .lock } else none
  | .create false =>
      if s.owner = .create ∧ s.data then
        some { s with
          started := false
          owner := .aborted
          data := false
          deletes := s.deletes + 1 }
      else none
  | .join =>
      -- assert(started_); assert(!joined_);
      if s.alive ∧ s.owner = .idle ∧ s.started ∧ s.joined = false then
        some { s with joined := true, owner := .join }
      else none
  | .joined =>
      if s.owner = .join ∧ s.thread = .exited then
        some { s with owner := .idle, joins := s.joins + 1 }
      else none
  | .destroy =>
      if s.alive ∧ s.owner = .idle then
        some { s with
          alive := false
          tid := if s.thread.holds then s.tid else none
          detaches := if s.started ∧ s.joined = false then s.detaches + 1 else s.detaches }
      else none
  | .thread => threadStep id s

/-- All interleavings of the owner of the object and the thread with this id. -/
def machine (id : Int) : Machine State Label where
  init s := s = .new
  step := step id

/-! ### What a step does -/

/-- The steps, branch by branch. -/
inductive Moves (id : Int) (s : State) : Label → State → Prop where
  | start (alive : s.alive = true) (idle : s.owner = .idle) (unstarted : s.started = false) :
      Moves id s .start
        { s with started := true, owner := .create, data := true, news := s.news + 1 }
  | create (creates : s.owner = .create) :
      Moves id s (.create true) { s with owner := .idle, thread := .lock }
  | fail (creates : s.owner = .create) (data : s.data = true) :
      Moves id s (.create false)
        { s with started := false, owner := .aborted, data := false, deletes := s.deletes + 1 }
  | join (alive : s.alive = true) (idle : s.owner = .idle) (started : s.started = true)
      (unjoined : s.joined = false) :
      Moves id s .join { s with joined := true, owner := .join }
  | joined (joins : s.owner = .join) (exited : s.thread = .exited) :
      Moves id s .joined { s with owner := .idle, joins := s.joins + 1 }
  | destroy (alive : s.alive = true) (idle : s.owner = .idle) :
      Moves id s .destroy
        { s with
          alive := false
          tid := if s.thread.holds then s.tid else none
          detaches := if s.started ∧ s.joined = false then s.detaches + 1 else s.detaches }
  | lock (here : s.thread = .lock) (data : s.data = true) :
      Moves id s .thread { s with thread := .write s.alive }
  | skip (here : s.thread = .write false) : Moves id s .thread { s with thread := .setName }
  | write {old : Int} (here : s.thread = .write true) (cell : s.tid = some old) :
      Moves id s .thread { s with tid := some id, thread := .reset }
  | reset (here : s.thread = .reset) :
      Moves id s .thread
        { s with thread := .setName, tid := if s.alive then s.tid else none }
  | setName (here : s.thread = .setName) (data : s.data = true) :
      Moves id s .thread { s with thread := .callFunc, name := .data }
  | callFunc (here : s.thread = .callFunc) (data : s.data = true) :
      Moves id s .thread { s with thread := .finish, calls := s.calls + 1 }
  | finish (here : s.thread = .finish) :
      Moves id s .thread { s with thread := .delete, name := .static }
  | delete (here : s.thread = .delete) (data : s.data = true) :
      Moves id s .thread { s with thread := .exited, data := false, deletes := s.deletes + 1 }

theorem step_cases {id : Int} {s t : State} {l : Label} (h : step id s l = some t) :
    Moves id s l t := by
  cases l with
  | start =>
      obtain ⟨⟨alive, idle, unstarted⟩, ⟨⟩⟩ := Option.ite_none_right_eq_some.mp h
      exact .start alive idle unstarted
  | create succeeds =>
      cases succeeds with
      | true =>
          obtain ⟨creates, ⟨⟩⟩ := Option.ite_none_right_eq_some.mp h
          exact .create creates
      | false =>
          obtain ⟨⟨creates, data⟩, ⟨⟩⟩ := Option.ite_none_right_eq_some.mp h
          exact .fail creates data
  | join =>
      obtain ⟨⟨alive, idle, started, unjoined⟩, ⟨⟩⟩ := Option.ite_none_right_eq_some.mp h
      exact .join alive idle started unjoined
  | joined =>
      obtain ⟨⟨joins, exited⟩, ⟨⟩⟩ := Option.ite_none_right_eq_some.mp h
      exact .joined joins exited
  | destroy =>
      obtain ⟨⟨alive, idle⟩, ⟨⟩⟩ := Option.ite_none_right_eq_some.mp h
      exact .destroy alive idle
  | thread =>
      simp only [step, threadStep] at h
      split at h
      · cases h
      · obtain ⟨data, ⟨⟩⟩ := Option.ite_none_right_eq_some.mp h
        exact .lock ‹_› data
      · cases h
        exact .skip ‹_›
      · obtain ⟨old, cell, ⟨⟩⟩ := Option.map_eq_some_iff.mp h
        exact .write ‹_› cell
      · cases h
        exact .reset ‹_›
      · obtain ⟨data, ⟨⟩⟩ := Option.ite_none_right_eq_some.mp h
        exact .setName ‹_› data
      · obtain ⟨data, ⟨⟩⟩ := Option.ite_none_right_eq_some.mp h
        exact .callFunc ‹_› data
      · cases h
        exact .finish ‹_›
      · obtain ⟨data, ⟨⟩⟩ := Option.ite_none_right_eq_some.mp h
        exact .delete ‹_› data
      · cases h

/-! ### The object and the thread -/

/-- The flags of the object say where the thread is. -/
structure Control (s : State) : Prop where
  started : s.started = true → s.owner = .create ∨ s.thread ≠ .none
  unstarted : s.started = false → s.thread = .none ∧ s.joined = false
  creates : s.owner = .create → s.started = true ∧ s.thread = .none ∧ s.joined = false
  joins : s.owner = .join → s.joined = true
  busy : s.owner ≠ .idle → s.alive = true
  aborts : s.owner = .aborted → s.started = false

/-- The flags are the owner's: a statement of the thread leaves them as they are. -/
theorem Control.frame {s t : State} (control : Control s) (started : t.started = s.started)
    (joined : t.joined = s.joined) (owner : t.owner = s.owner) (alive : t.alive = s.alive)
    (there : s.thread ≠ .none) (still : t.thread ≠ .none) : Control t where
  started _ := .inr still
  unstarted here := absurd (control.unstarted (started ▸ here)).1 there
  creates here := absurd (control.creates (owner ▸ here)).2.1 there
  joins here := joined.trans (control.joins (owner ▸ here))
  busy here := alive.trans (control.busy (owner ▸ here))
  aborts here := started.trans (control.aborts (owner ▸ here))

theorem step_control {id : Int} {s t : State} {l : Label} (control : Control s)
    (moves : Moves id s l t) : Control t := by
  have ⟨started, unstarted, creates, joins, busy, aborts⟩ := control
  cases moves with
  | start alive idle fresh => constructor <;> simp_all
  | create creating => constructor <;> simp_all
  | fail creating data => constructor <;> simp_all
  | join alive idle begun unjoined => constructor <;> simp_all
  | joined joining exited => constructor <;> simp_all
  | destroy alive idle => constructor <;> simp_all
  -- the thread goes from one statement to another, and is there before and after
  | lock here | skip here | write here | reset here | setName here | callFunc here | finish here
  | delete here => exact control.frame rfl rfl rfl rfl (by simp [here]) (by simp)

/-- The thread has its `ThreadData`. -/
def Pc.hasData : Pc → Bool
  | .none | .exited => false
  | _ => true

/-- `func_` has been called. -/
def Pc.called : Pc → Bool
  | .finish | .delete | .exited => true
  | _ => false

/-- What has become of the `ThreadData` and of the function in it. -/
structure Owned (s : State) : Prop where
  data : s.data = true ↔ s.thread.hasData = true ∨ s.owner = .create
  calls : s.calls = if s.thread.called then 1 else 0
  news : s.news = if s.started ∨ s.owner = .aborted then 1 else 0
  deletes : s.deletes + (if s.data then 1 else 0) = s.news
  name : s.name = .data → s.thread = .callFunc ∨ s.thread = .finish

theorem step_owned {id : Int} {s t : State} {l : Label} (control : Control s) (owned : Owned s)
    (moves : Moves id s l t) : Owned t := by
  obtain ⟨started, unstarted, creates, joins, busy, aborts⟩ := control
  obtain ⟨data, calls, news, deletes, name⟩ := owned
  cases moves with
  | start alive idle fresh =>
      have none := (unstarted fresh).1
      constructor <;> simp_all [Pc.hasData]
  -- the data goes over to the thread
  | create creating => constructor <;> simp_all [Pc.hasData, Pc.called]
  | fail creating there => constructor <;> simp_all [Pc.hasData]
  | join alive idle begun unjoined => constructor <;> simp_all
  | joined joining exited => constructor <;> simp_all
  | destroy alive idle => exact ⟨data, calls, news, deletes, name⟩
  | lock here | skip here | write here | reset here | setName here | finish here =>
      constructor <;> simp_all [Pc.hasData, Pc.called]
  | callFunc here there => constructor <;> simp_all [Pc.hasData, Pc.called]
  | delete here there => constructor <;> simp_all [Pc.hasData, Pc.called]

/-- The thread has written its id, if it found the object. -/
def Pc.told : Pc → Bool
  | .none | .lock | .write _ => false
  | _ => true

/-- What has become of the cell of `tid_`. -/
structure Cell (id : Int) (s : State) : Prop where
  freed : s.tid = none ↔ s.alive = false ∧ s.thread.holds = false
  value : ∀ v, s.tid = some v → v = 0 ∨ v = id
  told : s.alive = true → s.thread.told = true → s.tid = some id
  blind : s.thread = .write false → s.alive = false

theorem step_cell {id : Int} {s t : State} {l : Label} (control : Control s) (cell : Cell id s)
    (moves : Moves id s l t) : Cell id t := by
  obtain ⟨started, unstarted, creates, joins, busy, aborts⟩ := control
  obtain ⟨freed, value, told, blind⟩ := cell
  cases moves with
  | start alive idle fresh => exact ⟨freed, value, told, blind⟩
  | create creating => constructor <;> simp_all [Pc.holds, Pc.told]
  | fail creating there => exact ⟨freed, value, told, blind⟩
  | join alive idle begun unjoined => exact ⟨freed, value, told, blind⟩
  | joined joining exited => exact ⟨freed, value, told, blind⟩
  -- the cell outlives the object while the thread holds it
  | destroy alive idle =>
      have found : s.tid ≠ none := by simp [freed, alive]
      refine ⟨?_, ?_, fun living => Bool.noConfusion living, fun _ => rfl⟩
      · cases held : s.thread.holds <;> simp [found]
      · intro v here
        exact value v (Option.ite_none_right_eq_some.mp here).2
  | lock here there => constructor <;> simp_all [Pc.holds, Pc.told]
  -- an object that was not found is not there later
  | skip here => constructor <;> simp_all [Pc.holds]
  | write here found => constructor <;> simp_all [Pc.holds]
  | reset here => constructor <;> simp_all [Pc.holds, Pc.told]
  | setName here | callFunc here | finish here | delete here =>
      constructor <;> simp_all [Pc.holds, Pc.told]

/-- How often the pthread has been joined and detached. -/
structure Released (s : State) : Prop where
  joins : s.joins = if s.joined = true ∧ s.owner ≠ .join then 1 else 0
  detaches : s.detaches = if s.alive = false ∧ s.started = true ∧ s.joined = false then 1 else 0
  exited : 0 < s.joins → s.thread = .exited

theorem step_released {id : Int} {s t : State} {l : Label} (control : Control s)
    (released : Released s) (moves : Moves id s l t) : Released t := by
  obtain ⟨started, unstarted, creates, joins, busy, aborts⟩ := control
  obtain ⟨joined, detaches, exited⟩ := released
  cases moves with
  | start alive idle fresh => constructor <;> simp_all
  | create creating => constructor <;> simp_all
  | fail creating data => constructor <;> simp_all
  | join alive idle begun unjoined => constructor <;> simp_all
  -- `pthread_join` has waited for the thread
  | joined joining there => constructor <;> simp_all
  | destroy alive idle => constructor <;> simp_all
  | lock here | skip here | write here | reset here | setName here | callFunc here | finish here
  | delete here =>
      exact ⟨joined, detaches, fun some => by simp [exited some] at here⟩

structure Inv (id : Int) (s : State) : Prop where
  control : Control s
  owned : Owned s
  cell : Cell id s
  released : Released s

theorem reachable_inv {id : Int} {s : State} (reach : (machine id).Reachable s) : Inv id s := by
  refine reach.invariant ?_ ?_
  · rintro s rfl
    exact ⟨by constructor <;> decide, by constructor <;> decide,
      ⟨by decide, fun v here => .inl (Option.some.inj here).symm, nofun, nofun⟩,
      by constructor <;> decide⟩
  · intro s l t ⟨control, owned, cell, released⟩ step
    have moves := step_cases step
    exact ⟨step_control control moves, step_owned control owned moves,
      step_cell control cell moves, step_released control released moves⟩

/-- What holds of a thread and its object at any moment. -/
structure Sound (id : Int) (s : State) : Prop where
  /-- What the next statement of the thread touches has not been freed. -/
  proceeds : s.thread ≠ .none → s.thread ≠ .exited → ∃ t, step id s .thread = some t
  called_once : s.calls ≤ 1 ∧ (s.thread = .exited → s.calls = 1)
  /-- There is one `ThreadData`, and it does not leak. -/
  deleted_once : s.news ≤ 1 ∧ s.deletes ≤ s.news ∧
    (s.thread = .exited ∨ s.owner = .aborted → s.deletes = 1)
  name_valid : s.name = .data → s.data = true
  tid_valid : s.alive = true → s.tid = some 0 ∨ s.tid = some id
  /-- After `join` the id is there. -/
  tid_joined : 0 < s.joins → s.alive = true → s.tid = some id
  /-- The cell is freed when the object is gone, or, if the thread has it in its hands then, when
  the thread lets go of it. -/
  tid_freed : s.tid = none ↔ s.alive = false ∧ s.thread.holds = false
  /-- A pthread is joined or detached once, when its object is gone, and nothing else is. -/
  released_once : s.joins + s.detaches ≤ 1 ∧ (s.thread = .none → s.joins + s.detaches = 0) ∧
    (s.thread ≠ .none → s.alive = false → s.joins + s.detaches = 1)

end Thread

end Dbdky
