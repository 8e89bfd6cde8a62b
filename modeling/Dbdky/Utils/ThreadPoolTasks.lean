import Mathlib.Data.List.Perm.Basic
import Dbdky.Utils.ThreadPool

/-!
The tasks of a `ThreadPool` in every run.

* **`reachable_shape`.** No task is in two places, and the queue never grows too large.
* **`reachable_accounted`.** In a pool with threads, tasks are taken in the order in which they
  have been put into the queue, and begun once they have been taken.
* **`run_submits`.** Each call of `run` has put its task into the queue, or waits.
-/

namespace Dbdky.ThreadPool

open Transition Sync

/-! ### What holds in every run -/

/-- Tasks with different numbers, all given out. -/
def Numbered (tasks : List Task) (submitted : Nat) : Prop :=
  (tasks.map Task.id).Nodup ∧ ∀ task ∈ tasks, task.id < submitted

namespace Numbered

variable {tasks tasks' : List Task} {n : Nat}

theorem perm (numbered : Numbered tasks n) (same : tasks'.Perm tasks) : Numbered tasks' n :=
  ⟨(same.map _).nodup_iff.mpr numbered.1, fun task mem => numbered.2 task (same.mem_iff.mp mem)⟩

theorem sublist (numbered : Numbered tasks n) (fewer : tasks'.Sublist tasks) : Numbered tasks' n :=
  ⟨numbered.1.sublist (fewer.map _), fun task mem => numbered.2 task (fewer.subset mem)⟩

theorem succ (numbered : Numbered tasks n) : Numbered tasks (n + 1) :=
  ⟨numbered.1, fun task mem => Nat.lt_succ_of_lt (numbered.2 task mem)⟩

/-- The next call of `run`. -/
theorem next (numbered : Numbered tasks n) (callable : Bool) :
    Numbered (⟨n, callable⟩ :: tasks) (n + 1) := by
  obtain ⟨distinct, given⟩ := numbered
  constructor
  · rw [List.map_cons, List.nodup_cons]
    refine ⟨?_, distinct⟩
    intro mem
    obtain ⟨task, mem, same⟩ := List.mem_map.mp mem
    exact Nat.ne_of_lt (given task mem) same
  · intro task mem
    rcases List.mem_cons.mp mem with rfl | mem
    · exact Nat.lt_succ_self n
    · exact Nat.lt_succ_of_lt (given task mem)

end Numbered

/-- The tasks that threads have taken and not yet called. -/
def held (s : State) : List Task := s.workers.filterMap Worker.held

/-- The tasks that are anywhere. -/
def tasks (s : State) : List Task :=
  s.executed ++ (held s ++ (s.queue ++ s.callers.map Waiter.who))

structure Shape (s : State) : Prop where
  numbered : Numbered (tasks s) s.submitted
  bound : 0 < s.maxQueueSize → s.queue.length ≤ s.maxQueueSize
  bounded : s.callers ≠ [] → 0 < s.maxQueueSize ∧ s.workers ≠ []
  working : s.running = true → .exited ∉ s.workers
  woken : s.running = false → .waitNotEmpty ∉ s.workers

theorem held_started (maxQueueSize numThreads : Nat) :
    held (.started maxQueueSize numThreads) = [] := by
  simp [held, State.started, Worker.held]

theorem started_shape (maxQueueSize numThreads : Nat) :
    Shape (.started maxQueueSize numThreads) where
  numbered := by
    rw [tasks, held_started]
    exact ⟨.nil, nofun⟩
  bound _ := Nat.zero_le _
  bounded := by simp [State.started]
  working := by simp [State.started]
  woken := by simp [State.started]

section Held

variable {s : State}

theorem held_wake (workers : List Worker) :
    (workers.map Worker.wake).filterMap Worker.held = workers.filterMap Worker.held := by
  rw [List.filterMap_map]
  congr 1
  funext worker
  exact worker.held_wake

/-- A thread that goes on without a task. -/
theorem held_set {i : Nat} {old new : Worker} (here : s.workers[i]? = some old)
    (before : old.held = none) (after : new.held = none) :
    ((s.workers.set i new).filterMap Worker.held).Perm (held s) := by
  have same := filterMap_set_perm (f := Worker.held) here new
  rw [before, after] at same
  exact same

theorem held_take {i : Nat} (here : s.workers[i]? = some .take) (task : Task) :
    ((s.workers.set i (.taken task)).filterMap Worker.held).Perm (task :: held s) :=
  filterMap_set_perm (f := Worker.held) here (.taken task)

theorem held_call {i : Nat} {task : Task} (here : s.workers[i]? = some (.taken task))
    (new : Worker) (after : new.held = none) :
    (task :: (s.workers.set i new).filterMap Worker.held).Perm (held s) := by
  have same := filterMap_set_perm (f := Worker.held) here new
  rw [after] at same
  exact same

end Held

section Step

variable {s t : State} {l : Label}

theorem not_mem_set {workers : List Worker} {worker new : Worker} (absent : worker ∉ workers)
    (other : worker ≠ new) (i : Nat) : worker ∉ workers.set i new := by
  intro mem
  rcases List.mem_or_eq_of_mem_set mem with mem | same
  · exact absent mem
  · exact other same

theorem exited_not_mem_wake {workers : List Worker} (absent : .exited ∉ workers) :
    .exited ∉ workers.map Worker.wake := by
  intro mem
  obtain ⟨worker, mem, gone⟩ := List.mem_map.mp mem
  exact absent (Worker.wake_eq_exited gone ▸ mem)

theorem waitNotEmpty_not_mem_wake (workers : List Worker) :
    .waitNotEmpty ∉ workers.map Worker.wake := by
  intro mem
  obtain ⟨worker, -, waits⟩ := List.mem_map.mp mem
  exact worker.wake_ne_waitNotEmpty waits

theorem step_bound (shape : Shape s) (moves : Moves s l t) (bounded : 0 < t.maxQueueSize) :
    t.queue.length ≤ t.maxQueueSize := by
  cases moves with
  | runDirect none =>
      rw [State.call_maxQueueSize] at bounded ⊢
      rw [State.call_queue]
      exact shape.bound bounded
  | runPush workers room =>
      have less := State.isFull_eq_false room bounded
      simp only [State.push, List.length_append]
      exact less
  | resumePush here room =>
      have less := State.isFull_eq_false room bounded
      simp only [State.push, List.length_append]
      exact less
  | @takeTask i woken task queue here front notify =>
      have := shape.bound bounded
      rw [front] at this
      exact Nat.le_of_succ_le this
  | call here =>
      simp only [State.setWorker, State.call_maxQueueSize, State.call_queue] at bounded ⊢
      exact shape.bound bounded
  | runWait | resumeWait | goOn | exit | takeWait | takeNone | finish | wakeCaller | wakeWorker |
      stop => exact shape.bound bounded

theorem step_bounded (shape : Shape s) (moves : Moves s l t) (some : t.callers ≠ []) :
    0 < t.maxQueueSize ∧ t.workers ≠ [] := by
  cases moves with
  | runDirect none =>
      rw [State.call_callers] at some
      rw [State.call_maxQueueSize, State.call_workers]
      exact shape.bounded some
  | runWait workers full => exact ⟨(State.isFull_eq_true full).1, workers⟩
  | runPush => simpa [State.push] using shape.bounded some
  | resumeWait => exact shape.bounded (by simpa using some)
  | resumePush here room =>
      have callers : s.callers ≠ [] := by
        intro empty
        rw [empty] at here
        cases here
      simpa [State.push] using shape.bounded callers
  | takeTask here front notify =>
      have callers : s.callers ≠ [] := by
        intro empty
        simp [State.setWorker, wake, empty] at some
      simpa [State.setWorker, State.pop] using shape.bounded callers
  | call here =>
      simp only [State.setWorker, State.call_callers] at some
      simpa [State.setWorker] using shape.bounded some
  | wakeCaller => exact shape.bounded (by simpa using some)
  | goOn | exit | takeWait | takeNone | finish | wakeWorker | stop =>
      simpa [State.setWorker] using shape.bounded some

theorem step_working (shape : Shape s) (moves : Moves s l t) (running : t.running = true) :
    .exited ∉ t.workers := by
  cases moves with
  | runDirect =>
      rw [State.call_running] at running
      rw [State.call_workers]
      exact shape.working running
  | runPush | resumePush => exact exited_not_mem_wake (shape.working running)
  | runWait | resumeWait | wakeCaller => exact shape.working running
  | exit here stopped => exact absurd (stopped.symm.trans running) (by decide)
  | @call i task =>
      simp only [State.setWorker, State.call_workers, State.call_running] at running ⊢
      refine not_mem_set (shape.working running) ?_ i
      split <;> nofun
  | @takeTask i woken task =>
      have other : Worker.exited ≠ .taken task := nofun
      exact not_mem_set (shape.working running) other i
  | goOn | takeWait | takeNone | finish | wakeWorker =>
      exact not_mem_set (shape.working running) (by decide) _
  | stop => cases running

theorem step_woken (shape : Shape s) (moves : Moves s l t) (stopped : t.running = false) :
    .waitNotEmpty ∉ t.workers := by
  cases moves with
  | runDirect =>
      rw [State.call_running] at stopped
      rw [State.call_workers]
      exact shape.woken stopped
  | runPush | resumePush | stop => exact waitNotEmpty_not_mem_wake _
  | runWait | resumeWait | wakeCaller => exact shape.woken stopped
  | takeWait here empty running => exact absurd (running.symm.trans stopped) (by decide)
  | @call i task =>
      simp only [State.setWorker, State.call_workers, State.call_running] at stopped ⊢
      refine not_mem_set (shape.woken stopped) ?_ i
      split <;> nofun
  | @takeTask i woken task =>
      have other : Worker.waitNotEmpty ≠ .taken task := nofun
      exact not_mem_set (shape.woken stopped) other i
  | goOn | exit | takeNone | finish | wakeWorker =>
      exact not_mem_set (shape.woken stopped) (by decide) _

theorem step_numbered (shape : Shape s) (moves : Moves s l t) :
    Numbered (tasks t) t.submitted := by
  have numbered := shape.numbered
  -- a step of a thread that takes no task and calls none
  have goes {i : Nat} {old new : Worker} (here : s.workers[i]? = some old)
      (before : old.held = none) (after : new.held = none) :
      Numbered (tasks (s.setWorker i new)) s.submitted :=
    numbered.perm (((held_set here before after).append_right _).append_left _)
  cases moves with
  | @runDirect callable none =>
      rw [State.call_submitted]
      unfold State.call
      split
      · refine (numbered.next callable).perm ?_
        simp only [tasks, List.append_assoc, List.singleton_append]
        exact List.perm_middle
      · exact numbered.succ
  | @runWait callable workers full =>
      refine (numbered.next callable).perm ?_
      simp only [tasks, List.map_append, ← List.append_assoc]
      exact List.perm_append_singleton _ _
  | @runPush callable workers room =>
      refine (numbered.next callable).perm ?_
      simp only [tasks, held, held_wake, State.push, List.append_assoc, List.singleton_append]
      rw [← List.append_assoc, ← List.append_assoc, ← List.append_assoc, ← List.append_assoc]
      exact List.perm_middle
  | resumeWait here full =>
      simpa only [tasks, held, map_who_set here] using numbered
  | @resumePush i task here room =>
      refine numbered.perm ?_
      simp only [tasks, held, held_wake, State.push, List.append_assoc, List.singleton_append]
      exact (((perm_eraseIdx here).append_left _).append_left _).append_left _
  | @takeTask i woken task queue here front notify =>
      refine numbered.perm ?_
      simp only [tasks, State.setWorker, State.pop, map_who_wake, front]
      refine List.Perm.append_left _ (((held_take here task).append_right _).trans ?_)
      exact List.perm_middle.symm
  | @call i task here =>
      simp only [State.setWorker, State.call_submitted]
      -- the task goes from the thread to the tasks called, or an empty one is dropped
      have moved (new : Worker) (after : new.held = none) :
          Numbered (s.executed ++ ((task :: (s.workers.set i new).filterMap Worker.held) ++
            (s.queue ++ s.callers.map Waiter.who))) s.submitted :=
        numbered.perm (((held_call here new after).append_right _).append_left _)
      unfold State.call
      split
      · simp only [tasks, List.append_assoc]
        exact moved .task rfl
      · refine (moved .testRunning rfl).sublist ?_
        exact (List.sublist_cons_self ..).append_left _
  | goOn here | exit here | takeWait here | takeNone here | finish here | wakeWorker here =>
      exact goes here rfl rfl
  | wakeCaller here =>
      simpa only [tasks, held, map_who_set here] using numbered
  | stop => simpa only [tasks, held, held_wake] using numbered

end Step

theorem step_shape {s t : State} {l : Label} (shape : Shape s) (moves : Moves s l t) : Shape t :=
  ⟨step_numbered shape moves, step_bound shape moves, step_bounded shape moves,
    step_working shape moves, step_woken shape moves⟩

theorem reachable_shape {s : State} (reach : machine.Reachable s) : Shape s := by
  refine reach.invariant ?_ ?_
  · rintro s ⟨maxQueueSize, numThreads, rfl⟩
    exact started_shape maxQueueSize numThreads
  · intro s l t shape step
    exact step_shape shape (step_cases step)

/-- The calls that wait. -/
theorem Shape.callers_numbered {s : State} (shape : Shape s) :
    Numbered (s.callers.map Waiter.who) s.submitted :=
  shape.numbered.sublist ((List.sublist_append_right s.queue _).trans
    ((List.sublist_append_right (held s) _).trans (List.sublist_append_right s.executed _)))

theorem Shape.callers_nodup {s : State} (shape : Shape s) :
    (s.callers.map Waiter.who).Nodup :=
  List.Pairwise.of_map Task.id (fun _ _ other same => other (congrArg _ same))
    shape.callers_numbered.1

/-! ### The order of the tasks -/

/-- What is in the queue is what has been put into it and not been taken, and what has been taken
is called, if there is something to call, or about to be. -/
structure Accounted (s : State) : Prop where
  order : s.taken ++ s.queue = s.pushed
  begun : (s.executed ++ (held s).filter Task.callable).Perm (s.taken.filter Task.callable)

theorem workers_length {s t : State} {l : Label} (moves : Moves s l t) :
    t.workers.length = s.workers.length := by
  cases moves <;> simp [State.push, State.pop, State.setWorker]

theorem workers_ne_nil_iff {s t : State} {l : Label} (moves : Moves s l t) :
    t.workers ≠ [] ↔ s.workers ≠ [] := by
  rw [← List.length_pos_iff, ← List.length_pos_iff, workers_length moves]

section Step

variable {s t : State} {l : Label}

/-- A thread goes on that takes no task and calls none. -/
theorem Accounted.goes (accounted : Accounted s) {i : Nat} {old new : Worker}
    (here : s.workers[i]? = some old) (before : old.held = none) (after : new.held = none) :
    Accounted (s.setWorker i new) where
  order := accounted.order
  begun := (((held_set here before after).filter _).append_left _).trans accounted.begun

theorem Accounted.push (accounted : Accounted s) (task : Task) : Accounted (s.push task) where
  order := by simp only [State.push, ← accounted.order, List.append_assoc]
  begun := by simpa only [State.push, held, held_wake] using accounted.begun

theorem step_accounted (accounted : Accounted s) (some : s.workers ≠ []) (moves : Moves s l t) :
    Accounted t := by
  have ⟨order, begun⟩ := accounted
  cases moves with
  | runDirect none => exact absurd none some
  | runWait | resumeWait | wakeCaller => exact ⟨order, begun⟩
  | runPush => exact Accounted.push (s := { s with submitted := s.submitted + 1 }) ⟨order, begun⟩ _
  | @resumePush i =>
      exact Accounted.push (s := { s with callers := s.callers.eraseIdx i }) ⟨order, begun⟩ _
  | @takeTask i woken task queue here front notify =>
      constructor
      · simp only [State.setWorker, State.pop]
        rw [← order, front]
        exact List.append_assoc ..
      · simp only [State.setWorker, State.pop, List.filter_append]
        refine (((held_take here task).filter _).append_left _).trans ?_
        have one := List.filter_append (p := Task.callable) [task] (held s)
        rw [List.singleton_append] at one
        rw [one]
        refine (List.perm_append_comm_assoc ..).trans ?_
        exact (List.perm_append_comm ..).trans (begun.append_right _)
  | @call i task here =>
      constructor
      · simpa [State.setWorker] using order
      · simp only [State.setWorker, State.call_taken]
        refine List.Perm.trans ?_ begun
        unfold State.call
        split
        · rename_i callable
          have same := (held_call here .task rfl).filter Task.callable
          rw [List.filter_cons_of_pos callable] at same
          rw [List.append_assoc]
          exact same.append_left _
        · rename_i empty
          have same := (held_call here .testRunning rfl).filter Task.callable
          rw [List.filter_cons_of_neg empty] at same
          exact same.append_left _
  | goOn here | exit here | takeWait here | takeNone here | finish here | wakeWorker here =>
      exact accounted.goes here rfl rfl
  | stop =>
      refine ⟨order, ?_⟩
      simpa only [held, held_wake] using begun

end Step

theorem reachable_accounted {s : State} (reach : machine.Reachable s) (some : s.workers ≠ []) :
    Accounted s := by
  refine reach.invariant (I := fun s => s.workers ≠ [] → Accounted s) ?_ ?_ some
  · rintro s ⟨maxQueueSize, numThreads, rfl⟩ -
    refine ⟨rfl, ?_⟩
    rw [held_started]
    exact .refl _
  · intro s l t ih step some
    have before := (workers_ne_nil_iff (step_cases step)).mp some
    exact step_accounted (ih before) before (step_cases step)

/-! ### The calls of `run` -/

/-- The argument, if the step is the `id`-th call of `run`. -/
def Label.submits (id : Nat) : Label → List Task
  | .run callable => [⟨id, callable⟩]
  | _ => []

/-- The arguments of the calls of `run`, when `id` of them have been made before. -/
def submissions (id : Nat) : List Label → List Task
  | [] => []
  | l :: labels => l.submits id ++ submissions (id + (l.submits id).length) labels

/-- A call of `run` puts its task into the queue or waits. -/
theorem step_submits {s t : State} {l : Label} (threads : s.workers ≠ []) (moves : Moves s l t) :
    t.submitted = s.submitted + (l.submits s.submitted).length ∧
      (t.pushed ++ t.callers.map Waiter.who).Perm
        ((s.pushed ++ s.callers.map Waiter.who) ++ l.submits s.submitted) := by
  -- the steps of `take`, of a wakeup and of `stop` leave both lists as they are
  have still {callers : List (Waiter Task)}
      (same : callers.map Waiter.who = s.callers.map Waiter.who) :
      (s.pushed ++ callers.map Waiter.who).Perm
        ((s.pushed ++ s.callers.map Waiter.who) ++ []) := by
    rw [same, List.append_nil]
  cases moves with
  | runDirect none => exact absurd none threads
  | @runWait callable workers full =>
      refine ⟨rfl, ?_⟩
      rw [List.map_append, ← List.append_assoc]
      exact .refl _
  | @runPush callable workers room =>
      refine ⟨rfl, ?_⟩
      simp only [State.push, List.append_assoc]
      exact (List.perm_append_comm ..).append_left _
  | resumeWait here full => exact ⟨rfl, still (map_who_set here true)⟩
  | @resumePush i task here room =>
      refine ⟨rfl, ?_⟩
      simp only [State.push, Label.submits, List.append_assoc, List.append_nil]
      exact (perm_eraseIdx here).append_left _
  | takeTask => exact ⟨rfl, still map_who_wake⟩
  | @call i task here =>
      simp only [State.setWorker, State.call_submitted, State.call_pushed, State.call_callers]
      exact ⟨rfl, still rfl⟩
  | wakeCaller here => exact ⟨rfl, still (map_who_set here false)⟩
  | goOn | exit | takeWait | takeNone | finish | wakeWorker | stop => exact ⟨rfl, still rfl⟩

theorem run_submits {s t : State} {labels : List Label} (run : machine.run s labels = some t)
    (threads : s.workers ≠ []) :
    (t.pushed ++ t.callers.map Waiter.who).Perm
      ((s.pushed ++ s.callers.map Waiter.who) ++ submissions s.submitted labels) := by
  induction labels generalizing s with
  | nil =>
      cases run
      rw [submissions, List.append_nil]
  | cons l labels ih =>
      obtain ⟨u, step, run⟩ := Option.bind_eq_some_iff.mp run
      have moves := step_cases step
      obtain ⟨number, first⟩ := step_submits threads moves
      have rest := ih run ((workers_ne_nil_iff moves).mpr threads)
      rw [number] at rest
      rw [submissions, ← List.append_assoc]
      exact rest.trans (first.append_right _)

end Dbdky.ThreadPool
