import Mathlib.Algebra.GroupWithZero.Nat
import Dbdky.Utils.ThreadPoolTasks

/-!
Stopping a `ThreadPool`.

`stop` wakes the threads in `take` but not the callers that wait for room in the queue.
These are woken by the threads that still take a task, and once the threads have left
`runInThread` by nobody.

* **`stop_strands_nobody`.** In a run in which the callers that wait after `stop` never
  outnumber the threads in `take` or the tasks in the queue, nobody is left waiting for
  good. The queue never grows too large and no task is called twice in any run.
* **`unserved_strands`.** Once they do, somebody can be.
-/

namespace Dbdky.ThreadPool

open Transition Sync

/-! ### Callers that wait after `stop` -/

/-- The thread is in `take`. -/
def Worker.takes : Worker → Bool
  | .take | .waitNotEmpty => true
  | _ => false

/-- The threads in `take`. -/
def takers (s : State) : Nat := s.workers.countP Worker.takes

/-- A thread that has called its task, or has found it empty. -/
theorem takes_called (task : Task) :
    (if task.callable then Worker.task else .testRunning).takes = false := by
  split <;> rfl

/-- There is a thread in `take` and a task in the queue for each caller that waits. -/
def Served (s : State) : Prop :=
  waiting s.callers ≤ takers s ∧ waiting s.callers ≤ s.queue.length

/-- There is one more of each. -/
def ServesOneMore (s : State) : Prop :=
  waiting s.callers < takers s ∧ waiting s.callers < s.queue.length

/-- `stop` clears `running_` while the callers that wait are served, and no caller begins to
wait after that unless it is served as well. -/
def Serves (s : State) : Label → Prop
  | .stop => Served s
  | .run _ => s.running = false → s.workers ≠ [] → s.isFull = true → ServesOneMore s
  | .resume _ => s.running = false → s.isFull = true → ServesOneMore s
  | _ => True

instance (s : State) : ∀ l, Decidable (Serves s l)
  | .stop => inferInstanceAs (Decidable (_ ∧ _))
  | .run _ => inferInstanceAs (Decidable (_ → _ → _ → _ ∧ _))
  | .resume _ => inferInstanceAs (Decidable (_ → _ → _ ∧ _))
  | .testRunning _ | .take _ _ | .call _ | .finish _ | .wakeCaller _ | .wakeWorker _ =>
      isTrue trivial

theorem takers_wake (workers : List Worker) :
    (workers.map Worker.wake).countP Worker.takes = workers.countP Worker.takes := by
  rw [List.countP_map]
  congr 1
  funext worker
  cases worker <;> rfl

theorem takers_set_same {workers : List Worker} {i : Nat} {old : Worker}
    (here : workers[i]? = some old) (new : Worker) (same : new.takes = old.takes) :
    (workers.set i new).countP Worker.takes = workers.countP Worker.takes := by
  have counted := countP_set_add (p := Worker.takes) here new
  rw [same] at counted
  exact Nat.add_right_cancel counted

/-- A thread in `take` that gets a task also wakes a caller, if one waits. -/
theorem waiting_notified {s : State} (shape : Shape s) {woken : List Task}
    (notify : if 0 < s.maxQueueSize then Notify woken s.callers else woken = []) :
    waiting (wake woken s.callers) = 0 ∨ waiting (wake woken s.callers) < waiting s.callers := by
  split at notify
  · exact notify.waiting_wake
  · rename_i unbounded
    have callers : s.callers = [] := by
      by_contra some
      exact unbounded (shape.bounded some).1
    rw [callers]
    exact .inl rfl

/-- A step that meets the condition leaves the callers that wait after `stop` served. -/
theorem step_served {s t : State} {l : Label} (shape : Shape s)
    (served : s.running = false → Served s) (serves : Serves s l) (moves : Moves s l t)
    (stopped : t.running = false) : Served t := by
  unfold Served takers at *
  cases moves with
  | runDirect none =>
      rw [State.call_running] at stopped
      rw [State.call_callers, State.call_workers, State.call_queue]
      exact served stopped
  | runWait workers full =>
      obtain ⟨takers, tasks⟩ := serves stopped workers full
      dsimp only
      rw [waiting_concat]
      exact ⟨takers, tasks⟩
  | runPush workers room =>
      obtain ⟨takers, tasks⟩ := served stopped
      simp only [State.push, takers_wake, List.length_append]
      exact ⟨takers, Nat.le_add_right_of_le tasks⟩
  | resumeWait here full =>
      obtain ⟨takers, tasks⟩ := serves stopped full
      dsimp only
      rw [waiting_set_true here]
      exact ⟨takers, tasks⟩
  | resumePush here room =>
      obtain ⟨takers, tasks⟩ := served stopped
      simp only [State.push, takers_wake, List.length_append, waiting_eraseIdx here]
      exact ⟨takers, Nat.le_add_right_of_le tasks⟩
  | goOn here running => exact absurd (running.symm.trans stopped) (by decide)
  | takeWait here empty running => exact absurd (running.symm.trans stopped) (by decide)
  | exit here =>
      simp only [State.setWorker, takers_set_same here .exited rfl]
      exact served stopped
  | finish here =>
      simp only [State.setWorker, takers_set_same here .testRunning rfl]
      exact served stopped
  | wakeWorker here =>
      simp only [State.setWorker, takers_set_same here .take rfl]
      exact served stopped
  | takeNone here empty =>
      obtain ⟨-, tasks⟩ := served stopped
      rw [empty] at tasks
      have nobody : waiting s.callers = 0 := Nat.le_zero.mp tasks
      simp only [State.setWorker, nobody]
      exact ⟨Nat.zero_le _, Nat.zero_le _⟩
  | @takeTask i woken task queue here front notify =>
      obtain ⟨takers, tasks⟩ := served stopped
      have fewer := waiting_notified shape notify
      have counted := countP_set_add (p := Worker.takes) here (.taken task)
      rw [front, List.length_cons] at tasks
      simp only [Worker.takes, if_true] at counted
      simp only [State.setWorker, State.pop]
      grind
  | @call i task here =>
      simp only [State.setWorker, State.call_running] at stopped
      simp only [State.setWorker, State.call_callers, State.call_workers, State.call_queue,
        takers_set_same here _ (takes_called task)]
      exact served stopped
  | wakeCaller here =>
      obtain ⟨takers, tasks⟩ := served stopped
      have fewer := waiting_set_false here
      dsimp only
      omega
  | stop =>
      obtain ⟨takers, tasks⟩ := serves
      simp only [takers_wake]
      exact ⟨takers, tasks⟩

/-! ### Nobody is stranded -/

/-- All threads have left `runInThread`, and a caller waits that no step to come can notify. -/
def Stranded (s : State) : Prop :=
  (∀ worker ∈ s.workers, worker = .exited) ∧
    ∃ task, ⟨task, true⟩ ∈ s.callers ∧
      ∀ t i woken u, machine.Leads s t → machine.step t (.take i woken) = some u → task ∉ woken

/-- In such a state nobody is served. -/
theorem takers_exited {s : State} (exited : ∀ worker ∈ s.workers, worker = .exited) :
    takers s = 0 := by
  apply List.countP_eq_zero.mpr
  intro worker mem
  rw [exited worker mem]
  decide

theorem not_stranded {s : State} (shape : Shape s) (served : s.running = false → Served s) :
    ¬ Stranded s := by
  rintro ⟨exited, task, mem, -⟩
  have waits : 0 < waiting s.callers := waiting_pos_iff.mpr ⟨task, mem⟩
  have workers := (shape.bounded (List.ne_nil_of_mem mem)).2
  cases running : s.running with
  | true =>
      obtain ⟨worker, mem⟩ := List.exists_mem_of_ne_nil _ workers
      have gone := exited worker mem
      exact shape.working running (gone ▸ mem)
  | false =>
      have served := (served running).1
      rw [takers_exited exited] at served
      omega

theorem reachableWhere_served {s : State} (reach : machine.ReachableWhere Serves s) :
    Shape s ∧ (s.running = false → Served s) := by
  refine reach.invariant (I := fun s => Shape s ∧ (s.running = false → Served s)) ?_ ?_
  · rintro s ⟨maxQueueSize, numThreads, rfl⟩
    exact ⟨started_shape _ _, by simp [State.started]⟩
  · rintro s l t ⟨shape, served⟩ serves step
    have moves := step_cases step
    exact ⟨step_shape shape moves, step_served shape served serves moves⟩

/-! ### Somebody is stranded -/

/-- A thread that has left `runInThread` does nothing more. -/
theorem exited_forever {s t : State} (leads : machine.Leads s t)
    (exited : ∀ worker ∈ s.workers, worker = .exited) : ∀ worker ∈ t.workers, worker = .exited := by
  refine leads.invariant (I := fun s => ∀ worker ∈ s.workers, worker = .exited) exited ?_
  intro s l t exited step
  have nowhere {i : Nat} {worker : Worker} (here : s.workers[i]? = some worker)
      (other : worker ≠ .exited) : False := other (exited worker (List.mem_of_getElem? here))
  have woken : ∀ worker ∈ s.workers.map Worker.wake, worker = .exited := by
    refine List.forall_mem_map.mpr ?_
    intro worker mem
    rw [exited worker mem]
    rfl
  cases step_cases step with
  | runDirect => simpa using exited
  | runPush | resumePush | stop => exact woken
  | runWait | resumeWait | wakeCaller => exact exited
  | goOn here | exit here | takeWait here | takeNone here | takeTask here | call here
  | finish here | wakeWorker here => exact (nowhere here nofun).elim

theorem stranded_of_exited {s : State} (exited : ∀ worker ∈ s.workers, worker = .exited)
    (waits : 0 < waiting s.callers) : Stranded s := by
  obtain ⟨task, mem⟩ := waiting_pos_iff.mp waits
  refine ⟨exited, task, mem, ?_⟩
  intro t i woken u leads step
  obtain ⟨here, -⟩ := Option.ite_none_right_eq_some.mp step
  cases exited_forever leads exited _ (List.mem_of_getElem? here)

/-- How many steps a thread may be from leaving `runInThread`. -/
def Worker.rank : Worker → Nat
  | .waitNotEmpty => 5
  | .take => 4
  | .taken _ => 3
  | .task => 2
  | .testRunning => 1
  | .exited => 0

theorem rank_called (task : Task) :
    (if task.callable then Worker.task else .testRunning).rank < (Worker.taken task).rank := by
  split <;> simp [Worker.rank]

def rank (workers : List Worker) : Nat := (workers.map Worker.rank).sum

theorem rank_set {workers : List Worker} {i : Nat} {old new : Worker}
    (here : workers[i]? = some old) (closer : new.rank < old.rank) :
    rank (workers.set i new) < rank workers := by
  induction workers generalizing i with
  | nil => cases here
  | cons worker workers ih =>
      cases i with
      | zero =>
          cases here
          exact Nat.add_lt_add_right closer _
      | succ i => exact Nat.add_lt_add_left (ih here) _

theorem callers_ne_nil {callers : List (Waiter Task)} (waits : 0 < waiting callers) :
    callers ≠ [] := by
  rintro rfl
  cases waits

/-- After `stop` a thread can move on without serving the callers any better. -/
theorem drain_step {s : State} (shape : Shape s) (stopped : s.running = false)
    (unserved : ¬ Served s) {i : Nat} {worker : Worker} (here : s.workers[i]? = some worker)
    (busy : worker ≠ .exited) :
    ∃ l t, machine.step s l = some t ∧ t.running = false ∧ ¬ Served t ∧
      rank t.workers < rank s.workers := by
  have waits : 0 < waiting s.callers := by
    by_contra nobody
    exact unserved ⟨by omega, by omega⟩
  have moves {l : Label} {t : State} (moved : step s l = some t) :
      machine.step s l = some t := moved
  cases worker with
  | testRunning =>
      refine ⟨.testRunning i, s.setWorker i .exited, moves ?_, stopped, ?_,
        rank_set here (by decide)⟩
      · simp [step, here, stopped]
      · simpa [Served, takers, State.setWorker, takers_set_same here .exited rfl] using unserved
  | task =>
      refine ⟨.finish i, s.setWorker i .testRunning, moves ?_, stopped, ?_,
        rank_set here (by decide)⟩
      · simp [step, here]
      · simpa [Served, takers, State.setWorker, takers_set_same here .testRunning rfl]
          using unserved
  | taken task =>
      refine ⟨.call i, (s.call task).setWorker i
        (if task.callable then .task else .testRunning), moves ?_, ?_, ?_, ?_⟩
      · exact step_call here
      · simpa [State.setWorker] using stopped
      · simpa [Served, takers, State.setWorker, takers_set_same here _ (takes_called task)]
          using unserved
      · rw [State.setWorker, State.call_workers]
        exact rank_set here (rank_called task)
  | waitNotEmpty => exact absurd (List.mem_of_getElem? here) (shape.woken stopped)
  | exited => exact absurd rfl busy
  | take =>
      cases front : s.queue with
      | nil =>
          refine ⟨.take i [], s.setWorker i .testRunning, moves ?_, stopped, ?_,
            rank_set here (by decide)⟩
          · simp [step, takeStep, here, front, stopped]
          · rintro ⟨-, tasks⟩
            simp only [State.setWorker, front, List.length_nil] at tasks
            omega
      | cons task queue =>
          have bounded := (shape.bounded (callers_ne_nil waits)).1
          obtain ⟨who, notify, others⟩ := exists_notify shape.callers_nodup waits
          refine ⟨.take i [who], State.setWorker { s.pop task queue with
            callers := wake [who] s.callers } i (.taken task), moves ?_, stopped, ?_,
            rank_set here (by simp [Worker.rank])⟩
          · exact (if_pos here).trans (takeStep_cons front (by rwa [if_pos bounded]) i)
          · have counted := countP_set_add (p := Worker.takes) here (.taken task)
            simp only [Served, takers, State.setWorker, State.pop, front, List.length_cons,
              Worker.takes, if_true] at unserved counted ⊢
            grind

/-- **Somebody can be stranded** once a caller that waits after `stop` is not served. -/
theorem unserved_strands {s : State} (shape : Shape s) (stopped : s.running = false)
    (unserved : ¬ Served s) : ∃ t, machine.Leads s t ∧ Stranded t := by
  generalize size : rank s.workers = n
  induction n using Nat.strongRecOn generalizing s with
  | ind n ih =>
      by_cases exited : ∀ worker ∈ s.workers, worker = .exited
      · refine ⟨s, .refl s, stranded_of_exited exited ?_⟩
        by_contra nobody
        exact unserved ⟨by omega, by omega⟩
      · obtain ⟨worker, mem, busy⟩ : ∃ worker ∈ s.workers, worker ≠ .exited := by
          simpa using exited
        obtain ⟨i, here⟩ := List.getElem?_of_mem mem
        obtain ⟨l, t, step, stopped', unserved', closer⟩ :=
          drain_step shape stopped unserved here busy
        obtain ⟨u, leads, stranded⟩ :=
          ih _ (size ▸ closer) (step_shape shape (step_cases step)) stopped' unserved' rfl
        exact ⟨u, .head step leads, stranded⟩

/-- A step that does not meet the condition is followed by a run that strands somebody. -/
theorem unmet_strands {s t : State} {l : Label} (reach : machine.Reachable s)
    (step : machine.step s l = some t) (unmet : ¬ Serves s l) :
    ∃ u, machine.Leads t u ∧ Stranded u := by
  have shape := reachable_shape reach
  have moves := step_cases step
  have shape' := step_shape shape moves
  cases moves with
  | stop =>
      refine unserved_strands shape' rfl ?_
      rintro ⟨takes, tasks⟩
      refine unmet ⟨?_, tasks⟩
      rw [takers, ← takers_wake]
      exact takes
  | runDirect none => exact absurd (fun _ some => absurd none some) unmet
  | runPush workers room =>
      refine absurd (fun _ _ full => ?_) unmet
      rw [room] at full
      cases full
  | resumePush here room =>
      refine absurd (fun _ full => ?_) unmet
      rw [room] at full
      cases full
  | runWait workers full =>
      by_cases stopped : s.running = false
      · refine unserved_strands shape' stopped ?_
        rintro ⟨takers, tasks⟩
        dsimp only at tasks
        rw [waiting_concat] at takers tasks
        exact unmet fun _ _ _ => ⟨takers, tasks⟩
      · exact absurd (fun off => absurd off stopped) unmet
  | resumeWait here full =>
      by_cases stopped : s.running = false
      · refine unserved_strands shape' stopped ?_
        rintro ⟨takers, tasks⟩
        dsimp only at tasks
        rw [waiting_set_true here] at takers tasks
        exact unmet fun _ _ => ⟨takers, tasks⟩
      · exact absurd (fun off => absurd off stopped) unmet
  | goOn | exit | takeWait | takeNone | takeTask | call | finish | wakeCaller | wakeWorker =>
      exact absurd trivial unmet

/-- **`stop` strands nobody** while every caller that waits is served. -/
theorem stop_strands_nobody {s : State} (reach : machine.ReachableWhere Serves s) :
    (0 < s.maxQueueSize → s.queue.length ≤ s.maxQueueSize) ∧
      (s.executed.map Task.id).Nodup ∧ ¬ Stranded s := by
  obtain ⟨shape, served⟩ := reachableWhere_served reach
  refine ⟨shape.bound, ?_, not_stranded shape served⟩
  have numbered := shape.numbered.sublist (List.sublist_append_left _ _)
  exact numbered.1

/-- A pool of one thread, for one task in the queue, at the end: the second call of `run` waited
when the pool was stopped and was served. -/
def finished : State where
  maxQueueSize := 1
  running := false
  queue := [⟨1, true⟩]
  workers := [.exited]
  callers := []
  submitted := 2
  pushed := [⟨0, true⟩, ⟨1, true⟩]
  taken := [⟨0, true⟩]
  executed := [⟨0, true⟩]

theorem stop_strands_nobody_finished :
    (0 < finished.maxQueueSize → finished.queue.length ≤ finished.maxQueueSize) ∧
      (finished.executed.map Task.id).Nodup ∧ ¬ Stranded finished := by
  refine stop_strands_nobody ⟨.started 1 1, ⟨1, 1, rfl⟩, ?_⟩
  exact Machine.leadsWhere_of_run
    [.testRunning 0, .run true, .run true, .stop, .take 0 [⟨1, true⟩], .resume 0, .call 0,
      .finish 0, .testRunning 0] (by decide) (by decide)

/-- The thread is in the first task and the second is in the queue, so that the third caller
waits; then the pool is stopped, and the thread leaves. -/
theorem caller_stranded : ∃ s, machine.Reachable s ∧ Stranded s := by
  refine ⟨{ finished with submitted := 3, callers := [⟨⟨2, true⟩, true⟩] }, ?_, ?_⟩
  · exact Machine.reachable_of_run
      [.run true, .testRunning 0, .take 0 [], .call 0, .run true, .run true, .stop, .finish 0,
        .testRunning 0] ⟨1, 1, rfl⟩ (by decide)
  · exact stranded_of_exited (by decide) (by decide)

end Dbdky.ThreadPool
