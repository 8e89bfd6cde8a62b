import Mathlib.Data.List.Nodup
import Dbdky.Port.Channel
import Dbdky.Transition.Machine

/-!
The interface `Poller` (`src/port/Poller.h`) and the operations on channels that go
through it (`Channel::update`, `Channel::remove`, `EventLoop::updateChannel`).

A poller is given by its virtual functions over a state of its own. They fail (`none`)
where an assertion aborts, where `LOG_SYSFATAL` aborts, and where the behaviour is
undefined. Everything runs in the loop thread.

* **`callbacks`.** The callbacks that the next iteration of the loop invokes.
* **`flatMap_perm_of_mem`.** Two lists of active channels lead to the same callbacks, up
  to order, if they differ only in channels that invoke none.
-/

namespace Dbdky.Port

open Transition

/-- `assert(condition)`, in a build with or without assertions -/
def assertIf (debug : Bool) (condition : Prop) [Decidable condition] : Option Unit :=
  if debug → condition then some () else none

@[simp] theorem assertIf_false (condition : Prop) [Decidable condition] :
    assertIf false condition = some () := rfl

theorem assertIf_of (debug : Bool) {condition : Prop} [Decidable condition] (holds : condition) :
    assertIf debug condition = some () := if_pos fun _ => holds

theorem of_assertIf {condition : Prop} [Decidable condition] {u : Unit}
    (passed : assertIf true condition = some u) : condition := by
  unfold assertIf at passed
  split at passed
  · rename_i holds
    exact holds rfl
  · cases passed

/-- An operation that has returned: what it returns has a property. -/
theorem exists_ran_iff {α : Type} {op : Option α} {t : α} {p : α → Prop} (ran : op = some t) :
    (∃ v, op = some v ∧ p v) ↔ p t := by
  constructor
  · rintro ⟨v, ran', after⟩
    obtain rfl : t = v := Option.some.inj (ran.symm.trans ran')
    exact after
  · exact fun after => ⟨t, ran, after⟩

/-- What the kernel does in a call of `poll` or `epoll_wait`. The latter reports the ready
fds in any order, and leaves the last ones for another call if they do not fit. -/
structure Kernel where
  conditions : Fd → Mask
  order : List Fd → List Fd
  permutes : ∀ fds, (order fds).Perm fds

/-- The channels of a loop and the state of its poller. -/
structure Poller.State (σ : Type) where
  channels : Fd → Channel
  poller : σ

/-- The virtual functions of a poller, what it makes the kernel watch, and which channels
it has in its interest set or its slots. -/
structure Poller (σ : Type) where
  new : σ
  poll : Kernel → Poller.State σ → Option (Poller.State σ × List Fd)
  updateChannel : Fd → Poller.State σ → Option (Poller.State σ)
  removeChannel : Fd → Poller.State σ → Option (Poller.State σ)
  watches : σ → Fd → Mask → Prop
  knows : σ → Fd → Bool

namespace Poller

variable {σ : Type}

/-! ### Changes of one channel -/

def State.modify (s : State σ) (fd : Fd) (f : Channel → Channel) : State σ :=
  { s with channels := Function.update s.channels fd (f (s.channels fd)) }

def State.setEvents (s : State σ) (fd : Fd) (events : Mask) : State σ :=
  s.modify fd fun c => { c with events }

def State.setRevents (s : State σ) (fd : Fd) (revents : Mask) : State σ :=
  s.modify fd fun c => { c with revents }

def State.setIndex (s : State σ) (fd : Fd) (index : Int) : State σ :=
  s.modify fd fun c => { c with index }

@[simp] theorem State.modify_poller (s : State σ) (fd : Fd) (f : Channel → Channel) :
    (s.modify fd f).poller = s.poller := rfl

@[simp] theorem State.modify_self (s : State σ) (fd : Fd) (f : Channel → Channel) :
    (s.modify fd f).channels fd = f (s.channels fd) :=
  Function.update_self ..

theorem State.setEvents_self (s : State σ) (fd : Fd) (events : Mask) :
    (s.setEvents fd events).channels fd = { s.channels fd with events } :=
  s.modify_self fd _

theorem State.modify_of_ne (s : State σ) {fd g : Fd} (other : g ≠ fd) (f : Channel → Channel) :
    (s.modify fd f).channels g = s.channels g :=
  Function.update_of_ne other ..

/-! ### The operations of `Channel` -/

/-- `events_` is changed and `update()` called. -/
def change (P : Poller σ) (f : Mask → Mask) (fd : Fd) (s : State σ) : Option (State σ) :=
  P.updateChannel fd (s.setEvents fd (f (s.channels fd).events))

def enableReading (P : Poller σ) : Fd → State σ → Option (State σ) :=
  P.change (· ||| Channel.kReadEvent)

def enableWriting (P : Poller σ) : Fd → State σ → Option (State σ) :=
  P.change (· ||| Channel.kWriteEvent)

def disableWriting (P : Poller σ) : Fd → State σ → Option (State σ) :=
  P.change (· &&& ~~~Channel.kWriteEvent)

def disableAll (P : Poller σ) : Fd → State σ → Option (State σ) :=
  P.change fun _ => Channel.kNoneEvent

def remove (debug : Bool) (P : Poller σ) (fd : Fd) (s : State σ) : Option (State σ) := do
  assertIf debug (s.channels fd).isNoneEvent
  P.removeChannel fd s

/-- The operations that change `events_`. -/
inductive Update where
  | enableReading
  | enableWriting
  | disableWriting
  | disableAll
deriving DecidableEq, Repr

def Update.events : Update → Mask → Mask
  | .enableReading => (· ||| Channel.kReadEvent)
  | .enableWriting => (· ||| Channel.kWriteEvent)
  | .disableWriting => (· &&& ~~~Channel.kWriteEvent)
  | .disableAll => fun _ => Channel.kNoneEvent

def Update.run (P : Poller σ) : Update → Fd → State σ → Option (State σ)
  | .enableReading => P.enableReading
  | .enableWriting => P.enableWriting
  | .disableWriting => P.disableWriting
  | .disableAll => P.disableAll

theorem Update.run_eq (P : Poller σ) (u : Update) : u.run P = P.change u.events := by
  cases u <;> rfl

/-! ### The loop -/

/-- `handleEvent` of the active channels, in order -/
def dispatch (channels : Fd → Channel) (active : List Fd) : List (Fd × Callback) :=
  active.flatMap fun fd => (channels fd).handleEvent.map (fd, ·)

/-- The callbacks that the poll with `kernel` leads to. -/
def callbacks (P : Poller σ) (kernel : Kernel) (s : State σ) : Option (List (Fd × Callback)) := do
  let (s, active) ← P.poll kernel s
  some (dispatch s.channels active)

inductive Label where
  | update (u : Update) (fd : Fd)
  | remove (fd : Fd)
  | poll (kernel : Kernel)

def step (debug : Bool) (P : Poller σ) (s : State σ) : Label → Option (State σ)
  | .update u fd => u.run P fd s
  | .remove fd => P.remove debug fd s
  | .poll kernel => do
      let (s, _) ← P.poll kernel s
      some s

/-- Any channels, and any operations on them and polls. -/
def machine (debug : Bool) (P : Poller σ) : Machine (State σ) Label where
  init s := (∀ fd, (s.channels fd).Fresh) ∧ s.poller = P.new
  step := P.step debug

/-! ### Registering a channel -/

/-- What the owner of a channel relies on when it enables a new channel for the first
time: it succeeds, and that channel is known from then on. -/
structure Registers (P : Poller σ) (Inv : σ → Prop) : Prop where
  new : Inv P.new
  unknown : ∀ fd, P.knows P.new fd = false
  enableReading : ∀ {s : State σ} {fd : Fd}, Inv s.poller → (s.channels fd).Fresh →
    P.knows s.poller fd = false → ∃ t, P.enableReading fd s = some t ∧ Inv t.poller ∧
      (∀ g, P.knows t.poller g = true ↔ P.knows s.poller g = true ∨ g = fd) ∧
      ∀ g ≠ fd, t.channels g = s.channels g

/-! ### Dispatching a report -/

/-- `set_revents` of each reported channel, in order -/
def State.report : List (Fd × Mask) → State σ → State σ
  | [], s => s
  | (fd, revents) :: rest, s => State.report rest (s.setRevents fd revents)

theorem State.report_poller (reports : List (Fd × Mask)) (s : State σ) :
    (s.report reports).poller = s.poller := by
  induction reports generalizing s with
  | nil => rfl
  | cons head rest ih => exact ih _

theorem State.report_of_not_mem {reports : List (Fd × Mask)} {s : State σ} {fd : Fd}
    (absent : fd ∉ reports.map Prod.fst) : (s.report reports).channels fd = s.channels fd := by
  induction reports generalizing s with
  | nil => rfl
  | cons head rest ih =>
      rw [List.map_cons, List.mem_cons, not_or] at absent
      exact (ih absent.2).trans (s.modify_of_ne absent.1 _)

/-- A channel that is reported once has been told what. -/
theorem State.report_of_mem {reports : List (Fd × Mask)} {s : State σ} {fd : Fd} {revents : Mask}
    (nodup : (reports.map Prod.fst).Nodup) (mem : (fd, revents) ∈ reports) :
    ((s.report reports).channels fd).revents = revents := by
  induction reports generalizing s with
  | nil => cases mem
  | cons head rest ih =>
      rw [List.map_cons, List.nodup_cons] at nodup
      rcases List.mem_cons.mp mem with rfl | mem
      · rw [State.report, State.report_of_not_mem nodup.1, setRevents, modify_self]
      · exact ih nodup.2 mem

/-- Reports change nothing but `revents_`. -/
theorem State.report_channel (reports : List (Fd × Mask)) (s : State σ) (fd : Fd) :
    ∃ revents, (s.report reports).channels fd = { s.channels fd with revents } := by
  induction reports generalizing s with
  | nil => exact ⟨_, rfl⟩
  | cons head rest ih =>
      obtain ⟨revents, eq⟩ := ih (s.setRevents head.1 head.2)
      refine ⟨revents, eq.trans ?_⟩
      by_cases same : fd = head.1
      · rw [same, setRevents, modify_self]
      · rw [setRevents, s.modify_of_ne same]

theorem dispatch_report {reports : List (Fd × Mask)} (nodup : (reports.map Prod.fst).Nodup)
    (s : State σ) :
    dispatch (s.report reports).channels (reports.map Prod.fst) =
      reports.flatMap fun r => ((s.channels r.1).react r.2).map (r.1, ·) := by
  induction reports generalizing s with
  | nil => rfl
  | cons head rest ih =>
      obtain ⟨fd, revents⟩ := head
      rw [List.map_cons, List.nodup_cons] at nodup
      have first : (s.report ((fd, revents) :: rest)).channels fd =
          { s.channels fd with revents } :=
        (State.report_of_not_mem nodup.1).trans (s.modify_self fd _)
      have others : ∀ r ∈ rest, (s.setRevents fd revents).channels r.1 = s.channels r.1 := by
        intro r mem
        refine s.modify_of_ne ?_ _
        intro same
        exact nodup.1 (List.mem_map.mpr ⟨r, mem, same⟩)
      rw [dispatch, List.map_cons, List.flatMap_cons, first, List.flatMap_cons]
      congr 1
      refine (ih nodup.2 _).trans (List.flatMap_congr fun r mem => ?_)
      rw [others r mem]

/-- Elements that contribute nothing do not matter, and neither does the order. -/
theorem flatMap_perm_of_mem {α β : Type*} {f : α → List β} {xs ys : List α} (nodup : xs.Nodup)
    (nodup' : ys.Nodup) (same : ∀ x, f x ≠ [] → (x ∈ xs ↔ x ∈ ys)) :
    (xs.flatMap f).Perm (ys.flatMap f) := by
  classical
  have relevant : ∀ zs : List α, zs.flatMap f = (zs.filter (f · ≠ [])).flatMap f := by
    intro zs
    induction zs with
    | nil => rfl
    | cons z zs ih =>
        by_cases empty : f z = []
        · rw [List.flatMap_cons, empty, List.nil_append, ih,
            List.filter_cons_of_neg (by simpa using empty)]
        · rw [List.flatMap_cons, ih, List.filter_cons_of_pos (by simpa using empty),
            List.flatMap_cons]
  rw [relevant xs, relevant ys]
  apply List.Perm.flatMap_right f
  rw [List.perm_ext_iff_of_nodup (nodup.filter _) (nodup'.filter _)]
  intro x
  simp only [List.mem_filter, decide_eq_true_eq]
  refine and_congr_left fun contributes => same x ?_
  simpa using contributes

end Poller

end Dbdky.Port
