import Dbdky.BussinessLogic.ComEntity

/-!
What becomes of the bytes that are sent.

`sendInLoop` returns at once when the state is `kOpened`, and writes when it is not; what
`::write` does not take is nowhere put into `outputBuffer_`. So nothing is ever written
while the port is open, `outputBuffer_` stays empty, and the stream is lossless only as
long as there is nothing to lose:

* **`lossless_iff`.** In every reachable state the output stream is lossless and ordered
  iff every message `sendInLoop` has run on is empty.
-/

namespace Dbdky.ComEntity

open Transition

/-- The messages that are queued in the loop. -/
def queuedMessages (queue : List Functor) : List (List UInt8) :=
  queue.filterMap fun
    | .sendInLoop message => some message
    | _ => none

/-- The bytes written, those in `outputBuffer_` and the queued messages are the messages
sent, in the order in which they reach `sendInLoop`; and nothing has been written while
the state was not `kOpened`. -/
def Lossless (s : State) : Prop :=
  s.written ++ s.outputBuffer.content ++ (queuedMessages s.queue).flatten =
      (s.sent ++ queuedMessages s.queue).flatten ∧
    s.writtenUnopened = []

structure Inv (s : State) : Prop where
  /-- Whatever has been written was written while the port was not open. -/
  unopened : s.writtenUnopened = s.written
  untouched : s.outputBuffer = .new
  silent : (∀ message ∈ s.sent, message = []) → s.written = []

theorem sendInLoop_inv {s t : State} {message : List UInt8} {len : Nat} {result : WriteResult}
    (inv : Inv s) (empty : message = [] → len = 0)
    (sent : sendInLoop s message len result = some t) : Inv t := by
  obtain ⟨unopened, untouched, silent⟩ := inv
  have silent' : (∀ m ∈ s.sent ++ [message], m = []) → s.written = [] ∧ message = [] := by
    intro all
    exact ⟨silent fun m mem => all m (List.mem_append_left _ mem),
      all message (List.mem_append_right _ (List.mem_singleton_self _))⟩
  simp only [sendInLoop] at sent
  split at sent
  · cases sent
    exact ⟨unopened, untouched, fun all => (silent' all).1⟩
  · split at sent
    · split at sent
      · rename_i n beyond
        obtain ⟨⟨le, taken⟩, ⟨⟩⟩ := Option.ite_none_right_eq_some.mp sent
        refine ⟨congrArg (· ++ _) unopened, untouched, fun all => ?_⟩
        obtain ⟨nothing, rfl⟩ := silent' all
        have none_asked := empty rfl
        obtain rfl : n = 0 := by omega
        simp [nothing]
      · cases sent
        exact ⟨unopened, untouched, fun all => (silent' all).1⟩
    · cases sent
      exact ⟨unopened, untouched, fun all => (silent' all).1⟩

theorem step_inv {s t : State} {l : Label} (inv : Inv s) (step : machine.step s l = some t) :
    Inv t := by
  have step : ComEntity.step s l = some t := step
  cases l with
  | send message result =>
      simp only [ComEntity.step, send] at step
      split at step
      · cases message with
        | data bytes => exact sendInLoop_inv inv (by rintro rfl; rfl) step
        | stringPiece bytes short => exact sendInLoop_inv inv (by rintro rfl; rfl) step
        | buffer buf valid =>
            obtain ⟨u, sent, ⟨⟩⟩ := Option.bind_eq_some_iff.mp step
            have inv' := sendInLoop_inv inv (fun empty => by
              rw [valid.represents.readableBytes, empty, List.length_nil]) sent
            exact ⟨inv'.unopened, inv'.untouched, inv'.silent⟩
      · cases step
        exact inv
  | sendFromOther message =>
      simp only [ComEntity.step, sendFromOther] at step
      split at step
      · cases message with
        | data bytes | stringPiece bytes short =>
            cases step
            exact ⟨inv.unopened, inv.untouched, inv.silent⟩
        | buffer buf valid =>
            obtain ⟨⟨string, left⟩, -, ⟨⟩⟩ := Option.bind_eq_some_iff.mp step
            exact ⟨inv.unopened, inv.untouched, inv.silent⟩
      · cases step
        exact inv
  | shutdown thread =>
      obtain rfl := Option.some.inj step
      cases thread <;> simp only [shutdown] <;> split
      all_goals exact ⟨inv.unopened, inv.untouched, inv.silent⟩
  | queueInLoop i =>
      simp only [ComEntity.step] at step
      split at step <;> cases step
      exact ⟨inv.unopened, inv.untouched, inv.silent⟩
  | runFunctor result =>
      simp only [ComEntity.step] at step
      split at step
      · rename_i message queue _
        have popped : Inv { s with queue } := ⟨inv.unopened, inv.untouched, inv.silent⟩
        exact sendInLoop_inv popped (by rintro rfl; rfl) step
      · cases step
        exact ⟨inv.unopened, inv.untouched, inv.silent⟩
      · cases step
        exact ⟨inv.unopened, inv.untouched, inv.silent⟩
      · cases step
  | writable =>
      obtain ⟨-, ⟨⟩⟩ := Option.ite_none_right_eq_some.mp step
      exact inv

theorem reachable_inv {s : State} (reach : machine.Reachable s) : Inv s := by
  refine reach.invariant ?_ fun _ _ _ inv step => step_inv inv step
  rintro _ ⟨hasWriteComplete, rfl⟩
  exact ⟨rfl, rfl, fun _ => rfl⟩

/-- **When the stream is lossless.** Exactly as long as every message that `sendInLoop` has
run on is empty. -/
theorem lossless_iff {s : State} (reach : machine.Reachable s) :
    Lossless s ↔ ∀ message ∈ s.sent, message = [] := by
  obtain ⟨unopened, untouched, silent⟩ := reachable_inv reach
  have empty : s.outputBuffer.content = [] := by
    rw [untouched]
    exact Port.Buffer.new_represents.content
  rw [Lossless, unopened, empty, List.append_nil, List.flatten_append, List.append_cancel_right_eq]
  constructor
  · rintro ⟨written, nothing⟩
    rw [nothing] at written
    exact List.flatten_eq_nil_iff.mp written.symm
  · intro all
    exact ⟨(silent all).trans (List.flatten_eq_nil_iff.mpr all).symm, silent all⟩

/-- An empty message, sent by another thread and run after a `shutdown`. -/
theorem lossless_iff_empty : ∃ s : State, s.sent = [[]] ∧ s.state = .kIdle ∧
    (Lossless s ↔ ∀ message ∈ s.sent, message = []) := by
  let labels : List Label :=
    [.sendFromOther (.data []), .queueInLoop 0, .shutdown .loop, .runFunctor (.wrote 0 [])]
  exact ⟨_, rfl, rfl, lossless_iff (Machine.reachable_of_run labels ⟨true, rfl⟩ rfl)⟩

/-- A byte is sent in the loop thread while the port is open. -/
theorem byte_lost : ¬ ∀ s : State, machine.Reachable s → Lossless s := by
  intro lossless
  obtain ⟨stream, -⟩ := lossless _
    (Machine.reachable_of_run [.send (.data [120]) (.wrote 1 [])] ⟨true, rfl⟩ rfl)
  exact absurd stream (by decide)

end Dbdky.ComEntity
