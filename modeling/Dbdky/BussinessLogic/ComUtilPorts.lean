import Mathlib.Logic.Function.Basic
import Dbdky.BussinessLogic.ComUtil
import Dbdky.Transition.Machine

/-!
Several `ComUtil` objects (`src/bussiness_logic/ComEntity.{h,cpp}`). `serialClose` gives a port
the settings back that it had before, but they are kept in `xOldTIO`, which is not a member.

A label is a call on one of the objects, with what the system calls return.

* **`serialClose_restores_iff`.** In a run every port gets its own settings back exactly if,
  whenever one is closed, the last settings that were read from any port are the same as its
  own.
-/

namespace Dbdky.ComUtil

open Transition

/-- `serialClose()`: what is passed to `tcsetattr`, which may fail, and the system. -/
def serialClose (tcsetattr : Int) (u : ComUtil) (sys : System) : Option Termios × System :=
  if u.comFd ≠ -1 then
    let sys' := if tcsetattr ≠ 0 then sys
      else { sys with applied := sys.applied ++ [(u.comFd, sys.xOldTIO)] }
    (some sys.xOldTIO, { sys' with descriptors := sys'.descriptors.erase u.comFd })
  else (none, sys)

/-! ### The objects -/

/-- A call of `serialInit` in which `tcgetattr` has succeeded. -/
structure Init where
  object : Nat
  settings : Termios
  /-- What `serialInit` has returned. -/
  bStatus : Bool
deriving DecidableEq, Repr

structure Objects where
  sys : System
  /-- `none` for an object that has not been constructed. -/
  object : Nat → Option ComUtil
  /-- History: the newest first. -/
  inits : List Init

inductive Call where
  | new (object : Nat) (answers : Answers) (portName : String) (baudRate : UInt64)
      (dataBits : UInt8) (eParity : EMBParity)
  | serialInit (object : Nat) (answers : Answers)
  | serialClose (object : Nat) (tcsetattr : Int)

/-- `tcgetattr` is reached, and succeeds. -/
def Answers.Reported (answers : Answers) : Prop :=
  ¬ answers.opened < 0 ∧ ¬ answers.tcgetattr ≠ 0

instance (answers : Answers) : Decidable answers.Reported :=
  inferInstanceAs (Decidable (_ ∧ _))

/-- The history after `serialInit` has returned `bStatus`. -/
def record (object : Nat) (answers : Answers) (bStatus : Bool) (inits : List Init) : List Init :=
  if answers.Reported then ⟨object, answers.settings, bStatus⟩ :: inits else inits

def step (s : Objects) : Call → Option Objects
  | .new i answers portName baudRate dataBits eParity =>
      match s.object i with
      | some _ => none
      | none =>
          let bStatus := (serialInit answers
            ⟨portName, baudRate, dataBits, eParity, -1, false, false⟩ s.sys).1
          let (u, sys) := new answers portName baudRate dataBits eParity s.sys
          some ⟨sys, Function.update s.object i (some u), record i answers bStatus s.inits⟩
  | .serialInit i answers => do
      let u ← s.object i
      let (bStatus, comFd, sys) := serialInit answers u s.sys
      some ⟨sys, Function.update s.object i (some { u with comFd }),
        record i answers bStatus s.inits⟩
  | .serialClose i tcsetattr => do
      let u ← s.object i
      some { s with sys := (serialClose tcsetattr u s.sys).2 }

/-- No object has been constructed. -/
def objects : Machine Objects Call where
  init s := (∀ i, s.object i = none) ∧ s.inits = []
  step := step

/-- What `tcgetattr` has reported in the object's latest successful `serialInit`. -/
def saved (i : Nat) (inits : List Init) : Option Termios :=
  (inits.find? fun init => init.object = i ∧ init.bStatus).map Init.settings

/-- What `serialClose` passes to `tcsetattr` is what the port has reported itself. -/
def Restores : Guard Objects Call
  | s, .serialClose i tcsetattr => ∀ u, s.object i = some u →
      ∀ t, (serialClose tcsetattr u s.sys).1 = some t → saved i s.inits = some t
  | _, _ => True

/-- Whichever port the last settings are from, they are what this port has reported itself. -/
def Undisturbed : Guard Objects Call
  | s, .serialClose i _ => ∀ u, s.object i = some u → u.comFd ≠ -1 →
      ∃ last, s.inits.head? = some last ∧ saved i s.inits = some last.settings
  | _, _ => True

/-! ### One variable for all ports -/

/-- `xOldTIO` is what has been reported last. -/
def Shared (s : Objects) : Prop :=
  ∀ last, s.inits.head? = some last → s.sys.xOldTIO = last.settings

section Shared

variable {answers : Answers} {s t : Objects} {call : Call}

theorem serialInit_saves (u : ComUtil) (sys : System) :
    System.xOldTIO (serialInit answers u sys).2.2 =
      if answers.Reported then answers.settings else sys.xOldTIO := by
  by_cases opened : answers.opened < 0
  · have not_reported : ¬ answers.Reported := fun reported => reported.1 opened
    rw [if_neg not_reported, serialInit, if_pos opened]
  by_cases no_settings : answers.tcgetattr ≠ 0
  · have not_reported : ¬ answers.Reported := fun reported => reported.2 no_settings
    rw [if_neg not_reported, serialInit, if_neg opened, if_pos no_settings]
  · have reported : answers.Reported := ⟨opened, no_settings⟩
    rw [if_pos reported, serialInit, if_neg opened, if_neg no_settings]
    dsimp only
    split
    · exact (applySettings_frame ..).2
    · rfl

theorem new_saves (portName : String) (baudRate : UInt64) (dataBits : UInt8)
    (eParity : EMBParity) (sys : System) :
    System.xOldTIO (new answers portName baudRate dataBits eParity sys).2 =
      if answers.Reported then answers.settings else sys.xOldTIO := by
  rw [← serialInit_saves ⟨portName, baudRate, dataBits, eParity, -1, false, false⟩, new]
  dsimp only
  split <;> rfl

theorem serialClose_keeps (tcsetattr : Int) (u : ComUtil) (sys : System) :
    System.xOldTIO (serialClose tcsetattr u sys).2 = sys.xOldTIO := by
  unfold serialClose
  split
  · dsimp only
    split <;> rfl
  · rfl

/-- A call of `serialInit` leaves `xOldTIO` as the newest entry of the history says. -/
theorem shared_record (shared : Shared s) (i : Nat) (bStatus : Bool) {object : Nat → Option ComUtil}
    {sys : System}
    (stored : sys.xOldTIO = if answers.Reported then answers.settings else s.sys.xOldTIO) :
    Shared ⟨sys, object, record i answers bStatus s.inits⟩ := by
  intro last newest
  have newest : (record i answers bStatus s.inits).head? = some last := newest
  rw [stored]
  by_cases reported : answers.Reported
  · rw [record, if_pos reported] at newest
    rw [if_pos reported, ← Option.some.inj newest]
  · rw [record, if_neg reported] at newest
    rw [if_neg reported]
    exact shared last newest

theorem step_shared (shared : Shared s) (moved : step s call = some t) : Shared t := by
  cases call with
  | new i answers portName baudRate dataBits eParity =>
      rw [step] at moved
      split at moved
      · cases moved
      · cases moved
        exact shared_record shared i _ (new_saves ..)
  | serialInit i answers =>
      obtain ⟨u, -, made⟩ := Option.bind_eq_some_iff.mp moved
      cases made
      exact shared_record shared i _ (serialInit_saves ..)
  | serialClose i tcsetattr =>
      obtain ⟨u, -, made⟩ := Option.bind_eq_some_iff.mp moved
      cases made
      intro last newest
      exact (serialClose_keeps ..).trans (shared last newest)

theorem passed_eq_some_iff {tcsetattr : Int} {u : ComUtil} {sys : System} {t : Termios} :
    (serialClose tcsetattr u sys).1 = some t ↔ u.comFd ≠ -1 ∧ sys.xOldTIO = t := by
  unfold serialClose
  split
  case isTrue has_fd => exact Option.some_inj.trans (and_iff_right has_fd).symm
  case isFalse no_fd => exact iff_of_false nofun fun passed => no_fd passed.1

theorem restores_iff_undisturbed (shared : Shared s) : Restores s call ↔ Undisturbed s call := by
  cases call with
  | new | serialInit => exact Iff.rfl
  | serialClose i tcsetattr =>
      refine forall₂_congr fun u _ => ?_
      constructor
      · intro restores has_fd
        have own := restores s.sys.xOldTIO (passed_eq_some_iff.mpr ⟨has_fd, rfl⟩)
        obtain ⟨init, found, -⟩ := Option.map_eq_some_iff.mp own
        cases newest : s.inits.head? with
        | none =>
            rw [List.head?_eq_none_iff.mp newest] at found
            cases found
        | some last => exact ⟨last, rfl, shared last newest ▸ own⟩
      · intro undisturbed t passed
        obtain ⟨has_fd, rfl⟩ := passed_eq_some_iff.mp passed
        obtain ⟨last, newest, own⟩ := undisturbed has_fd
        rw [own, shared last newest]

end Shared

/-- **In a run every `serialClose` passes on the port's own settings exactly if, whenever one is
made, the last settings that were read are the same.** -/
theorem serialClose_restores_iff {s t : Objects} (initial : objects.init s) {calls : List Call}
    (run : objects.run s calls = some t) :
    objects.Meets Restores s calls ↔ objects.Meets Undisturbed s calls := by
  refine Machine.meets_iff_meets_of_invariant
    (fun s _ _ (shared : Shared s) _ => restores_iff_undisturbed shared)
    (fun s _ _ (shared : Shared s) _ moved => step_shared shared moved) ?_ run
  intro last newest
  rw [initial.2] at newest
  cases newest

/-- One port alone gets its settings back. -/
theorem serialClose_restores_one :
    let own : Termios := { Termios.zero with cOspeed := B9600 }
    let calls : List Call :=
      [.new 1 ⟨5, 0, own, 0, 0, 0⟩ "/dev/ttyS1" 9600 8 .MB_PAR_NONE, .serialClose 1 0]
    let start : Objects := ⟨⟨[], [], .zero, .zero⟩, fun _ => none, []⟩
    objects.Meets Restores start calls := by
  intro own calls start
  have initial : objects.init start := ⟨fun _ => rfl, rfl⟩
  obtain ⟨t, run⟩ : ∃ t, objects.run start calls = some t := ⟨_, rfl⟩
  refine (serialClose_restores_iff initial run).mpr ⟨trivial, fun opened step => ?_⟩
  cases step
  refine ⟨fun u _ _ => ⟨_, rfl, rfl⟩, fun _ _ => trivial⟩

/-- The first of two ports is closed with the settings of the second. -/
theorem serialClose_other_settings :
    let first : Termios := .zero
    let second : Termios := { first with cOspeed := B9600 }
    let calls : List Call :=
      [.new 1 ⟨5, 0, first, 0, 0, 0⟩ "/dev/ttyS1" 9600 8 .MB_PAR_NONE,
        .new 2 ⟨6, 0, second, 0, 0, 0⟩ "/dev/ttyS2" 9600 8 .MB_PAR_NONE, .serialClose 1 0]
    let start : Objects := ⟨⟨[], [], .zero, .zero⟩, fun _ => none, []⟩
    objects.init start ∧ (∃ t, objects.run start calls = some t) ∧
      ¬ objects.Meets Restores start calls := by
  refine ⟨⟨fun _ => rfl, rfl⟩, ⟨_, rfl⟩, ?_⟩
  rintro ⟨-, after_first⟩
  obtain ⟨-, after_second⟩ := after_first _ rfl
  obtain ⟨restores, -⟩ := after_second _ rfl
  have own := restores _ rfl _ rfl
  exact absurd own (by decide)

end Dbdky.ComUtil
