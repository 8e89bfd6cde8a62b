import Mathlib.Logic.Relation
import Mathlib.Tactic.Common

/-!
Partial machines and their runs.

A machine has a set of initial states and a partial step function: `none` says
that a label is not enabled. Everything the environment decides (which thread
moves, what a system call returns) is part of the label, so a run is a list of
labels and can be executed.

A *guard* is a condition on the state before a step and the label. The rules
everything else is derived from:

* **`ReachableWhere.invariant`.** A predicate that holds initially and is kept by
  every step that meets the guard holds in every state a guarded run reaches.
* **`LeadsWhere.invariant`.** The same from an arbitrary state on, for what holds
  from some moment of a run to its end.
* **`keeps_iff_meets`.** If the guard is the exact condition under which a step keeps a
  predicate, it is the exact condition for whole runs.
* **`keeps_iff_meets_of_invariant`, `meets_iff_meets_of_invariant`.** The same of enabled
  runs, where an invariant of the guarded steps is needed to see it.
* **`run_refines`, `run_implements`.** If every guarded step of one machine is matched by
  the same label of another, guarded label lists run to related states in both.
-/

namespace Transition

/-- A machine: initial states and a partial step function. -/
structure Machine (State Label : Type*) where
  init : State → Prop
  step : State → Label → Option State

/-- A condition on the state before a step and on the step's label. -/
abbrev Guard (State Label : Type*) := State → Label → Prop

namespace Machine

variable {State Label : Type*} (M : Machine State Label)

/-! ### Executing a list of labels -/

/-- Execute the labels from left to right; `none` if one of them is not enabled. -/
def run : State → List Label → Option State
  | s, [] => some s
  | s, l :: ls => (M.step s l).bind fun t => run t ls

@[simp] theorem run_cons (s : State) (l : Label) (ls : List Label) :
    M.run s (l :: ls) = (M.step s l).bind fun t => M.run t ls := rfl

/-- Every step of the run of `ls` from `s` meets the guard. -/
def Meets (guard : Guard State Label) : State → List Label → Prop
  | _, [] => True
  | s, l :: ls => guard s l ∧ ∀ t, M.step s l = some t → Meets guard t ls

/-- Whether a run meets a decidable guard can be computed. -/
instance Meets.decidable (guard : Guard State Label) [∀ s l, Decidable (guard s l)] :
    ∀ s ls, Decidable (M.Meets guard s ls)
  | _, [] => isTrue trivial
  | s, l :: ls =>
      have : Decidable (∀ t, M.step s l = some t → M.Meets guard t ls) :=
        match M.step s l with
        | none => isTrue fun _ => nofun
        | some u =>
            have := Meets.decidable guard u ls
            decidable_of_iff (M.Meets guard u ls)
              ⟨fun meets _ same => Option.some.inj same ▸ meets, fun meets => meets u rfl⟩
      inferInstanceAs (Decidable (_ ∧ _))

/-! ### Reachability -/

/-- One step that meets the guard. -/
def StepWhere (guard : Guard State Label) (s t : State) : Prop :=
  ∃ l, guard s l ∧ M.step s l = some t

/-- Any number of steps that all meet the guard. -/
def LeadsWhere (guard : Guard State Label) : State → State → Prop :=
  Relation.ReflTransGen (M.StepWhere guard)

/-- Any number of steps. -/
def Leads : State → State → Prop := M.LeadsWhere fun _ _ => True

/-- The states a run whose steps all meet the guard reaches from an initial state. -/
def ReachableWhere (guard : Guard State Label) (t : State) : Prop :=
  ∃ s, M.init s ∧ M.LeadsWhere guard s t

/-- The states a run reaches from an initial state. -/
def Reachable : State → Prop := M.ReachableWhere fun _ _ => True

variable {M} {guard : Guard State Label} {s t u : State}

theorem LeadsWhere.refl (s : State) : M.LeadsWhere guard s s := Relation.ReflTransGen.refl

theorem LeadsWhere.tail {l : Label} (before : M.LeadsWhere guard s t) (meets : guard t l)
    (step : M.step t l = some u) : M.LeadsWhere guard s u :=
  Relation.ReflTransGen.tail before ⟨l, meets, step⟩

theorem LeadsWhere.trans (first : M.LeadsWhere guard s t) (second : M.LeadsWhere guard t u) :
    M.LeadsWhere guard s u :=
  Relation.ReflTransGen.trans first second

theorem LeadsWhere.mono {weaker : Guard State Label} (weaken : ∀ s l, guard s l → weaker s l)
    (leads : M.LeadsWhere guard s t) : M.LeadsWhere weaker s t :=
  Relation.ReflTransGen.mono (fun _ _ ⟨l, meets, step⟩ => ⟨l, weaken _ _ meets, step⟩) _ _ leads

theorem Leads.tail {l : Label} (before : M.Leads s t) (step : M.step t l = some u) :
    M.Leads s u :=
  LeadsWhere.tail before trivial step

theorem Leads.head {l : Label} (step : M.step s l = some t) (after : M.Leads t u) :
    M.Leads s u :=
  Relation.ReflTransGen.head ⟨l, trivial, step⟩ after

theorem LeadsWhere.leads (before : M.LeadsWhere guard s t) : M.Leads s t :=
  before.mono fun _ _ _ => trivial

theorem Reachable.of_init (initial : M.init s) : M.Reachable s := ⟨s, initial, .refl s⟩

theorem ReachableWhere.tail {l : Label} (before : M.ReachableWhere guard t) (meets : guard t l)
    (step : M.step t l = some u) : M.ReachableWhere guard u := by
  obtain ⟨s, initial, leads⟩ := before
  exact ⟨s, initial, leads.tail meets step⟩

theorem Reachable.tail {l : Label} (before : M.Reachable t) (step : M.step t l = some u) :
    M.Reachable u :=
  ReachableWhere.tail before trivial step

theorem ReachableWhere.trans (before : M.ReachableWhere guard t)
    (after : M.LeadsWhere guard t u) : M.ReachableWhere guard u := by
  obtain ⟨s, initial, leads⟩ := before
  exact ⟨s, initial, leads.trans after⟩

theorem Reachable.trans (before : M.Reachable t) (after : M.Leads t u) : M.Reachable u :=
  ReachableWhere.trans before after

theorem ReachableWhere.reachable (before : M.ReachableWhere guard t) : M.Reachable t := by
  obtain ⟨s, initial, leads⟩ := before
  exact ⟨s, initial, leads.leads⟩

/-- An executed run whose steps meet the guard leads to its last state. -/
theorem leadsWhere_of_run (ls : List Label) (meets : M.Meets guard s ls)
    (run : M.run s ls = some t) : M.LeadsWhere guard s t := by
  induction ls generalizing s with
  | nil =>
      cases run
      exact .refl _
  | cons l ls ih =>
      obtain ⟨first, rest⟩ := meets
      obtain ⟨middle, step, tail⟩ := Option.bind_eq_some_iff.mp run
      exact (LeadsWhere.refl s |>.tail first step).trans (ih (rest middle step) tail)

theorem meets_true (s : State) (ls : List Label) : M.Meets (fun _ _ => True) s ls := by
  induction ls generalizing s with
  | nil => trivial
  | cons l ls ih => exact ⟨trivial, fun t _ => ih t⟩

theorem meets_append_iff (ls ms : List Label) :
    M.Meets guard s (ls ++ ms) ↔
      M.Meets guard s ls ∧ ∀ t, M.run s ls = some t → M.Meets guard t ms := by
  induction ls generalizing s with
  | nil => simp [Meets, run]
  | cons l ls ih =>
      simp only [List.cons_append, Meets, ih, run_cons, Option.bind_eq_some_iff]
      constructor
      · rintro ⟨first, rest⟩
        refine ⟨⟨first, fun middle step => (rest middle step).1⟩, ?_⟩
        rintro t ⟨middle, step, tail⟩
        exact (rest middle step).2 t tail
      · rintro ⟨⟨first, rest⟩, last⟩
        exact ⟨first, fun middle step =>
          ⟨rest middle step, fun t tail => last t ⟨middle, step, tail⟩⟩⟩

/-- A guard on the labels alone speaks of the labels of an enabled run. -/
theorem meets_label_iff {P : Label → Prop} {ls : List Label} (run : M.run s ls = some t) :
    M.Meets (fun _ l => P l) s ls ↔ ∀ l ∈ ls, P l := by
  induction ls generalizing s with
  | nil => exact iff_of_true trivial nofun
  | cons l ls ih =>
      obtain ⟨middle, step, tail⟩ := Option.bind_eq_some_iff.mp run
      rw [Meets, List.forall_mem_cons]
      refine and_congr_right fun _ => ?_
      rw [← ih tail]
      constructor
      · intro rest
        exact rest middle step
      · intro rest u step'
        obtain rfl : middle = u := Option.some.inj (step.symm.trans step')
        exact rest

theorem leads_of_run (ls : List Label) (run : M.run s ls = some t) : M.Leads s t :=
  leadsWhere_of_run ls (meets_true s ls) run

theorem reachable_of_run (ls : List Label) (initial : M.init s) (run : M.run s ls = some t) :
    M.Reachable t :=
  ⟨s, initial, leads_of_run ls run⟩

/-! ### Invariants -/

/-- **Invariant rule.** What every guarded step keeps holds from a state on. -/
theorem LeadsWhere.invariant {I : State → Prop} (leads : M.LeadsWhere guard s t) (start : I s)
    (keep : ∀ s l t, I s → guard s l → M.step s l = some t → I t) : I t := by
  induction leads with
  | refl => exact start
  | tail _ step ih =>
      obtain ⟨l, meets, step⟩ := step
      exact keep _ l _ ih meets step

/-- What holds initially and is kept by every guarded step holds in every state a
guarded run reaches. -/
theorem ReachableWhere.invariant {I : State → Prop} (reach : M.ReachableWhere guard t)
    (start : ∀ s, M.init s → I s)
    (keep : ∀ s l t, I s → guard s l → M.step s l = some t → I t) : I t := by
  obtain ⟨s, initial, leads⟩ := reach
  exact leads.invariant (start s initial) keep

theorem Leads.invariant {I : State → Prop} (leads : M.Leads s t) (start : I s)
    (keep : ∀ s l t, I s → M.step s l = some t → I t) : I t :=
  LeadsWhere.invariant leads start fun s l t inv _ step => keep s l t inv step

theorem Reachable.invariant {I : State → Prop} (reach : M.Reachable t)
    (start : ∀ s, M.init s → I s) (keep : ∀ s l t, I s → M.step s l = some t → I t) : I t :=
  ReachableWhere.invariant reach start fun s l t inv _ step => keep s l t inv step

/-- What guarded steps keep makes a law hold of every step of a guarded run. -/
theorem meets_of_invariant {I : State → Prop} {law : Guard State Label}
    (sound : ∀ s l, I s → law s l)
    (keep : ∀ s l t, I s → guard s l → M.step s l = some t → I t)
    {ls : List Label} (start : I s) (meets : M.Meets guard s ls) : M.Meets law s ls := by
  induction ls generalizing s with
  | nil => trivial
  | cons l ls ih =>
      obtain ⟨first, rest⟩ := meets
      exact ⟨sound s l start, fun t step => ih (keep s l t start first step) (rest t step)⟩

/-! ### What holds along a run -/

/-- The labels are all enabled, one after the other, and every state on the way satisfies `I`. -/
def Keeps (M : Machine State Label) (I : State → Prop) : State → List Label → Prop
  | s, [] => I s
  | s, l :: ls => I s ∧ ∃ t, M.step s l = some t ∧ Keeps M I t ls

theorem Keeps.start {I : State → Prop} {ls : List Label} (keeps : M.Keeps I s ls) : I s := by
  cases ls with
  | nil => exact keeps
  | cons l ls => exact keeps.1

/-- If the guard says exactly of which steps `I` is kept, then it says of which runs. -/
theorem keeps_iff_meets {I : State → Prop} {legal : Guard State Label}
    (exact_step : ∀ s l, I s → legal s l → ((∃ t, M.step s l = some t ∧ I t) ↔ guard s l))
    {ls : List Label} (start : I s) (lawful : M.Meets legal s ls) :
    M.Keeps I s ls ↔ M.Meets guard s ls := by
  induction ls generalizing s with
  | nil => exact iff_of_true start trivial
  | cons l ls ih =>
      obtain ⟨first, rest⟩ := lawful
      constructor
      · rintro ⟨-, t, step, keeps⟩
        refine ⟨(exact_step s l start first).mp ⟨t, step, keeps.start⟩, ?_⟩
        intro u step'
        obtain rfl : t = u := Option.some.inj (step.symm.trans step')
        exact (ih keeps.start (rest t step)).mp keeps
      · rintro ⟨meets, after⟩
        obtain ⟨t, step, inv⟩ := (exact_step s l start first).mpr meets
        exact ⟨start, t, step, (ih inv (rest t step)).mpr (after t step)⟩

/-- The same of a run, where an invariant of the guarded steps tells which steps keep `J`. -/
theorem keeps_iff_meets_of_invariant {I J : State → Prop} (sound : ∀ s, I s → J s)
    (keep : ∀ s l t, I s → guard s l → M.step s l = some t → I t)
    (needed : ∀ s l t, I s → M.step s l = some t → J t → guard s l)
    {ls : List Label} (start : I s) (run : M.run s ls = some t) :
    M.Keeps J s ls ↔ M.Meets guard s ls := by
  induction ls generalizing s with
  | nil => exact iff_of_true (sound s start) trivial
  | cons l ls ih =>
      obtain ⟨middle, step, tail⟩ := Option.bind_eq_some_iff.mp run
      constructor
      · rintro ⟨-, u, step', keeps⟩
        obtain rfl : middle = u := Option.some.inj (step.symm.trans step')
        have meets := needed s l middle start step keeps.start
        refine ⟨meets, ?_⟩
        intro u step'
        obtain rfl : middle = u := Option.some.inj (step.symm.trans step')
        exact (ih (keep s l middle start meets step) tail).mp keeps
      · rintro ⟨meets, after⟩
        have inv := keep s l middle start meets step
        exact ⟨sound s start, middle, step, (ih inv tail).mpr (after middle step)⟩

/-- If a law and a guard agree on the steps from states with an invariant that guarded steps keep,
they agree on whole runs. -/
theorem meets_iff_meets_of_invariant {I : State → Prop} {law : Guard State Label}
    (agree : ∀ s l t, I s → M.step s l = some t → (law s l ↔ guard s l))
    (keep : ∀ s l t, I s → guard s l → M.step s l = some t → I t)
    {ls : List Label} (start : I s) (run : M.run s ls = some t) :
    M.Meets law s ls ↔ M.Meets guard s ls := by
  induction ls generalizing s with
  | nil => exact Iff.rfl
  | cons l ls ih =>
      obtain ⟨middle, step, tail⟩ := Option.bind_eq_some_iff.mp run
      rw [Meets, Meets, agree s l middle start step]
      refine and_congr_right fun meets => forall₂_congr fun u step' => ?_
      obtain rfl : middle = u := Option.some.inj (step.symm.trans step')
      exact ih (keep s l middle start meets step) tail

/-! ### Refinement -/

/-- **Refinement rule.** If every guarded step of `M` from related states is
enabled, is matched by the same label of `N` and keeps the relation, then a
guarded list of labels runs in both machines, to related states. -/
theorem run_refines {Abstract : Type*} {N : Machine Abstract Label}
    (R : State → Abstract → Prop)
    (matched : ∀ s a l, R s a → guard s l →
      ∃ t b, M.step s l = some t ∧ N.step a l = some b ∧ R t b)
    {a : Abstract} {ls : List Label} (related : R s a) (meets : M.Meets guard s ls) :
    ∃ t b, M.run s ls = some t ∧ N.run a ls = some b ∧ R t b := by
  induction ls generalizing s a with
  | nil => exact ⟨s, a, rfl, rfl, related⟩
  | cons l ls ih =>
      obtain ⟨first, rest⟩ := meets
      obtain ⟨middle, middle', step, step', related'⟩ := matched s a l related first
      obtain ⟨t, b, run, run', final⟩ := ih related' (rest middle step)
      exact ⟨t, b, by rw [run_cons, step]; exact run, by rw [run_cons, step']; exact run', final⟩

/-- **Implementation rule.** The same, where the run is one of the abstract machine: every
step of it is matched by the same label, if that meets the guard. -/
theorem run_implements {Abstract : Type*} {N : Machine Abstract Label}
    (R : State → Abstract → Prop)
    (matched : ∀ s a b l, R s a → guard s l → N.step a l = some b →
      ∃ t, M.step s l = some t ∧ R t b)
    {a b : Abstract} {ls : List Label} (related : R s a) (meets : M.Meets guard s ls)
    (run : N.run a ls = some b) : ∃ t, M.run s ls = some t ∧ R t b := by
  induction ls generalizing s a with
  | nil =>
      cases run
      exact ⟨s, rfl, related⟩
  | cons l ls ih =>
      obtain ⟨first, rest⟩ := meets
      obtain ⟨middle', step', tail⟩ := Option.bind_eq_some_iff.mp run
      obtain ⟨middle, step, related'⟩ := matched s a middle' l related first step'
      obtain ⟨t, run, final⟩ := ih related' (rest middle step) tail
      exact ⟨t, by rw [run_cons, step]; exact run, final⟩

end Machine

end Transition
