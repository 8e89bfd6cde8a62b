import Mathlib.Logic.Function.Basic

/-!
Prefix codes.

A code gives every symbol a word. If the first word of a text tells its symbol, and no
word is empty, a text of several words tells all its symbols.

* **`PrefixFree.flatMap_injective`.** Texts over a prefix code are uniquely decodable.
-/

namespace Coding

variable {α β : Type*}

/-- The word a text begins with tells its symbol. -/
def PrefixFree (code : α → List β) : Prop :=
  ∀ ⦃x y : α⦄ ⦃s t : List β⦄, code x ++ s = code y ++ t → x = y

/-- A code whose words begin with a header of a fixed size that tells how long the rest
is and a rest that tells the symbol. -/
theorem PrefixFree.of_header {code header body : α → List β} (size : Nat)
    (split : ∀ x, code x = header x ++ body x) (sized : ∀ x, (header x).length = size)
    (length : ∀ x y, header x = header y → (body x).length = (body y).length)
    (injective : Function.Injective body) : PrefixFree code := by
  intro x y s t same
  rw [split, split, List.append_assoc, List.append_assoc] at same
  obtain ⟨headers, rest⟩ := List.append_inj same ((sized x).trans (sized y).symm)
  exact injective (List.append_inj rest (length x y headers)).1

/-- **Unique decodability.** -/
theorem PrefixFree.flatMap_injective {code : α → List β} (free : PrefixFree code)
    (nonempty : ∀ x, code x ≠ []) : Function.Injective (List.flatMap code) := by
  intro xs ys same
  induction xs generalizing ys with
  | nil =>
      cases ys with
      | nil => rfl
      | cons y ys =>
          have empty : code y = [] := (List.append_eq_nil_iff.mp same.symm).1
          exact absurd empty (nonempty y)
  | cons x xs ih =>
      cases ys with
      | nil =>
          have empty : code x = [] := (List.append_eq_nil_iff.mp same).1
          exact absurd empty (nonempty x)
      | cons y ys =>
          rw [List.flatMap_cons, List.flatMap_cons] at same
          obtain rfl := free same
          rw [ih (List.append_cancel_left same)]

end Coding
