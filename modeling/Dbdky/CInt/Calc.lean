import Mathlib.Control.Basic
import Mathlib.Tactic.Common

/-!
Calculations on C `int`s.

A calculation fails where an operation leaves the range of `int` or divides by zero,
which is undefined behaviour in C. Division truncates towards zero; the state of a
calculation remembers whether a negative number has been divided, where this differs
from rounding down.

* **`Runs c v`.** The calculation `c` comes to `v`: nothing overflows and no negative
  number is divided. There is one rule for each operation; its side condition is the
  range of the result.
-/

namespace CInt

/-- The largest `int`. -/
def INT_MAX : Int := 2147483647

/-- The least `int`. -/
def INT_MIN : Int := -2147483648

/-- A calculation; its state says whether a negative number has been divided. -/
abbrev Calc := StateT Bool Option

variable {α β : Type}

/-- The value of an `int` variable or constant. -/
def int (x : Int) : Calc Int := pure x

/-- The result of an operation, which has to be an `int`. -/
def inRange (x : Int) : Calc Int := fun divided =>
  if INT_MIN ≤ x ∧ x ≤ INT_MAX then some (x, divided) else none

/-- `x / y` -/
def quotient (x y : Int) : Calc Int := fun divided =>
  if y = 0 then none else inRange (x.tdiv y) (divided || decide (x < 0))

/-- `x % y`, defined where `x / y` is. -/
def remainder (x y : Int) : Calc Int := do
  let _ ← quotient x y
  pure (x.tmod y)

/-- The conversion of a wider integer to `int`. -/
def toInt (x : Int) : Int := x.bmod 4294967296

/-- The conversion of an integer to `unsigned`. -/
def toUnsigned (x : Int) : Int := x % 4294967296

instance (n : Nat) : OfNat (Calc Int) n := ⟨int n⟩
instance : Add (Calc Int) := ⟨fun c d => do inRange ((← c) + (← d))⟩
instance : Sub (Calc Int) := ⟨fun c d => do inRange ((← c) - (← d))⟩
instance : Mul (Calc Int) := ⟨fun c d => do inRange ((← c) * (← d))⟩
instance : Div (Calc Int) := ⟨fun c d => do quotient (← c) (← d)⟩
instance : Mod (Calc Int) := ⟨fun c d => do remainder (← c) (← d)⟩

/-- The calculation comes to `v` without overflow and without dividing a negative number. -/
def Runs (c : Calc α) (v : α) : Prop := ∀ divided, c divided = some (v, divided)

/-- The calculation overflows or divides by zero. -/
def Overflows (c : Calc α) : Prop := ∀ divided, c divided = none

theorem Runs.unique {c : Calc α} {v w : α} (first : Runs c v) (second : Runs c w) : v = w := by
  have same := (first false).symm.trans (second false)
  exact (Prod.mk.inj (Option.some.inj same)).1

theorem Runs.not_overflows {c : Calc α} {v : α} (runs : Runs c v) : ¬ Overflows c := by
  intro overflows
  have none := (runs false).symm.trans (overflows false)
  cases none

theorem Runs.pure (v : α) : Runs (Pure.pure v : Calc α) v := fun _ => rfl

theorem Runs.int (x : Int) : Runs (int x) x := fun _ => rfl

theorem Runs.lit (n : Nat) : Runs (OfNat.ofNat n) (OfNat.ofNat n : Int) := fun _ => rfl

theorem Runs.bind {c : Calc α} {f : α → Calc β} {v : α} {w : β} (first : Runs c v)
    (second : Runs (f v) w) : Runs (c >>= f) w := by
  intro divided
  change (c divided).bind (fun p => f p.1 p.2) = some (w, divided)
  rw [first, Option.bind_some]
  exact second divided

theorem Overflows.bind {c : Calc α} (first : Overflows c) (f : α → Calc β) :
    Overflows (c >>= f) := by
  intro divided
  change (c divided).bind (fun p => f p.1 p.2) = none
  rw [first]
  rfl

theorem Runs.bind_overflows {c : Calc α} {f : α → Calc β} {v : α} (first : Runs c v)
    (second : Overflows (f v)) : Overflows (c >>= f) := by
  intro divided
  change (c divided).bind (fun p => f p.1 p.2) = none
  rw [first, Option.bind_some]
  exact second divided

section Operations

variable {c d : Calc Int} {x y : Int}

theorem Runs.inRange (low : -2147483648 ≤ x) (high : x ≤ 2147483647) : Runs (inRange x) x :=
  fun _ => if_pos ⟨low, high⟩

theorem Runs.add (left : Runs c x) (right : Runs d y) (low : -2147483648 ≤ x + y)
    (high : x + y ≤ 2147483647) : Runs (c + d) (x + y) :=
  left.bind (right.bind (.inRange low high))

theorem Runs.sub (left : Runs c x) (right : Runs d y) (low : -2147483648 ≤ x - y)
    (high : x - y ≤ 2147483647) : Runs (c - d) (x - y) :=
  left.bind (right.bind (.inRange low high))

theorem Runs.mul (left : Runs c x) (right : Runs d y) (low : -2147483648 ≤ x * y)
    (high : x * y ≤ 2147483647) : Runs (c * d) (x * y) :=
  left.bind (right.bind (.inRange low high))

theorem Overflows.add_left (first : Overflows c) (d : Calc Int) : Overflows (c + d) :=
  first.bind _

theorem Overflows.sub_left (first : Overflows c) (d : Calc Int) : Overflows (c - d) :=
  first.bind _

/-- A result that is not in range overflows. -/
theorem range_of_not_overflows {f : Int → Int → Int} (left : Runs c x) (right : Runs d y)
    (fits : ¬ Overflows (do CInt.inRange (f (← c) (← d)))) :
    -2147483648 ≤ f x y ∧ f x y ≤ 2147483647 := by
  by_contra outside
  refine fits (left.bind_overflows (right.bind_overflows ?_))
  intro divided
  exact if_neg outside

/-- Division of a number that is not negative rounds down and stays in range. -/
theorem Runs.div (left : Runs c x) (right : Runs d y) (nonneg : 0 ≤ x) (high : x ≤ 2147483647)
    (positive : 0 < y) : Runs (c / d) (x / y) := by
  apply left.bind
  apply right.bind
  intro divided
  have rounds : x.tdiv y = x / y := Int.tdiv_eq_ediv_of_nonneg nonneg
  have low : 0 ≤ x / y := Int.ediv_nonneg nonneg (Int.le_of_lt positive)
  have least : x / y ≤ x := Int.ediv_le_self y nonneg
  have same : (divided || decide (x < 0)) = divided := by simp [Int.not_lt.mpr nonneg]
  rw [quotient, if_neg (Int.ne_of_gt positive), rounds, same]
  exact Runs.inRange (Int.le_trans (by decide) low) (Int.le_trans least high) divided

theorem Runs.mod (left : Runs c x) (right : Runs d y) (nonneg : 0 ≤ x) (high : x ≤ 2147483647)
    (positive : 0 < y) : Runs (c % d) (x % y) := by
  have divides : Runs (quotient x y) (x / y) := Runs.div (.int x) (.int y) nonneg high positive
  have rounds : x.tmod y = x % y := Int.tmod_eq_emod_of_nonneg nonneg
  rw [← rounds]
  exact left.bind (right.bind (divides.bind (.pure _)))

end Operations

/-- A number that is an `int` already is not changed. -/
theorem toInt_eq {x : Int} (low : -2147483648 ≤ x) (high : x ≤ 2147483647) : toInt x = x :=
  Int.bmod_eq_of_le (by omega) (by omega)

theorem toUnsigned_eq {x : Int} (low : 0 ≤ x) (high : x ≤ 4294967295) : toUnsigned x = x :=
  Int.emod_eq_of_lt low (by omega)

end CInt
