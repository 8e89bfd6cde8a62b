import Mathlib.Data.Nat.Digits.Lemmas
import Mathlib.Tactic.Common

/-!
Numerals.

A numeral system has a base and a symbol for each digit below it. Numbers are written with
the most significant digit first and without leading zeros, negative numbers with a sign
that is no digit.

* **`read_write`, `readInt_writeInt`.** What has been written reads as the number, so
  different numbers are written differently.
* **`write_step`.** The last digit is the remainder by the base, those before it write the
  quotient.
-/

namespace Coding

/-- A base and the symbols of its digits. -/
structure Numerals (α : Type*) where
  base : Nat
  two_le : 2 ≤ base
  symbol : Nat → α
  digit : α → Option Nat
  digit_symbol : ∀ d < base, digit (symbol d) = some d

namespace Numerals

variable {α : Type*} (numerals : Numerals α)

/-- The digits of a number, the least significant first; zero has one. -/
def digits (n : Nat) : List Nat := if n = 0 then [0] else Nat.digits numerals.base n

def write (n : Nat) : List α := ((numerals.digits n).map numerals.symbol).reverse

/-- The number with these digits, if they are digits and there are any. -/
def read (text : List α) : Option Nat :=
  if text = [] then none
  else (text.mapM numerals.digit).map fun digits => Nat.ofDigits numerals.base digits.reverse

variable {numerals} {n m : Nat}

theorem digits_pos (positive : n ≠ 0) : numerals.digits n = Nat.digits numerals.base n :=
  if_neg positive

theorem digits_ne_nil : numerals.digits n ≠ [] := by
  unfold digits
  split
  case isTrue => exact List.cons_ne_nil _ _
  case isFalse positive => exact Nat.digits_ne_nil_iff_ne_zero.mpr positive

theorem base_pos : 0 < numerals.base := Nat.lt_of_lt_of_le Nat.two_pos numerals.two_le

theorem digits_lt {d : Nat} (mem : d ∈ numerals.digits n) : d < numerals.base := by
  unfold digits at mem
  split at mem
  case isTrue =>
    rw [List.mem_singleton.mp mem]
    exact base_pos
  case isFalse => exact Nat.digits_lt_base numerals.two_le mem

theorem ofDigits_digits (n : Nat) : Nat.ofDigits numerals.base (numerals.digits n) = n := by
  unfold digits
  split
  case isTrue zero => rw [zero, Nat.ofDigits_singleton]
  case isFalse => exact Nat.ofDigits_digits numerals.base n

theorem digits_step (n : Nat) : numerals.digits n = n % numerals.base ::
    (if n / numerals.base = 0 then [] else numerals.digits (n / numerals.base)) := by
  by_cases zero : n = 0
  · simp [zero, digits]
  · rw [digits_pos zero, Nat.digits_def' numerals.two_le (Nat.pos_of_ne_zero zero)]
    congr 1
    split
    case isTrue last => rw [last, Nat.digits_zero]
    case isFalse more => rw [digits_pos more]

theorem length_digits_le_iff {k : Nat} (some_digit : 0 < k) :
    (numerals.digits n).length ≤ k ↔ n < numerals.base ^ k := by
  unfold digits
  split
  case isTrue zero =>
    rw [zero]
    exact iff_of_true some_digit (Nat.pow_pos base_pos)
  case isFalse => exact Nat.digits_length_le_iff numerals.two_le n

/-! ### Writing -/

theorem write_ne_nil : numerals.write n ≠ [] := by
  simp [write, digits_ne_nil]

/-- The last digit and those before it. -/
theorem write_step (n : Nat) :
    numerals.write n = (if n / numerals.base = 0 then [] else numerals.write (n / numerals.base)) ++
      [numerals.symbol (n % numerals.base)] := by
  rw [write, digits_step, List.map_cons, List.reverse_cons]
  congr 1
  split
  · rfl
  · rfl

theorem length_write_le_iff {k : Nat} (some_digit : 0 < k) :
    (numerals.write n).length ≤ k ↔ n < numerals.base ^ k := by
  rw [write, List.length_reverse, List.length_map]
  exact length_digits_le_iff some_digit

/-- There are no leading zeros. -/
theorem head_write_ne (positive : n ≠ 0) :
    (numerals.write n).head? ≠ some (numerals.symbol 0) := by
  have last_ne_zero := Nat.getLast_digit_ne_zero numerals.base positive
  have some_digit : Nat.digits numerals.base n ≠ [] := Nat.digits_ne_nil_iff_ne_zero.mpr positive
  have last_lt := Nat.digits_lt_base numerals.two_le (List.getLast_mem some_digit)
  rw [write, digits_pos positive, List.head?_reverse, List.getLast?_map,
    List.getLast?_eq_some_getLast some_digit, Option.map_some]
  intro same
  have digit := congrArg numerals.digit (Option.some.inj same)
  rw [numerals.digit_symbol _ last_lt, numerals.digit_symbol 0 base_pos] at digit
  exact last_ne_zero (Option.some.inj digit)

theorem mem_write {a : α} (mem : a ∈ numerals.write n) :
    ∃ d < numerals.base, a = numerals.symbol d := by
  obtain ⟨d, digit, rfl⟩ := List.mem_map.mp (List.mem_reverse.mp mem)
  exact ⟨d, digits_lt digit, rfl⟩

/-! ### Reading -/

theorem mapM_digit {digits : List Nat} (below : ∀ d ∈ digits, d < numerals.base) :
    (digits.map numerals.symbol).mapM numerals.digit = some digits := by
  induction digits with
  | nil => rfl
  | cons d digits ih =>
      have head := numerals.digit_symbol d (below d (List.mem_cons_self ..))
      have tail := ih fun e mem => below e (List.mem_cons_of_mem d mem)
      rw [List.map_cons, List.mapM_cons, head, tail]
      rfl

theorem read_write (n : Nat) : numerals.read (numerals.write n) = some n := by
  have below : ∀ d ∈ (numerals.digits n).reverse, d < numerals.base :=
    fun d mem => digits_lt (List.mem_reverse.mp mem)
  rw [read, if_neg write_ne_nil, write, ← List.map_reverse, mapM_digit below, Option.map_some,
    List.reverse_reverse, ofDigits_digits]

theorem write_injective : Function.Injective numerals.write := by
  intro n m same
  have read : numerals.read (numerals.write n) = some n := read_write n
  rw [same, read_write] at read
  exact (Option.some.inj read).symm

/-! ### Signs -/

section Signs

variable [DecidableEq α] (numerals) (minus : α)

def writeInt (v : Int) : List α :=
  if v < 0 then minus :: numerals.write v.natAbs else numerals.write v.natAbs

def readInt : List α → Option Int
  | [] => none
  | a :: text =>
      if a = minus then (numerals.read text).map fun n : Nat => -(n : Int)
      else (numerals.read (a :: text)).map fun n : Nat => (n : Int)

variable {numerals minus}

theorem readInt_writeInt (no_digit : numerals.digit minus = none) (v : Int) :
    numerals.readInt minus (numerals.writeInt minus v) = some v := by
  unfold writeInt
  split
  case isTrue negative =>
    rw [readInt, if_pos rfl, read_write, Option.map_some]
    congr 1
    omega
  case isFalse nonneg =>
    have read : numerals.read (numerals.write v.natAbs) = some v.natAbs := read_write _
    cases text : numerals.write v.natAbs with
    | nil => exact absurd text write_ne_nil
    | cons a rest =>
        obtain ⟨d, below, rfl⟩ := mem_write (a := a) (text ▸ List.mem_cons_self ..)
        have digit : ¬ numerals.symbol d = minus := by
          intro same
          rw [← same, numerals.digit_symbol d below] at no_digit
          cases no_digit
        rw [text] at read
        rw [readInt, if_neg digit, read, Option.map_some]
        congr 1
        omega

theorem writeInt_injective (no_digit : numerals.digit minus = none) :
    Function.Injective (numerals.writeInt minus) := by
  intro v w same
  have read := readInt_writeInt no_digit v
  rw [same, readInt_writeInt no_digit w] at read
  exact (Option.some.inj read).symm

end Signs

end Numerals

end Coding
