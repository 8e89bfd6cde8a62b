import Dbdky.Coding.Numeral
import Dbdky.Ordered.Lexicographic

/-!
Numerals of a fixed width.

A number is written in a number of places, with a filler in front of its digits. Where the
filler and the symbols of the digits are in order, numbers that fit are written in their
order: texts of the same shape compare like the lists of their numbers.

* **`line_lt_line_iff`.** The order of the texts of a shape is that of their numbers.
-/

namespace Coding

section Append

variable {α : Type*} [LT α] {s t : List α}

/-- What stands behind a difference does not count. -/
theorem append_lt_append (length : s.length = t.length) (less : s < t) (u v : List α) :
    s ++ u < t ++ v := by
  induction s generalizing t with
  | nil =>
      obtain rfl := List.length_eq_zero_iff.mp length.symm
      exact absurd less (List.not_lt_nil _)
  | cons a s ih =>
      cases t with
      | nil => cases length
      | cons b t =>
          rw [List.cons_append, List.cons_append, List.cons_lt_cons_iff]
          rcases List.cons_lt_cons_iff.mp less with less | ⟨rfl, less⟩
          · exact .inl less
          · exact .inr ⟨rfl, ih (Nat.succ.inj length) ‹_›⟩

end Append

namespace Numerals

variable {α : Type*} (numerals : Numerals α)

/-- `n` with as many fillers in front as make `width` places. -/
def padded (filler : α) (width n : Nat) : List α :=
  List.replicate (width - (numerals.write n).length) filler ++ numerals.write n

/-- The `k` places in front of a digit: zero has none of its own. -/
def front (filler : α) : Nat → Nat → List α
  | 0, _ => []
  | k + 1, n => front filler k (n / numerals.base) ++
      [if n = 0 then filler else numerals.symbol (n % numerals.base)]

variable {numerals} {filler : α} {width k n m : Nat}

theorem length_padded (some_place : 0 < width) (fits : n < numerals.base ^ width) :
    (numerals.padded filler width n).length = width := by
  have digits : (numerals.write n).length ≤ width := (length_write_le_iff some_place).mpr fits
  rw [padded, List.length_append, List.length_replicate]
  exact Nat.sub_add_cancel digits

@[simp] theorem length_front : (numerals.front filler k n).length = k := by
  induction k generalizing n with
  | zero => rfl
  | succ k ih => rw [front, List.length_append, ih, List.length_singleton]

/-- Fillers that are zeros do not change the number. -/
theorem read_padded (n : Nat) :
    numerals.read (numerals.padded (numerals.symbol 0) width n) = some n := by
  have below : ∀ d ∈ List.replicate (width - (numerals.write n).length) 0 ++
      (numerals.digits n).reverse, d < numerals.base := by
    intro d mem
    rcases List.mem_append.mp mem with mem | mem
    · rw [List.eq_of_mem_replicate mem]
      exact base_pos
    · exact digits_lt (List.mem_reverse.mp mem)
  have symbols : numerals.padded (numerals.symbol 0) width n =
      (List.replicate (width - (numerals.write n).length) 0 ++
        (numerals.digits n).reverse).map numerals.symbol := by
    rw [List.map_append, List.map_replicate, List.map_reverse]
    rfl
  have some_digit : numerals.padded (numerals.symbol 0) width n ≠ [] :=
    List.append_ne_nil_of_right_ne_nil _ write_ne_nil
  rw [read, if_neg some_digit, symbols, mapM_digit below, Option.map_some, List.reverse_append,
    List.reverse_reverse, List.reverse_replicate, Nat.ofDigits_append_replicate_zero,
    ofDigits_digits]

theorem mem_padded {a : α} (mem : a ∈ numerals.padded (numerals.symbol 0) width n) :
    ∃ d < numerals.base, a = numerals.symbol d := by
  rcases List.mem_append.mp mem with mem | mem
  · exact ⟨0, base_pos, List.eq_of_mem_replicate mem⟩
  · exact mem_write mem

section Signs

variable [DecidableEq α] (numerals) (minus : α)

/-- Zeros in front; the sign takes one of the places. -/
def paddedInt (width : Nat) (v : Int) : List α :=
  if v < 0 then minus :: numerals.padded (numerals.symbol 0) (width - 1) v.natAbs
  else numerals.padded (numerals.symbol 0) width v.natAbs

variable {numerals minus}

theorem readInt_paddedInt (no_digit : numerals.digit minus = none) (v : Int) :
    numerals.readInt minus (numerals.paddedInt minus width v) = some v := by
  unfold paddedInt
  split
  case isTrue negative =>
    rw [readInt, if_pos rfl, read_padded, Option.map_some]
    congr 1
    omega
  case isFalse nonneg =>
    have read : numerals.read (numerals.padded (numerals.symbol 0) width v.natAbs) = _ :=
      read_padded v.natAbs
    cases text : numerals.padded (numerals.symbol 0) width v.natAbs with
    | nil => exact absurd text (List.append_ne_nil_of_right_ne_nil _ write_ne_nil)
    | cons a rest =>
        obtain ⟨d, below, rfl⟩ := mem_padded (text ▸ List.mem_cons_self (a := a))
        have digit : ¬ numerals.symbol d = minus := by
          intro same
          rw [← same, numerals.digit_symbol d below] at no_digit
          cases no_digit
        rw [text] at read
        rw [readInt, if_neg digit, read, Option.map_some]
        congr 1
        omega

theorem paddedInt_injective (no_digit : numerals.digit minus = none) :
    Function.Injective (numerals.paddedInt minus width) := by
  intro v w same
  have read : numerals.readInt minus (numerals.paddedInt minus width v) = _ :=
    readInt_paddedInt no_digit v
  rw [same, readInt_paddedInt no_digit w] at read
  exact (Option.some.inj read).symm

end Signs

theorem front_zero : numerals.front filler k 0 = List.replicate k filler := by
  induction k with
  | zero => rfl
  | succ k ih => rw [front, Nat.zero_div, ih, if_pos rfl, List.replicate_succ']

/-- The last digit and the places in front of it. -/
theorem padded_succ (fits : n < numerals.base ^ (k + 1)) :
    numerals.padded filler (k + 1) n =
      numerals.front filler k (n / numerals.base) ++ [numerals.symbol (n % numerals.base)] := by
  induction k generalizing n with
  | zero =>
      have small : n / numerals.base = 0 := Nat.div_eq_of_lt (by simpa using fits)
      rw [padded, write_step, small, if_pos rfl]
      rfl
  | succ k ih =>
      rw [padded, write_step]
      by_cases small : n / numerals.base = 0
      · rw [small, if_pos rfl, front_zero]
        rfl
      · have less : n / numerals.base < numerals.base ^ (k + 1) :=
          Nat.div_lt_of_lt_mul (by rwa [Nat.pow_succ'] at fits)
        have before := ih less
        rw [if_neg small, front, if_neg small, ← before, padded, List.length_append,
          List.length_singleton, Nat.add_sub_add_right, List.append_assoc]

variable [LT α]

/-- The filler comes before the digits, and the digits are in order; a filler may be the zero. -/
structure Ordered (numerals : Numerals α) (filler : α) : Prop where
  filler_lt : ∀ d, 0 < d → d < numerals.base → filler < numerals.symbol d
  symbol_lt : ∀ d e, d < e → e < numerals.base → numerals.symbol d < numerals.symbol e

/-- The last digits decide where those in front of them are the same. -/
theorem mod_lt_mod_of_div_eq (less : m < n) (same : m / k = n / k) : m % k < n % k := by
  have split_m := Nat.div_add_mod m k
  have split_n := Nat.div_add_mod n k
  rw [same] at split_m
  omega

theorem front_lt_front (ordered : numerals.Ordered filler) (less : m < n)
    (fits : n < numerals.base ^ k) : numerals.front filler k m < numerals.front filler k n := by
  induction k generalizing m n with
  | zero =>
      rw [Nat.pow_zero] at fits
      omega
  | succ k ih =>
      have fits' : n / numerals.base < numerals.base ^ k :=
        Nat.div_lt_of_lt_mul (by rwa [Nat.pow_succ'] at fits)
      rw [front, front]
      rcases Nat.lt_or_eq_of_le (Nat.div_le_div_right (c := numerals.base) (Nat.le_of_lt less)) with
        before | same
      · exact append_lt_append (by simp) (ih before fits') _ _
      · have last := mod_lt_mod_of_div_eq less same
        have digit : n % numerals.base < numerals.base := Nat.mod_lt n base_pos
        rw [same]
        refine List.append_left_lt (List.cons_lt_cons_iff.mpr (.inl ?_))
        rw [if_neg (Nat.ne_of_gt (Nat.zero_lt_of_lt less))]
        split
        · exact ordered.filler_lt _ (Nat.zero_lt_of_lt last) digit
        · exact ordered.symbol_lt _ _ last digit

theorem padded_lt_padded (ordered : numerals.Ordered filler) (less : m < n)
    (fits : n < numerals.base ^ width) :
    numerals.padded filler width m < numerals.padded filler width n := by
  cases width with
  | zero =>
      rw [Nat.pow_zero] at fits
      omega
  | succ k =>
      have fits' : n / numerals.base < numerals.base ^ k :=
        Nat.div_lt_of_lt_mul (by rwa [Nat.pow_succ'] at fits)
      rw [padded_succ fits, padded_succ (Nat.lt_trans less fits)]
      rcases Nat.lt_or_eq_of_le (Nat.div_le_div_right (c := numerals.base) (Nat.le_of_lt less)) with
        before | same
      · exact append_lt_append (by simp) (front_lt_front ordered before fits') _ _
      · have last := mod_lt_mod_of_div_eq less same
        have digit : n % numerals.base < numerals.base := Nat.mod_lt n base_pos
        rw [same]
        refine List.append_left_lt (List.cons_lt_cons_iff.mpr (.inl ?_))
        exact ordered.symbol_lt _ _ last digit

/-! ### Lines -/

/-- A literal text and a number behind it. -/
structure Field (α : Type*) where
  literal : List α
  filler : α
  width : Nat

/-- A number for each field. -/
def line (numerals : Numerals α) : List (Field α) → List Nat → List α
  | field :: fields, n :: numbers =>
      field.literal ++ (numerals.padded field.filler field.width n ++ line numerals fields numbers)
  | _, _ => []

/-- There is one number for each width, and it fits. -/
def Fit (numerals : Numerals α) : List Nat → List Nat → Prop :=
  List.Forall₂ fun width n => 0 < width ∧ n < numerals.base ^ width

/-- The numbers fit the fields. -/
def Fits (numerals : Numerals α) (fields : List (Field α)) (numbers : List Nat) : Prop :=
  numerals.Fit (fields.map Field.width) numbers

variable {fields : List (Field α)} {numbers numbers' : List Nat}

omit [LT α] in
theorem length_line (fits : numerals.Fits fields numbers) :
    (numerals.line fields numbers).length =
      (fields.map fun field => field.literal.length + field.width).sum := by
  induction fields generalizing numbers with
  | nil => rfl
  | cons field fields ih =>
      cases fits with
      | cons here fits =>
          rw [line, List.length_append, List.length_append, length_padded here.1 here.2, ih fits,
            List.map_cons, List.sum_cons, Nat.add_assoc]

theorem line_lt_line (ordered : ∀ field ∈ fields, numerals.Ordered field.filler)
    (fits : numerals.Fits fields numbers) (fits' : numerals.Fits fields numbers')
    (less : numbers < numbers') : numerals.line fields numbers < numerals.line fields numbers' := by
  induction fields generalizing numbers numbers' with
  | nil =>
      cases fits'
      exact absurd less (List.not_lt_nil _)
  | cons field fields ih =>
      obtain ⟨first, ordered⟩ := List.forall_mem_cons.mp ordered
      cases fits with
      | cons here fits =>
          cases fits' with
          | cons here' fits' =>
              rw [line, line]
              refine List.append_left_lt ?_
              rcases List.cons_lt_cons_iff.mp less with less | ⟨rfl, less⟩
              · refine append_lt_append ?_ (padded_lt_padded first less here'.2) _ _
                rw [length_padded here.1 here.2, length_padded here'.1 here'.2]
              · exact List.append_left_lt (ih ordered fits fits' ‹_›)

/-- **Texts of one shape are in the order of their numbers.** -/
theorem line_lt_line_iff [Std.Asymm (α := α) (· < ·)]
    (ordered : ∀ field ∈ fields, numerals.Ordered field.filler)
    (fits : numerals.Fits fields numbers) (fits' : numerals.Fits fields numbers') :
    numerals.line fields numbers < numerals.line fields numbers' ↔ numbers < numbers' := by
  refine ⟨fun less => ?_, line_lt_line ordered fits fits'⟩
  rcases Lexicographic.lt_or_eq_or_gt numbers numbers' with before | rfl | after
  · exact before
  · exact absurd less (List.lt_irrefl _)
  · exact absurd less (List.lt_asymm (line_lt_line ordered fits' fits after))

end Numerals

end Coding
