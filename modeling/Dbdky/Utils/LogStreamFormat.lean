import Dbdky.CInt.Calc
import Dbdky.Coding.Numeral
import Dbdky.Memory.Block

/-!
The numbers of a `LogStream` (`src/utils/LogStream.cpp`).

`convert` and `convertHex` write the digits as they come, the least significant first, and
turn them around in place. C++ division truncates, so the remainders of a negative number
are negative, and `convert` looks them up in a table that is mirrored at `zero`.

* **`convert_spec`, `convertHex_spec`.** What they leave in memory is the numeral and a
  NUL behind it.
* **`integers_formatted_exactly`.** That is the canonical text for every value of every
  integer type; it fits `kMaxNumericSize` and can be read back.
-/

namespace Dbdky

open CInt Coding

/-- The bytes of a text. -/
def bytes (text : List Char) : List UInt8 := text.map Char.toUInt8

namespace LogStream

/-- `kMaxNumericSize` -/
def kMaxNumericSize : Nat := 32

/-- `detail::digits` -/
def digits : List UInt8 :=
  bytes ['9', '8', '7', '6', '5', '4', '3', '2', '1', '0', '1', '2', '3', '4', '5', '6', '7', '8',
    '9'] ++ [0]

/-- `detail::zero`, as an index into `digits` -/
def zero : Int := 9

/-- `detail::digitsHex` -/
def digitsHex : List UInt8 :=
  bytes ['0', '1', '2', '3', '4', '5', '6', '7', '8', '9', 'A', 'B', 'C', 'D', 'E', 'F'] ++ [0]

/-- What a table has at an index. -/
def lookup (table : List UInt8) (i : Int) : Option UInt8 :=
  if 0 ≤ i then table[i.toNat]? else none

/-- The `do` loop of `convert` and `convertHex`, for at most `fuel` rounds: `*p` takes the last
digit of `i` in `base`. -/
def digitLoop (table : List UInt8) (zero base : Int) :
    Nat → List UInt8 → Nat → Int → Option (List UInt8 × Nat)
  | 0, _, _, _ => none
  | fuel + 1, mem, p, i => do
      let lsd := toInt (i.tmod base)
      let i := i.tdiv base
      let c ← lookup table (zero + lsd)
      let mem ← Block.store mem p [c]
      if i ≠ 0 then digitLoop table zero base fuel mem (p + 1) i else some (mem, p + 1)

/-- `detail::convert`: the memory afterwards and the length. -/
def convert (mem : List UInt8) (buf : Nat) (value : Int) : Option (List UInt8 × Nat) := do
  let (mem, p) ← digitLoop digits zero 10 (value.natAbs + 1) mem buf value
  let (mem, p) ← (if value < 0 then do
      let mem ← Block.store mem p (bytes ['-'])
      some (mem, p + 1)
    else some (mem, p))
  let mem ← Block.store mem p [0]
  some (Block.reverse mem buf p, p - buf)

/-- `detail::convertHex` -/
def convertHex (mem : List UInt8) (buf : Nat) (value : Nat) : Option (List UInt8 × Nat) := do
  let (mem, p) ← digitLoop digitsHex 0 16 (value + 1) mem buf value
  let mem ← Block.store mem p [0]
  some (Block.reverse mem buf p, p - buf)

/-! ### The integer types -/

/-- The integer types that can be inserted. -/
inductive IntegerType where
  | short | unsignedShort | int | unsignedInt | long | unsignedLong | longLong | unsignedLongLong
deriving DecidableEq, Repr

def IntegerType.min : IntegerType → Int
  | .short => -32768
  | .int => -2147483648
  | .long | .longLong => -9223372036854775808
  | .unsignedShort | .unsignedInt | .unsignedLong | .unsignedLongLong => 0

def IntegerType.max : IntegerType → Int
  | .short => 32767
  | .unsignedShort => 65535
  | .int => 2147483647
  | .unsignedInt => 4294967295
  | .long | .longLong => 9223372036854775807
  | .unsignedLong | .unsignedLongLong => 18446744073709551615

/-- A value of an integer type. -/
@[ext] structure IntegerType.Value (T : IntegerType) where
  val : Int
  min_le : T.min ≤ val
  le_max : val ≤ T.max
deriving DecidableEq, Repr

/-- A `uintptr_t` -/
abbrev Uintptr := IntegerType.Value .unsignedLong

theorem IntegerType.Value.natAbs_lt {T : IntegerType} (v : T.Value) : v.val.natAbs < 10 ^ 20 := by
  have min_le := v.min_le
  have le_max := v.le_max
  cases T <;> simp only [IntegerType.min, IntegerType.max] at min_le le_max <;> omega

/-! ### Numerals -/

/-- Decimal numerals. -/
def decimal : Numerals UInt8 where
  base := 10
  two_le := by decide
  symbol d := UInt8.ofNat (48 + d)
  digit c := if 48 ≤ c.toNat ∧ c.toNat < 58 then some (c.toNat - 48) else none
  digit_symbol := by decide

/-- Hexadecimal numerals with capital letters. -/
def hexadecimal : Numerals UInt8 where
  base := 16
  two_le := by decide
  symbol d := if d < 10 then UInt8.ofNat (48 + d) else UInt8.ofNat (55 + d)
  digit c :=
    if 48 ≤ c.toNat ∧ c.toNat < 58 then some (c.toNat - 48)
    else if 65 ≤ c.toNat ∧ c.toNat < 71 then some (c.toNat - 55) else none
  digit_symbol := by decide

/-- The decimal text of an integer. -/
def decimalText (v : Int) : List UInt8 := decimal.writeInt 45 v

/-- The hexadecimal text of a number. -/
def hexText (v : Nat) : List UInt8 := hexadecimal.write v

example : decimalText (-120) = bytes ['-', '1', '2', '0'] := by decide
example : hexText 3054 = bytes ['B', 'E', 'E'] := by decide

/-! ### The loop -/

section Loop

variable {numerals : Numerals UInt8} {table : List UInt8} {zero : Int} {signed : Prop}

/-- The digits from `p` on, the least significant first. `signed` says that negative remainders
can be looked up. -/
theorem digitLoop_spec (small : numerals.base ≤ 16)
    (symbols : ∀ r : Int, r.natAbs < numerals.base → signed ∨ 0 ≤ r →
      lookup table (zero + r) = some (numerals.symbol r.natAbs))
    {fuel : Nat} {i : Int} (enough : i.natAbs < fuel) (sign : signed ∨ 0 ≤ i)
    (before after : List UInt8) (room : (numerals.write i.natAbs).length ≤ after.length) :
    digitLoop table zero numerals.base fuel (before ++ after) before.length i =
      some (before ++ (numerals.write i.natAbs).reverse ++
          after.drop (numerals.write i.natAbs).length,
        before.length + (numerals.write i.natAbs).length) := by
  induction fuel generalizing i before after with
  | zero => exact absurd enough (Nat.not_lt_zero _)
  | succ fuel ih =>
      have two_le := numerals.two_le
      have remainder : (i.tmod numerals.base).natAbs = i.natAbs % numerals.base :=
        Int.natAbs_tmod ..
      have quotient : (i.tdiv numerals.base).natAbs = i.natAbs / numerals.base :=
        Int.natAbs_tdiv ..
      have below : i.natAbs % numerals.base < numerals.base :=
        Nat.mod_lt _ Numerals.base_pos
      have lsd : toInt (i.tmod numerals.base) = i.tmod numerals.base :=
        toInt_eq (by omega) (by omega)
      have sign_remainder : signed ∨ 0 ≤ i.tmod numerals.base :=
        sign.imp_right fun nonneg => Int.tmod_nonneg _ nonneg
      have symbol := symbols (i.tmod numerals.base) (remainder ▸ below) sign_remainder
      rw [remainder] at symbol
      have step := numerals.write_step i.natAbs
      have one_more : 1 ≤ after.length := by
        rw [step, List.length_append, List.length_singleton] at room
        omega
      generalize numerals.symbol (i.natAbs % numerals.base) = c at symbol step
      have stored : Block.store (before ++ after) before.length [c] =
          some (before ++ [c] ++ after.drop 1) :=
        Block.store_append before after [c] one_more
      rw [digitLoop]
      simp only [lsd, symbol, stored, Option.bind_eq_bind, Option.bind_some]
      by_cases last : i.tdiv numerals.base = 0
      · have stop : i.natAbs / numerals.base = 0 := by rw [← quotient, last, Int.natAbs_zero]
        rw [if_pos stop, List.nil_append] at step
        rw [if_neg (not_not_intro last), step]
        rfl
      · have go_on : i.natAbs / numerals.base ≠ 0 := by
          rw [← quotient]
          exact Int.natAbs_ne_zero.mpr last
        have positive : 0 < i.natAbs :=
          Nat.pos_of_ne_zero fun none => go_on (by rw [none, Nat.zero_div])
        have smaller : (i.tdiv numerals.base).natAbs < fuel := by
          rw [quotient]
          exact Nat.lt_of_lt_of_le (Nat.div_lt_self positive two_le) (Nat.lt_succ_iff.mp enough)
        have sign_quotient : signed ∨ 0 ≤ i.tdiv numerals.base :=
          sign.imp_right fun nonneg => Int.tdiv_nonneg nonneg (Int.natCast_nonneg _)
        rw [if_neg go_on, ← quotient] at step
        have length : (numerals.write i.natAbs).length =
            (numerals.write (i.tdiv numerals.base).natAbs).length + 1 := by
          rw [step, List.length_append, List.length_singleton]
        have rest := ih smaller sign_quotient (before ++ [c]) (after.drop 1) (by
          rw [List.length_drop]
          omega)
        rw [List.length_append, List.length_singleton] at rest
        rw [if_pos last, rest, length, step, List.reverse_append, List.drop_drop,
          List.append_assoc before, Nat.add_assoc, Nat.add_comm 1]
        rfl

end Loop

/-- The table is mirrored at `zero`. -/
theorem lookup_digits (r : Int) (small : r.natAbs < 10) :
    lookup digits (zero + r) = some (decimal.symbol r.natAbs) := by
  have low : -10 < r := by omega
  have high : r < 10 := by omega
  interval_cases r <;> rfl

theorem lookup_digitsHex (r : Int) (small : r.natAbs < 16) (nonneg : 0 ≤ r) :
    lookup digitsHex (0 + r) = some (hexadecimal.symbol r.natAbs) := by
  have high : r < 16 := by omega
  interval_cases r <;> rfl

/-! ### What is left in memory -/

/-- The end of both functions: a NUL behind the cells, which are turned around. -/
theorem terminate_spec (before cells after : List UInt8) (room : cells.length < after.length) :
    (Block.store (before ++ cells ++ after.drop cells.length) (before.length + cells.length)
        [0]).bind (fun mem => some (Block.reverse mem before.length (before.length + cells.length),
          before.length + cells.length - before.length)) =
      some (before ++ cells.reverse ++ [0] ++ after.drop (cells.length + 1), cells.length) := by
  have one_more : [(0 : UInt8)].length ≤ (after.drop cells.length).length := by
    rw [List.length_drop, List.length_singleton]
    omega
  have stored := Block.store_append (before ++ cells) (after.drop cells.length) [0] one_more
  rw [List.length_append] at stored
  rw [stored, Option.bind_some, List.append_assoc, Block.reverse_append, Nat.add_sub_cancel_left,
    List.drop_drop, List.length_singleton, List.append_assoc _ [0]]

theorem decimalText_of_neg {v : Int} (negative : v < 0) :
    decimalText v = bytes ['-'] ++ decimal.write v.natAbs := if_pos negative

theorem decimalText_of_nonneg {v : Int} (nonneg : ¬ v < 0) :
    decimalText v = decimal.write v.natAbs := if_neg nonneg

theorem digitLoop_decimal (v : Int) (before after : List UInt8)
    (room : (decimal.write v.natAbs).length ≤ after.length) :
    digitLoop digits zero 10 (v.natAbs + 1) (before ++ after) before.length v =
      some (before ++ (decimal.write v.natAbs).reverse ++
          after.drop (decimal.write v.natAbs).length,
        before.length + (decimal.write v.natAbs).length) := by
  have symbols (r : Int) (small : r.natAbs < decimal.base) (_ : True ∨ 0 ≤ r) :
      lookup digits (zero + r) = some (decimal.symbol r.natAbs) := lookup_digits r small
  exact digitLoop_spec (by decide) symbols (Nat.lt_succ_self _) (.inl trivial) before after room

theorem convert_spec (v : Int) (before after : List UInt8)
    (room : (decimalText v).length < after.length) :
    convert (before ++ after) before.length v =
      some (before ++ decimalText v ++ [0] ++ after.drop ((decimalText v).length + 1),
        (decimalText v).length) := by
  by_cases negative : v < 0
  · rw [decimalText_of_neg negative] at room ⊢
    have digits_room : (bytes ['-']).length + (decimal.write v.natAbs).length < after.length := by
      rwa [List.length_append] at room
    have one : (bytes ['-']).length = 1 := rfl
    have digits_written := digitLoop_decimal v before after (by omega)
    have sign_written := Block.store_append (before ++ (decimal.write v.natAbs).reverse)
      (after.drop (decimal.write v.natAbs).length) (bytes ['-']) (by
        rw [List.length_drop]
        omega)
    have terminated := terminate_spec before ((decimal.write v.natAbs).reverse ++ bytes ['-']) after
      (by
        rw [List.length_append, List.length_reverse]
        omega)
    have turned : ((decimal.write v.natAbs).reverse ++ bytes ['-']).reverse =
        bytes ['-'] ++ decimal.write v.natAbs := by
      rw [List.reverse_append, List.reverse_reverse]
      rfl
    rw [List.length_append, List.length_reverse, List.drop_drop, one] at sign_written
    rw [turned, List.length_append, List.length_reverse, one, ← Nat.add_assoc,
      ← List.append_assoc before] at terminated
    rw [convert, digits_written]
    simp only [Option.bind_eq_bind, Option.bind_some, if_pos negative, sign_written]
    rw [terminated, List.length_append, one, Nat.add_comm 1]
  · rw [decimalText_of_nonneg negative] at room ⊢
    have digits_written := digitLoop_decimal v before after (Nat.le_of_lt room)
    have terminated := terminate_spec before (decimal.write v.natAbs).reverse after
      (by rwa [List.length_reverse])
    rw [List.length_reverse, List.reverse_reverse] at terminated
    rw [convert, digits_written]
    simp only [Option.bind_eq_bind, Option.bind_some, if_neg negative]
    exact terminated

theorem convertHex_spec (v : Nat) (before after : List UInt8)
    (room : (hexText v).length < after.length) :
    convertHex (before ++ after) before.length v =
      some (before ++ hexText v ++ [0] ++ after.drop ((hexText v).length + 1),
        (hexText v).length) := by
  have symbols (r : Int) (small : r.natAbs < hexadecimal.base) (sign : False ∨ 0 ≤ r) :
      lookup digitsHex (0 + r) = some (hexadecimal.symbol r.natAbs) :=
    lookup_digitsHex r small (sign.resolve_left id)
  have enough : (v : Int).natAbs < v + 1 := Nat.lt_succ_self v
  have digits_written := digitLoop_spec (by decide) symbols enough (.inr (Int.natCast_nonneg v))
    before after (Nat.le_of_lt room)
  have terminated := terminate_spec before (hexText v).reverse after (by rwa [List.length_reverse])
  rw [List.length_reverse, List.reverse_reverse] at terminated
  rw [convertHex]
  change (digitLoop digitsHex 0 hexadecimal.base _ _ _ _).bind _ = _
  rw [digits_written, Option.bind_some]
  exact terminated

/-! ### Every value of every type -/

/-- A minus sign for a negative number only, then its digits, of which only a single one may
begin with zero. -/
def Canonical (numerals : Numerals UInt8) (v : Int) (text : List UInt8) : Prop :=
  ∃ digits, text = (if v < 0 then bytes ['-'] else []) ++ digits ∧
    (1 < digits.length → digits.head? ≠ some (numerals.symbol 0)) ∧
    numerals.read digits = some v.natAbs

theorem canonical_write {numerals : Numerals UInt8} {v : Int} {text : List UInt8}
    (signed : text = (if v < 0 then bytes ['-'] else []) ++ numerals.write v.natAbs) :
    Canonical numerals v text := by
  refine ⟨numerals.write v.natAbs, signed, ?_, Numerals.read_write _⟩
  intro more
  apply Numerals.head_write_ne
  intro zero
  rw [zero] at more
  exact absurd more (Nat.lt_irrefl 1)

theorem canonical_decimalText (v : Int) : Canonical decimal v (decimalText v) := by
  apply canonical_write
  by_cases negative : v < 0
  · rw [decimalText_of_neg negative, if_pos negative]
  · rw [decimalText_of_nonneg negative, if_neg negative, List.nil_append]

theorem canonical_hexText (v : Nat) : Canonical hexadecimal v (hexText v) := by
  have nonneg : ¬ (v : Int) < 0 := Int.not_lt.mpr (Int.natCast_nonneg v)
  apply canonical_write
  rw [if_neg nonneg, List.nil_append]
  rfl

theorem length_decimalText_le {T : IntegerType} (v : T.Value) :
    (decimalText v.val).length ≤ 21 := by
  have digits : (decimal.write v.val.natAbs).length ≤ 20 :=
    (Numerals.length_write_le_iff (by decide)).mpr v.natAbs_lt
  by_cases negative : v.val < 0
  · have one : (bytes ['-']).length = 1 := rfl
    rw [decimalText_of_neg negative, List.length_append, one]
    omega
  · rw [decimalText_of_nonneg negative]
    omega

theorem length_decimalText {T : IntegerType} (v : T.Value) :
    (decimalText v.val).length + 1 ≤ kMaxNumericSize :=
  Nat.le_trans (Nat.succ_le_succ (length_decimalText_le v)) (by decide)

theorem length_hexText (v : Uintptr) : (hexText v.val.toNat).length + 1 ≤ 17 := by
  have below : v.val.toNat < hexadecimal.base ^ 16 := by
    have le_max : v.val ≤ 18446744073709551615 := v.le_max
    change v.val.toNat < 16 ^ 16
    omega
  exact Nat.succ_le_succ ((Numerals.length_write_le_iff (by decide)).mpr below)

/-- **Integer formatting is exact.** -/
theorem integers_formatted_exactly :
    (∀ (T : IntegerType) (v : T.Value),
      Canonical decimal v.val (decimalText v.val) ∧
      (decimalText v.val).length + 1 ≤ kMaxNumericSize ∧
      (∀ before after, kMaxNumericSize ≤ after.length →
        convert (before ++ after) before.length v.val =
          some (before ++ decimalText v.val ++ [0] ++ after.drop ((decimalText v.val).length + 1),
            (decimalText v.val).length)) ∧
      decimal.readInt 45 (decimalText v.val) = some v.val ∧
      ∀ w : T.Value, decimalText v.val = decimalText w.val → v = w) ∧
    ∀ v : Uintptr,
      Canonical hexadecimal v.val (hexText v.val.toNat) ∧
      (hexText v.val.toNat).length + 1 ≤ kMaxNumericSize ∧
      (∀ before after, kMaxNumericSize ≤ after.length →
        convertHex (before ++ after) before.length v.val.toNat =
          some (before ++ hexText v.val.toNat ++ [0] ++
              after.drop ((hexText v.val.toNat).length + 1),
            (hexText v.val.toNat).length)) ∧
      hexadecimal.read (hexText v.val.toNat) = some v.val.toNat ∧
      ∀ w : Uintptr, hexText v.val.toNat = hexText w.val.toNat → v = w := by
  constructor
  · intro T v
    have length := length_decimalText v
    refine ⟨canonical_decimalText _, length, ?_, Numerals.readInt_writeInt rfl _, ?_⟩
    · intro before after room
      exact convert_spec v.val before after (Nat.lt_of_lt_of_le length room)
    · intro w same
      exact IntegerType.Value.ext (Numerals.writeInt_injective rfl same)
  · intro v
    have length := length_hexText v
    have nonneg : 0 ≤ v.val := v.min_le
    have canonical := canonical_hexText v.val.toNat
    rw [Int.toNat_of_nonneg nonneg] at canonical
    have fits : (hexText v.val.toNat).length + 1 ≤ kMaxNumericSize :=
      Nat.le_trans length (by decide)
    refine ⟨canonical, fits, ?_, Numerals.read_write _, ?_⟩
    · intro before after room
      exact convertHex_spec _ before after (Nat.lt_of_lt_of_le fits room)
    · intro w same
      have number : v.val.toNat = w.val.toNat := Numerals.write_injective same
      have value : v.val = w.val := by
        rw [← Int.toNat_of_nonneg nonneg, number, Int.toNat_of_nonneg w.min_le]
      exact IntegerType.Value.ext value

end LogStream

end Dbdky
