import Mathlib.Algebra.Group.Nat.Defs
import Mathlib.Tactic.Common

/-!
Words in memory.

A word of `n` bytes lies in memory with its least or its most significant byte first,
as the machine has it.

* **`word_bytes`, `bytes_word`.** Storing a word and loading it again are inverse to each
  other, in either order.
* **`bytes_htobe`, `betoh_word`.** A word converted to big-endian lies in memory with its
  most significant byte first, whatever the machine, and converting back undoes this.
* **`big_bytes`.** Big-endian, the bytes of a word are the digits of the signed number that
  it stands for, in two's complement.
-/

namespace Memory

/-- The `n` lowest bytes of `v`, least significant first. -/
def toLittle : Nat → Nat → List UInt8
  | 0, _ => []
  | n + 1, v => UInt8.ofNat v :: toLittle n (v / 256)

/-- The number with these bytes, least significant first. -/
def ofLittle : List UInt8 → Nat
  | [] => 0
  | byte :: bytes => byte.toNat + 256 * ofLittle bytes

@[simp] theorem length_toLittle (n v : Nat) : (toLittle n v).length = n := by
  induction n generalizing v with
  | zero => rfl
  | succ n ih => rw [toLittle, List.length_cons, ih]

theorem ofLittle_toLittle (n v : Nat) : ofLittle (toLittle n v) = v % 256 ^ n := by
  induction n generalizing v with
  | zero => simp [toLittle, ofLittle, Nat.mod_one]
  | succ n ih =>
      have first : (UInt8.ofNat v).toNat = v % 256 := UInt8.toNat_ofNat'
      rw [toLittle, ofLittle, ih, first, Nat.pow_succ, Nat.mul_comm (256 ^ n), Nat.mod_mul]

theorem ofLittle_lt (bytes : List UInt8) : ofLittle bytes < 256 ^ bytes.length := by
  induction bytes with
  | nil => decide
  | cons byte bytes ih =>
      have small := byte.toNat_lt
      rw [ofLittle, List.length_cons, Nat.pow_succ]
      omega

theorem toLittle_ofLittle (bytes : List UInt8) :
    toLittle bytes.length (ofLittle bytes) = bytes := by
  induction bytes with
  | nil => rfl
  | cons byte bytes ih =>
      have small : byte.toNat < 256 := byte.toNat_lt
      have rest : (byte.toNat + 256 * ofLittle bytes) / 256 = ofLittle bytes := by omega
      have first : UInt8.ofNat (byte.toNat + 256 * ofLittle bytes) = byte := by
        apply UInt8.toNat_inj.mp
        rw [UInt8.toNat_ofNat']
        omega
      rw [ofLittle, List.length_cons, toLittle, rest, ih, first]

/-- Which byte of a word comes first in memory. -/
inductive ByteOrder where
  | little
  | big
deriving DecidableEq, Repr

namespace ByteOrder

variable {n : Nat}

/-- The bytes of a word as they lie in memory. -/
def bytes (order : ByteOrder) (x : BitVec (8 * n)) : List UInt8 :=
  match order with
  | little => toLittle n x.toNat
  | big => (toLittle n x.toNat).reverse

/-- The word with these bytes in memory. -/
def word (order : ByteOrder) (n : Nat) (bytes : List UInt8) : BitVec (8 * n) :=
  match order with
  | little => .ofNat _ (ofLittle bytes)
  | big => .ofNat _ (ofLittle bytes.reverse)

@[simp] theorem length_bytes (order : ByteOrder) (x : BitVec (8 * n)) :
    (order.bytes x).length = n := by
  cases order <;> simp [bytes]

theorem pow_width (n : Nat) : 2 ^ (8 * n) = 256 ^ n := Nat.pow_mul 2 8 n

@[simp] theorem word_bytes (order : ByteOrder) (x : BitVec (8 * n)) :
    order.word n (order.bytes x) = x := by
  have whole : BitVec.ofNat (8 * n) (ofLittle (toLittle n x.toNat)) = x := by
    rw [ofLittle_toLittle, ← pow_width, Nat.mod_eq_of_lt x.isLt, BitVec.ofNat_toNat,
      BitVec.setWidth_eq]
  cases order
  · exact whole
  · rw [bytes, word, List.reverse_reverse, whole]

theorem bytes_word (order : ByteOrder) {bytes : List UInt8} (length : bytes.length = n) :
    order.bytes (order.word n bytes) = bytes := by
  have whole (bytes : List UInt8) (length : bytes.length = n) :
      toLittle n (BitVec.ofNat (8 * n) (ofLittle bytes)).toNat = bytes := by
    have small := ofLittle_lt bytes
    rw [length, ← pow_width] at small
    rw [BitVec.toNat_ofNat, Nat.mod_eq_of_lt small, ← length, toLittle_ofLittle]
  cases order
  · exact whole bytes length
  · rw [ByteOrder.bytes, word, whole _ (List.length_reverse.trans length), List.reverse_reverse]

theorem bytes_injective (order : ByteOrder) : Function.Injective (order.bytes (n := n)) := by
  intro x y same
  rw [← order.word_bytes x, same, order.word_bytes]

/-! ### Conversion to big-endian -/

/-- The word with its bytes in the other order. -/
def byteSwap (x : BitVec (8 * n)) : BitVec (8 * n) :=
  .ofNat _ (ofLittle (toLittle n x.toNat).reverse)

/-- `htobe`, on a machine of this byte order. -/
def htobe : ByteOrder → BitVec (8 * n) → BitVec (8 * n)
  | little, x => byteSwap x
  | big, x => x

/-- `betoh`, on a machine of this byte order. -/
def betoh : ByteOrder → BitVec (8 * n) → BitVec (8 * n)
  | little, x => byteSwap x
  | big, x => x

/-- Swapped, a word has the bytes on the one machine that it had on the other. -/
theorem byteSwap_eq (x : BitVec (8 * n)) : byteSwap x = little.word n (big.bytes x) := rfl

theorem bytes_htobe (order : ByteOrder) (x : BitVec (8 * n)) :
    order.bytes (order.htobe x) = big.bytes x := by
  cases order
  · rw [htobe, byteSwap_eq, bytes_word little (big.length_bytes x)]
  · rfl

theorem betoh_word (order : ByteOrder) {bytes : List UInt8} (length : bytes.length = n) :
    order.betoh (order.word n bytes) = big.word n bytes := by
  cases order
  · rw [betoh, byteSwap_eq]
    change little.word n (toLittle n _).reverse = _
    have stored : toLittle n (little.word n bytes).toNat = bytes := bytes_word little length
    rw [stored]
    rfl
  · rfl

/-! ### Single bytes -/

theorem bytes_byte (order : ByteOrder) (x : BitVec (8 * 1)) : order.bytes x = big.bytes x := by
  cases order <;> rfl

theorem betoh_byte (order : ByteOrder) (x : BitVec (8 * 1)) : order.betoh x = x := by
  cases order
  · rw [betoh, byteSwap_eq, ← little.bytes_byte, word_bytes]
  · rfl

end ByteOrder

/-! ### Two's complement -/

/-- The digit of `v` to the base 256 that has the weight `256 ^ k`. -/
def digit (v : Int) (k : Nat) : UInt8 := .ofNat (v / (256 ^ k : Nat) % 256).toNat

/-- The `n` lowest digits of `v`, the most significant first. -/
def twosComplement (n : Nat) (v : Int) : List UInt8 := (List.range n).reverse.map (digit v)

theorem toLittle_eq_map (n v : Nat) :
    toLittle n v = (List.range n).map fun k => UInt8.ofNat (v / 256 ^ k) := by
  induction n generalizing v with
  | zero => rfl
  | succ n ih =>
      rw [toLittle, ih, List.range_succ_eq_map, List.map_cons, List.map_map]
      congr 1
      · rw [Nat.pow_zero, Nat.div_one]
      · apply List.map_congr_left
        intro k _
        simp only [Function.comp_apply, Nat.succ_eq_add_one, Nat.pow_succ']
        rw [Nat.div_div_eq_div_mul]

/-- The digits below `256 ^ n` do not see multiples of it. -/
theorem digit_add_mul {n k : Nat} (below : k < n) (v z : Int) :
    digit (v + z * (256 ^ n : Nat)) k = digit v k := by
  obtain ⟨m, rfl⟩ := Nat.exists_eq_add_of_lt below
  have split :
      z * (256 ^ (k + m + 1) : Nat) = z * (256 ^ m : Nat) * (256 : Nat) * (256 ^ k : Nat) := by
    rw [Nat.pow_succ, Nat.pow_add, Int.natCast_mul, Int.natCast_mul]
    ac_rfl
  have weight : ((256 ^ k : Nat) : Int) ≠ 0 :=
    Int.natCast_ne_zero.mpr (Nat.ne_of_gt (Nat.pow_pos (by decide)))
  rw [digit, split, Int.add_mul_ediv_right _ _ weight]
  exact congrArg (fun i : Int => UInt8.ofNat i.toNat) (Int.add_mul_emod_self_right _ _ _)

theorem digit_natCast (v k : Nat) : digit v k = UInt8.ofNat (v / 256 ^ k) := by
  have cast : (v : Int) / (256 ^ k : Nat) % 256 = (v / 256 ^ k % 256 : Nat) := by
    rw [Int.natCast_emod, Int.natCast_ediv]
    rfl
  apply UInt8.toNat_inj.mp
  rw [digit, cast, Int.toNat_natCast, UInt8.toNat_ofNat', UInt8.toNat_ofNat', Nat.mod_mod]

theorem ByteOrder.big_bytes {n : Nat} (x : BitVec (8 * n)) :
    ByteOrder.big.bytes x = twosComplement n x.toInt := by
  have signed : x.toInt = x.toNat + -Int.bdiv x.toNat (2 ^ (8 * n)) * (256 ^ n : Nat) := by
    rw [BitVec.toInt_eq_toNat_bmod, Int.bmod_eq_self_sub_bdiv_mul, ByteOrder.pow_width, Int.neg_mul,
      Int.sub_eq_add_neg]
  rw [ByteOrder.bytes, toLittle_eq_map, ← List.map_reverse, twosComplement, signed]
  apply List.map_congr_left
  intro k mem
  rw [digit_add_mul (List.mem_range.mp (List.mem_reverse.mp mem)), digit_natCast]

end Memory
