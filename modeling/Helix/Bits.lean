import Mathlib.Data.List.Flatten
import Mathlib.Data.Nat.Bitwise
import Mathlib.Tactic.Common

/-!
Numbers as bits, most significant first, and bits read back in groups of one
width. Writing numbers one after the other and reading them back in groups gives
the numbers (`groups_flatMap`).
-/
namespace Helix.Bits

/-- The lowest bits of a number, most significant first. -/
def bitsOf : Nat → Nat → List Bool
  | 0, _ => []
  | w + 1, n => n.testBit w :: bitsOf w n

/-- The number that bits spell, most significant first. -/
def ofBits (bits : List Bool) : Nat := bits.foldl (fun n bit => 2 * n + bit.toNat) 0

@[simp] theorem length_bitsOf (w n : Nat) : (bitsOf w n).length = w := by
  induction w with
  | zero => rfl
  | succ w ih => simp [bitsOf,ih]

/-- Bits depend on the bits of the number only. -/
theorem bitsOf_congr {w m n : Nat} (same : ∀ i, i < w → m.testBit i = n.testBit i) : bitsOf w m = bitsOf w n := by
  induction w with
  | zero => rfl
  | succ w ih => rw [bitsOf,bitsOf,same w (Nat.lt_succ_self w),ih (fun i below => same i (Nat.lt_succ_of_lt below))]

/-- The upper bits come first. -/
theorem bitsOf_add (a b n : Nat) : bitsOf (a + b) n = bitsOf a (n >>> b) ++ bitsOf b n := by
  induction a with
  | zero => rw [Nat.zero_add]; rfl
  | succ a ih =>
    have first : n.testBit (a + b) = (n >>> b).testBit a := by rw [Nat.testBit_shiftRight,Nat.add_comm]
    rw [Nat.add_right_comm,bitsOf,bitsOf,ih,first,List.cons_append]

theorem bitsOf_zero (w : Nat) : bitsOf w 0 = List.replicate w false := by
  induction w with
  | zero => rfl
  | succ w ih => rw [bitsOf,ih,Nat.zero_testBit,List.replicate_succ]

theorem bitsOf_xor (w m n : Nat) : bitsOf w (m ^^^ n) = List.zipWith xor (bitsOf w m) (bitsOf w n) := by
  induction w with
  | zero => rfl
  | succ w ih => rw [bitsOf,bitsOf,bitsOf,ih,Nat.testBit_xor,List.zipWith_cons_cons]

theorem ofBits_append (bits : List Bool) (bit : Bool) : ofBits (bits ++ [bit]) = 2 * ofBits bits + bit.toNat := by
  simp [ofBits]

theorem ofBits_bitsOf {w n : Nat} (small : n < 2 ^ w) : ofBits (bitsOf w n) = n := by
  induction w generalizing n with
  | zero =>
    have zero : n = 0 := by simpa using small
    rw [zero]
    rfl
  | succ w ih =>
    have half : n >>> 1 < 2 ^ w := by
      rw [Nat.shiftRight_eq_div_pow]
      omega
    have last : (n.testBit 0).toNat = n % 2 := by
      rw [Nat.testBit_zero]
      rcases Nat.mod_two_eq_zero_or_one n with even | odd
      · simp [even]
      · simp [odd]
    rw [bitsOf_add w 1,show bitsOf 1 n = [n.testBit 0] from rfl,ofBits_append,ih half,last,Nat.shiftRight_eq_div_pow]
    omega

/-- The numbers of the first groups. -/
def groups (w : Nat) : Nat → List Bool → List Nat
  | 0, _ => []
  | count + 1, bits => ofBits (bits.take w) :: groups w count (bits.drop w)

/-- Numbers written one after the other are read back. -/
theorem groups_flatMap {w : Nat} {numbers : List Nat} (small : ∀ n ∈ numbers, n < 2 ^ w) (rest : List Bool) :
    groups w numbers.length (numbers.flatMap (bitsOf w) ++ rest) = numbers := by
  induction numbers with
  | nil => rfl
  | cons n numbers ih =>
    obtain ⟨first,others⟩ := List.forall_mem_cons.mp small
    have split : (n :: numbers).flatMap (bitsOf w) ++ rest = bitsOf w n ++ (numbers.flatMap (bitsOf w) ++ rest) := by
      rw [List.flatMap_cons,List.append_assoc]
    rw [split,List.length_cons,groups,List.take_append_of_le_length (by simp),List.take_of_length_le (by simp),
      List.drop_append_of_le_length (by simp),List.drop_eq_nil_of_le (by simp),List.nil_append,ofBits_bitsOf first,
      ih others]

theorem length_flatMap_bitsOf (w : Nat) (numbers : List Nat) :
    (numbers.flatMap (bitsOf w)).length = w * numbers.length := by
  induction numbers with
  | nil => rfl
  | cons n numbers ih =>
    rw [List.flatMap_cons,List.length_append,length_bitsOf,ih,List.length_cons,Nat.mul_succ]
    omega

/-- The bits of some bytes, byte for byte. -/
def byteBits (data : List UInt8) : List Bool := data.flatMap (fun byte => bitsOf 8 byte.toNat)

theorem byteBits_eq (data : List UInt8) : byteBits data = (data.map UInt8.toNat).flatMap (bitsOf 8) := by
  rw [byteBits,List.flatMap_map]

theorem length_byteBits (data : List UInt8) : (byteBits data).length = 8 * data.length := by
  rw [byteBits_eq,length_flatMap_bitsOf,List.length_map]

end Helix.Bits
