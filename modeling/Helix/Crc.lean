import Helix.Bits

/-!
Cyclic redundancy checks, one bit at a time: a register of any width that is
shifted to the left and combined with a polynomial. Feeding is linear
(`checksum_xor`), so a whole group of bits can be fed at once: what they do to
the register is what its upper bits, combined with them, do to an empty one
(`checksum_group`). This is what implementations with a table rest on.
-/
namespace Helix.Crc
open Bits

section Register
variable {w : Nat} (polynomial : BitVec w)

/-- Feed one bit. -/
def feed (crc : BitVec w) (bit : Bool) : BitVec w :=
  if crc.msb ^^ bit then (crc <<< 1) ^^^ polynomial else crc <<< 1

/-- Feed the bits of a message. -/
def checksum (crc : BitVec w) (bits : List Bool) : BitVec w := bits.foldl (feed polynomial) crc

theorem feed_xor (a b : BitVec w) (x y : Bool) :
    feed polynomial (a ^^^ b) (x ^^ y) = feed polynomial a x ^^^ feed polynomial b y := by
  have swap : ((a ^^^ b).msb ^^ (x ^^ y)) = ((a.msb ^^ x) ^^ (b.msb ^^ y)) := by
    rw [BitVec.msb_xor]
    cases a.msb <;> cases b.msb <;> cases x <;> cases y <;> rfl
  have cancel : ∀ p : BitVec w, a <<< 1 ^^^ p ^^^ (b <<< 1 ^^^ p) = a <<< 1 ^^^ b <<< 1 := by
    intro p
    rw [BitVec.xor_assoc,BitVec.xor_comm p,BitVec.xor_assoc,BitVec.xor_self,BitVec.xor_zero]
  unfold feed
  rw [swap,BitVec.shiftLeft_xor_distrib]
  cases a.msb ^^ x <;> cases b.msb ^^ y
  · rfl
  · exact BitVec.xor_assoc _ _ _
  · show a <<< 1 ^^^ b <<< 1 ^^^ polynomial = a <<< 1 ^^^ polynomial ^^^ b <<< 1
    rw [BitVec.xor_assoc,BitVec.xor_comm (b <<< 1),← BitVec.xor_assoc]
  · exact (cancel polynomial).symm

/-- Registers and messages of one length can be combined before or after. -/
theorem checksum_xor (a b : BitVec w) {xs ys : List Bool} (lengths : xs.length = ys.length) :
    checksum polynomial (a ^^^ b) (List.zipWith xor xs ys) =
      checksum polynomial a xs ^^^ checksum polynomial b ys := by
  induction xs generalizing a b ys with
  | nil =>
    cases ys with
    | nil => rfl
    | cons y ys => cases lengths
  | cons x xs ih =>
    cases ys with
    | nil => cases lengths
    | cons y ys =>
      show checksum polynomial (feed polynomial (a ^^^ b) (x ^^ y)) (List.zipWith xor xs ys) = _
      rw [feed_xor,ih _ _ (Nat.succ.inj lengths)]
      rfl

/-- A register is fed as an empty one is, apart from what it holds. -/
theorem checksum_apart (crc : BitVec w) (n m : Nat) :
    checksum polynomial crc (bitsOf n m) =
      checksum polynomial crc (bitsOf n 0) ^^^ checksum polynomial 0 (bitsOf n m) := by
  rw [← checksum_xor polynomial crc 0 (by simp),← bitsOf_xor,Nat.zero_xor]
  exact congrArg (fun c => checksum polynomial c (bitsOf n m)) BitVec.xor_zero.symm

/-- Feeding zeros moves the register up; what leaves it is fed to an empty one. -/
theorem checksum_zeros (crc : BitVec w) {n : Nat} (fits : n ≤ w) :
    checksum polynomial crc (bitsOf n 0) =
      (crc <<< n) ^^^ checksum polynomial 0 (bitsOf n (crc.toNat >>> (w - n))) := by
  induction n generalizing crc with
  | zero =>
    show crc = (crc <<< 0) ^^^ 0
    rw [BitVec.shiftLeft_zero]
    exact BitVec.xor_zero.symm
  | succ n ih =>
    -- the bit that leaves first, as the register fed with it from empty
    have first : feed polynomial crc false = (crc <<< 1) ^^^ feed polynomial 0 crc.msb := by
      unfold feed
      cases crc.msb <;> simp
    have top : (crc.toNat >>> (w - (n + 1))).testBit n = crc.msb := by
      rw [Nat.testBit_shiftRight,BitVec.msb_eq_getLsbD_last,show w - (n + 1) + n = w - 1 by omega]
      rfl
    have others : bitsOf n ((crc <<< 1).toNat >>> (w - n)) = bitsOf n (crc.toNat >>> (w - (n + 1))) := by
      apply bitsOf_congr
      intro i below
      rw [Nat.testBit_shiftRight,Nat.testBit_shiftRight]
      show (crc <<< 1).getLsbD (w - n + i) = crc.getLsbD (w - (n + 1) + i)
      rw [BitVec.getLsbD_shiftLeft,show w - n + i - 1 = w - (n + 1) + i by omega]
      have inside : w - n + i < w := by omega
      have above : ¬ w - n + i < 1 := by omega
      simp [inside,above]
    have fed : checksum polynomial 0 (bitsOf (n + 1) (crc.toNat >>> (w - (n + 1)))) =
        checksum polynomial (feed polynomial 0 crc.msb) (bitsOf n (crc.toNat >>> (w - (n + 1)))) := by
      rw [bitsOf,top]
      rfl
    have zeros : bitsOf (n + 1) 0 = false :: bitsOf n 0 := by rw [bitsOf,Nat.zero_testBit]
    have moved : checksum polynomial (feed polynomial crc false) (bitsOf n 0) =
        checksum polynomial (crc <<< 1) (bitsOf n 0) ^^^
          checksum polynomial (feed polynomial 0 crc.msb) (bitsOf n 0) := by
      rw [first,← checksum_xor polynomial _ _ rfl,← bitsOf_xor,Nat.xor_zero]
    rw [zeros]
    show checksum polynomial (feed polynomial crc false) (bitsOf n 0) = _
    rw [moved,ih _ (by omega),others,fed,
      checksum_apart polynomial (feed polynomial 0 crc.msb) n (crc.toNat >>> (w - (n + 1))),Nat.add_comm n 1,
      BitVec.shiftLeft_add,BitVec.xor_assoc,BitVec.xor_comm (checksum polynomial 0 _)]

/-- A whole group of bits at once. -/
theorem checksum_group (crc : BitVec w) {n : Nat} (fits : n ≤ w) (m : Nat) :
    checksum polynomial crc (bitsOf n m) =
      (crc <<< n) ^^^ checksum polynomial 0 (bitsOf n ((crc.toNat >>> (w - n)) ^^^ m)) := by
  have both : checksum polynomial 0 (bitsOf n ((crc.toNat >>> (w - n)) ^^^ m)) =
      checksum polynomial 0 (bitsOf n (crc.toNat >>> (w - n))) ^^^ checksum polynomial 0 (bitsOf n m) := by
    rw [bitsOf_xor,← checksum_xor polynomial 0 0 (by simp),BitVec.xor_self]
    rfl
  rw [checksum_apart,checksum_zeros polynomial crc fits,both,BitVec.xor_assoc]

end Register

/-- CRC-16/XMODEM: polynomial 0x1021 and an empty register, neither reflected
    nor inverted. -/
def xmodem (data : List UInt8) : BitVec 16 := checksum 0x1021 0 (byteBits data)

-- the check value of the digits from one to nine
example : xmodem [0x31,0x32,0x33,0x34,0x35,0x36,0x37,0x38,0x39] = 0x31c3 := by decide +kernel

/-- A checksum as bytes, the lower one first. -/
def littleEndian (crc : BitVec 16) : List UInt8 := [UInt8.ofNat crc.toNat,UInt8.ofNat (crc.toNat / 256)]

end Helix.Crc
