import Mathlib.Data.Int.Log
import Mathlib.Data.Rat.Floor
import Mathlib.Tactic.Ring
import Mathlib.Tactic.NormNum

/-!
Numbers of 64 bits with a binary point. A rational is rounded to the nearest
multiple of its last place, the even one of two; rounding never passes a number
that is there (`le_round`, `round_le`), which is all that comparisons need. The
two zeros are one here: nothing but a division by zero tells them apart.
-/
namespace Helix.Binary64

/-- The nearest integer, the even one of two. -/
def nearest (q : ℚ) : ℤ :=
  if q - ⌊q⌋ < 1 / 2 then ⌊q⌋
  else if 1 / 2 < q - ⌊q⌋ then ⌊q⌋ + 1
  else if ⌊q⌋ % 2 = 0 then ⌊q⌋ else ⌊q⌋ + 1

/-- The exponent of the last of 53 places, or of the least there is. -/
def lastPlace (q : ℚ) : ℤ := max (Int.log 2 |q| - 52) (-1074)

def round (q : ℚ) : ℚ := nearest (q / 2 ^ lastPlace q) * 2 ^ lastPlace q

/-- A number that is there, as far as places go. -/
def Representable (c : ℚ) : Prop := ∃ m e : ℤ, m ≤ 2 ^ 53 ∧ -1074 ≤ e ∧ c = m * 2 ^ e

theorem floor_le_nearest (q : ℚ) : ⌊q⌋ ≤ nearest q := by
  unfold nearest
  split
  · exact le_rfl
  · split
    · omega
    · split <;> omega

theorem le_nearest {z : ℤ} {q : ℚ} (below : z ≤ q) : z ≤ nearest q :=
  (Int.le_floor.mpr below).trans (floor_le_nearest q)

theorem nearest_le {z : ℤ} {q : ℚ} (above : q ≤ z) : nearest q ≤ z := by
  have floor_le : ⌊q⌋ ≤ z := by
    have low := (Int.floor_le q).trans above
    exact_mod_cast low
  rcases (Int.floor_le q).lt_or_eq with fraction | whole
  · have next : ⌊q⌋ + 1 ≤ z := by
      have less := fraction.trans_le above
      have below : ⌊q⌋ < z := by exact_mod_cast less
      omega
    unfold nearest
    split
    · exact floor_le
    · split
      · exact next
      · split
        · exact floor_le
        · exact next
  · have exact_floor : q - ⌊q⌋ < 1 / 2 := by
      rw [whole,sub_self]
      norm_num
    rw [nearest,if_pos exact_floor]
    exact floor_le

/-- A representable number is a multiple of the last place of a number, or not
    beyond the first of the 53 places above it. -/
theorem Representable.cases {c : ℚ} (there : Representable c) (q : ℚ) (positive : 0 < q) :
    (∃ z : ℤ, c = z * 2 ^ lastPlace q) ∨ c ≤ 2 ^ 52 * 2 ^ lastPlace q ∧ (2 ^ 52 * 2 ^ lastPlace q : ℚ) ≤ q := by
  obtain ⟨m,e,small,least,rfl⟩ := there
  rcases le_or_gt (lastPlace q) e with coarse | fine
  · left
    refine ⟨m * 2 ^ (e - lastPlace q).toNat,?_⟩
    have split : e = (e - lastPlace q).toNat + lastPlace q := by omega
    have power : (2 : ℚ) ^ e = 2 ^ (e - lastPlace q).toNat * 2 ^ lastPlace q := by
      conv_lhs => rw [split]
      rw [zpow_add₀ two_ne_zero,zpow_natCast]
    push_cast
    rw [power,mul_assoc]
  · right
    have place : lastPlace q = Int.log 2 |q| - 52 := by
      unfold lastPlace at fine ⊢
      omega
    have scaled : (2 ^ 52 * 2 ^ lastPlace q : ℚ) = 2 ^ Int.log 2 |q| := by
      rw [place,← zpow_natCast,← zpow_add₀ two_ne_zero]
      congr 1
      push_cast
      omega
    refine ⟨?_,?_⟩
    · have step : (2 : ℚ) ^ e * 2 ≤ 2 ^ lastPlace q := by
        rw [← zpow_add_one₀ two_ne_zero]
        exact zpow_le_zpow_right₀ one_le_two (by omega)
      have bounded : (m : ℚ) ≤ 2 ^ 53 := by exact_mod_cast small
      calc (m : ℚ) * 2 ^ e ≤ 2 ^ 53 * 2 ^ e := mul_le_mul_of_nonneg_right bounded (zpow_nonneg zero_le_two _)
        _ = 2 ^ 52 * (2 ^ e * 2) := by ring
        _ ≤ 2 ^ 52 * 2 ^ lastPlace q := mul_le_mul_of_nonneg_left step (pow_nonneg zero_le_two _)
    · rw [scaled]
      have size := Int.zpow_log_le_self (R := ℚ) one_lt_two (abs_pos.mpr positive.ne')
      rw [abs_of_pos positive] at size ⊢
      exact_mod_cast size

/-- Rounding does not fall below a number that is there. -/
theorem le_round {c q : ℚ} (there : Representable c) (positive : 0 < c) (below : c ≤ q) : c ≤ round q := by
  have unit : (0 : ℚ) < 2 ^ lastPlace q := zpow_pos two_pos _
  rcases there.cases q (positive.trans_le below) with ⟨z,rfl⟩ | ⟨small,size⟩
  · have scaled : (z : ℚ) ≤ q / 2 ^ lastPlace q := (le_div_iff₀ unit).mpr below
    have rounded : (z : ℚ) ≤ nearest (q / 2 ^ lastPlace q) := by exact_mod_cast le_nearest scaled
    exact mul_le_mul_of_nonneg_right rounded unit.le
  · have scaled : ((2 ^ 52 : ℤ) : ℚ) ≤ q / 2 ^ lastPlace q := by
      rw [le_div_iff₀ unit]
      exact_mod_cast size
    have rounded : ((2 ^ 52 : ℤ) : ℚ) ≤ nearest (q / 2 ^ lastPlace q) := by exact_mod_cast le_nearest scaled
    refine small.trans ?_
    have times := mul_le_mul_of_nonneg_right rounded unit.le
    exact_mod_cast times

/-- Rounding does not rise above a number that is there. -/
theorem round_le {c q : ℚ} (there : Representable c) (nonneg : 0 ≤ c) (above : q ≤ c) : round q ≤ c := by
  have unit : (0 : ℚ) < 2 ^ lastPlace q := zpow_pos two_pos _
  have multiple : ∀ z : ℤ, q ≤ z * 2 ^ lastPlace q → round q ≤ z * 2 ^ lastPlace q := by
    intro z below
    have scaled : q / 2 ^ lastPlace q ≤ z := (div_le_iff₀ unit).mpr below
    have rounded : (nearest (q / 2 ^ lastPlace q) : ℚ) ≤ z := by exact_mod_cast nearest_le scaled
    exact mul_le_mul_of_nonneg_right rounded unit.le
  rcases le_or_gt q 0 with negative | positive
  · have zero := multiple 0 (by simpa using negative)
    refine le_trans ?_ nonneg
    simpa using zero
  · rcases there.cases q positive with ⟨z,rfl⟩ | ⟨small,size⟩
    · exact multiple z above
    · -- Both bounds meet at the number itself.
      have same : c = ((2 ^ 52 : ℤ) : ℚ) * 2 ^ lastPlace q := by
        push_cast
        exact le_antisymm small (size.trans above)
      rw [same] at above ⊢
      exact multiple _ above

theorem round_nonneg {q : ℚ} (nonneg : 0 ≤ q) : 0 ≤ round q := by
  have unit : (0 : ℚ) < 2 ^ lastPlace q := zpow_pos two_pos _
  have scaled : ((0 : ℤ) : ℚ) ≤ q / 2 ^ lastPlace q := by
    rw [Int.cast_zero]
    exact div_nonneg nonneg unit.le
  have rounded : (0 : ℚ) ≤ nearest (q / 2 ^ lastPlace q) := by exact_mod_cast le_nearest scaled
  exact mul_nonneg rounded unit.le

theorem representable_int {n : ℤ} (small : n ≤ 2 ^ 53) : Representable n :=
  ⟨n,0,small,by decide,by simp⟩

theorem representable_nat {n : Nat} (small : n ≤ 2 ^ 53) : Representable n := by
  have there : Representable (n : ℤ) := representable_int (by exact_mod_cast small)
  rwa [Int.cast_natCast] at there

theorem nat_le_round {n : Nat} {q : ℚ} (small : n ≤ 2 ^ 53) (below : n ≤ q) : n ≤ round q := by
  rcases Nat.eq_zero_or_pos n with rfl | positive
  · rw [Nat.cast_zero] at below ⊢
    exact round_nonneg below
  · exact le_round (representable_nat small) (Nat.cast_pos.mpr positive) below

theorem round_le_nat {n : Nat} {q : ℚ} (small : n ≤ 2 ^ 53) (above : q ≤ n) : round q ≤ n :=
  round_le (representable_nat small) (Nat.cast_nonneg n) above

/-- Natural numbers of 53 places are there. -/
theorem round_nat {n : Nat} (small : n ≤ 2 ^ 53) : round n = n :=
  le_antisymm (round_le_nat small le_rfl) (nat_le_round small le_rfl)

/-! ### Values -/

/-- What the arithmetic computes with. -/
inductive Number where
  | finite (value : ℚ)
  | infinite (negative : Bool)
  | nan
  deriving DecidableEq

namespace Number

/-- The number nearest to a rational; what is too large is infinite. -/
def ofRat (q : ℚ) : Number :=
  if 2 ^ 1024 ≤ round q then .infinite false
  else if round q ≤ -2 ^ 1024 then .infinite true
  else .finite (round q)

def lt : Number → Number → Bool
  | .finite a, .finite b => decide (a < b)
  | .infinite negative, .finite _ => negative
  | .finite _, .infinite negative => !negative
  | .infinite left, .infinite right => left && !right
  | _, _ => false

/-- A sign and whether it is turned. -/
def turned (negative : Bool) (by_value : ℚ) : Bool := xor negative (decide (by_value < 0))

def mul : Number → Number → Number
  | .finite a, .finite b => ofRat (a * b)
  | .infinite negative, .finite b => if b = 0 then .nan else .infinite (turned negative b)
  | .finite a, .infinite negative => if a = 0 then .nan else .infinite (turned negative a)
  | .infinite left, .infinite right => .infinite (xor left right)
  | _, _ => .nan

def div : Number → Number → Number
  | .finite a, .finite b =>
    if b ≠ 0 then ofRat (a / b) else if a = 0 then .nan else .infinite (decide (a < 0))
  | .infinite negative, .finite b => .infinite (turned negative b)
  | .finite _, .infinite _ => .finite 0
  | _, _ => .nan

theorem ofRat_lt {q c : ℚ} (low : -2 ^ 1024 < c) (high : c < 2 ^ 1024) :
    lt (ofRat q) (.finite c) = true ↔ round q < c := by
  unfold ofRat
  split
  · rename_i large
    simp only [lt,Bool.false_eq_true,false_iff,not_lt]
    exact high.le.trans large
  · split
    · rename_i small
      simp only [lt,true_iff]
      exact small.trans_lt low
    · simp [lt]

theorem ofRat_cases (q : ℚ) : (2 ^ 1024 ≤ round q ∧ ofRat q = .infinite false) ∨
    (round q ≤ -2 ^ 1024 ∧ ofRat q = .infinite true) ∨ ofRat q = .finite (round q) := by
  unfold ofRat
  by_cases high : 2 ^ 1024 ≤ round q
  · exact .inl ⟨high,if_pos high⟩
  · by_cases low : round q ≤ -2 ^ 1024
    · exact .inr (.inl ⟨low,by rw [if_neg high,if_pos low]⟩)
    · exact .inr (.inr (by rw [if_neg high,if_neg low]))

/-- The number nearest to a rational that is not negative is zero or positive. -/
theorem ofRat_positive {q : ℚ} (nonneg : 0 ≤ q) (some : ofRat q ≠ .finite 0) : lt (.finite 0) (ofRat q) = true := by
  have rounded := round_nonneg nonneg
  rcases ofRat_cases q with ⟨_,same⟩ | ⟨low,_⟩ | same
  · rw [same]
    rfl
  · have negative : (-2 ^ 1024 : ℚ) < 0 := neg_lt_zero.mpr (pow_pos two_pos _)
    exact absurd (rounded.trans low) (not_le.mpr negative)
  · rw [same] at some ⊢
    have different : round q ≠ 0 := fun zero => some (by rw [zero])
    exact decide_eq_true (lt_of_le_of_ne rounded different.symm)

theorem ofRat_nat {n : Nat} (small : n ≤ 2 ^ 53) : ofRat n = .finite n := by
  have below : (n : ℚ) < 2 ^ 1024 := by
    have bound : (n : ℚ) ≤ 2 ^ 53 := by exact_mod_cast small
    exact bound.trans_lt (pow_lt_pow_right₀ one_lt_two (by decide))
  have above : -2 ^ 1024 < (n : ℚ) := (neg_lt_zero.mpr (pow_pos two_pos _)).trans_le (Nat.cast_nonneg n)
  have cases := ofRat_cases n
  rw [round_nat small] at cases
  rcases cases with ⟨high,_⟩ | ⟨low,_⟩ | same
  · exact absurd high (not_le.mpr below)
  · exact absurd low (not_le.mpr above)
  · exact same

/-- What is read as a finite number is not below a number that is there and that it
    was not below. -/
theorem le_of_ofRat {c q value : ℚ} (there : Representable c) (positive : 0 < c) (below : c ≤ q)
    (read : ofRat q = .finite value) : c ≤ value := by
  rcases ofRat_cases q with ⟨_,same⟩ | ⟨_,same⟩ | same
  · rw [same] at read
    cases read
  · rw [same] at read
    cases read
  · rw [same] at read
    cases read
    exact le_round there positive below

end Number
end Helix.Binary64
