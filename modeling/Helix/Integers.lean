import Mathlib.Algebra.Order.Ring.Int

/-!
Arithmetic on 128-bit signed integers as integers with a range: a checked
operation has the exact mathematical result when it fits and no result
otherwise, and division truncates toward zero.
-/
namespace Helix

def i128Min : Int := -2 ^ 127
def i128Max : Int := 2 ^ 127 - 1

/-- The integers of 128 bits. -/
def Fits (x : Int) : Prop := i128Min ≤ x ∧ x ≤ i128Max

instance (x : Int) : Decidable (Fits x) := inferInstanceAs (Decidable (_ ∧ _))

namespace Checked

def add (left right : Int) : Option Int := if Fits (left + right) then some (left + right) else none
def sub (left right : Int) : Option Int := if Fits (left - right) then some (left - right) else none
def mul (left right : Int) : Option Int := if Fits (left * right) then some (left * right) else none

@[simp] theorem add_some {left right x : Int} : add left right = some x ↔ Fits (left + right) ∧ x = left + right := by
  unfold add
  split <;> simp_all [eq_comm]

@[simp] theorem sub_some {left right x : Int} : sub left right = some x ↔ Fits (left - right) ∧ x = left - right := by
  unfold sub
  split <;> simp_all [eq_comm]

@[simp] theorem mul_some {left right x : Int} : mul left right = some x ↔ Fits (left * right) ∧ x = left * right := by
  unfold mul
  split <;> simp_all [eq_comm]

end Checked

/-- What lies between two numbers of 128 bits has 128 bits. -/
theorem Fits.between {a b x : Int} (low : Fits a) (high : Fits b) (above : a ≤ x) (below : x ≤ b) : Fits x :=
  ⟨Int.le_trans low.1 above,Int.le_trans below high.2⟩

theorem fits_zero : Fits 0 := by decide

/-- Division toward zero keeps a dividend that is not positive so. -/
theorem tdiv_nonpos {a b : Int} (nonpos : a ≤ 0) (nonneg : 0 ≤ b) : a.tdiv b ≤ 0 := by
  have flipped := Int.tdiv_nonneg (Int.neg_nonneg_of_nonpos nonpos) nonneg
  rw [Int.neg_tdiv] at flipped
  omega

/-- Division by a positive number keeps a number of 128 bits one. -/
theorem Fits.tdiv {x d : Int} (fits : Fits x) (positive : 0 < d) : Fits (x.tdiv d) := by
  rcases le_total 0 x with nonneg | nonpos
  · exact fits_zero.between fits (Int.tdiv_nonneg nonneg positive.le) (Int.tdiv_le_self d nonneg)
  · refine fits.between fits_zero ?_ (tdiv_nonpos nonpos positive.le)
    have above := Int.tdiv_le_self d (Int.neg_nonneg_of_nonpos nonpos)
    rw [Int.neg_tdiv] at above
    omega

theorem pos_of_tdiv {a b : Int} (nonneg : 0 ≤ b) (positive : 0 < a.tdiv b) : 0 < a := by
  by_contra nonpos
  exact absurd (tdiv_nonpos (not_lt.mp nonpos) nonneg) (not_le.mpr positive)

end Helix
